import MapStyle.Curve.Interpolation
import MapStyle.Evaluation.Choice

/-!
# Expressions

An `Expr` is a checked expression. Every node has the key at which it was found, a path of indices
into the expression as written, and its type.

* `Expr.children` and `Expr.nodes` list the nodes of a tree.
* `Expr.same` is equality of trees, keys and types included.
* `Expr.isFeatureConstant` and `Expr.isZoomConstant` say what the value of a tree cannot depend on.
-/

namespace MapStyle

/-- A place in an expression as written: the indices that lead to it from the root. -/
abbrev Path := List Nat

/-- The text of a path, `[1][2]`. -/
def Path.text (path : Path) : String :=
  String.join (path.map fun i => "[" ++ toString i ++ "]")

/-- A checked expression over scalars `N`. -/
inductive Expr (N : Type) where
  /-- A value. -/
  | literal (key : Path) (type : Ty) (value : Value N)
  /-- The value of a variable in scope. -/
  | var (key : Path) (type : Ty) (name : String)
  /-- A result in which variables are bound. The bound expressions do not see each other. -/
  | letIn (key : Path) (bindings : List (String × Expr N)) (result : Expr N)
  /-- The first value that is not null. -/
  | coalesce (key : Path) (type : Ty) (args : List (Expr N))
  /-- The output of the first condition that holds. -/
  | conditional (key : Path) (type : Ty) (branches : List (Expr N × Expr N)) (otherwise : Expr N)
  /-- The output whose labels hold the input. -/
  | matching (key : Path) (type : Ty) (input : Expr N)
    (branches : List (List (Label N) × Expr N)) (otherwise : Expr N)
  /-- A function of a number, given by outputs at stops. -/
  | curve (key : Path) (type : Ty) (interpolation : Interpolation N) (input : Expr N)
    (stops : List (N × Expr N))
  /-- An array, checked for the type of its items and its length. -/
  | arrayOf (key : Path) (item : Ty) (length : Option Nat) (input : Expr N)
  /-- An operator applied to arguments. -/
  | apply (key : Path) (type : Ty) (op : Operator) (args : List (Expr N))

namespace Expr

variable {N : Type}

/-- The place of a node in the expression as written. -/
def key : Expr N → Path
  | .literal key _ _ | .var key _ _ | .letIn key _ _ | .coalesce key _ _
  | .conditional key _ _ _ | .matching key _ _ _ _ | .curve key _ _ _ _ | .arrayOf key _ _ _
  | .apply key _ _ _ => key

/-- The type of a node. -/
def type : Expr N → Ty
  | .literal _ type _ | .var _ type _ | .coalesce _ type _ | .conditional _ type _ _
  | .matching _ type _ _ _ | .curve _ type _ _ _ | .apply _ type _ _ => type
  | .letIn _ _ result => result.type
  | .arrayOf _ item length _ => .array item length

/-! ## Nodes -/

/-- The nodes right below a node, in the order of the expression as written, but that a match lists
its input first. -/
def children : Expr N → List (Expr N)
  | .literal .. | .var .. => []
  | .letIn _ bindings result => bindings.map (·.2) ++ [result]
  | .coalesce _ _ args | .apply _ _ _ args => args
  | .conditional _ _ branches otherwise => branches.flatMap (fun b => [b.1, b.2]) ++ [otherwise]
  | .matching _ _ input branches otherwise => input :: branches.map (·.2) ++ [otherwise]
  | .curve _ _ _ input stops => input :: stops.map (·.2)
  | .arrayOf _ _ _ input => [input]

mutual

/-- A node and all nodes below it, each before those below it. -/
def nodes : Expr N → List (Expr N)
  | .literal key type value => [.literal key type value]
  | .var key type name => [.var key type name]
  | .letIn key bindings result =>
    .letIn key bindings result :: (bindingNodes bindings ++ nodes result)
  | .coalesce key type args => .coalesce key type args :: argNodes args
  | .conditional key type branches otherwise =>
    .conditional key type branches otherwise :: (branchNodes branches ++ nodes otherwise)
  | .matching key type input branches otherwise =>
    .matching key type input branches otherwise ::
      (nodes input ++ labelledNodes branches ++ nodes otherwise)
  | .curve key type interpolation input stops =>
    .curve key type interpolation input stops :: (nodes input ++ stopNodes stops)
  | .arrayOf key item length input => .arrayOf key item length input :: nodes input
  | .apply key type op args => .apply key type op args :: argNodes args

def argNodes : List (Expr N) → List (Expr N)
  | [] => []
  | arg :: rest => nodes arg ++ argNodes rest

def bindingNodes : List (String × Expr N) → List (Expr N)
  | [] => []
  | (_, value) :: rest => nodes value ++ bindingNodes rest

def branchNodes : List (Expr N × Expr N) → List (Expr N)
  | [] => []
  | (test, output) :: rest => nodes test ++ nodes output ++ branchNodes rest

def labelledNodes : List (List (Label N) × Expr N) → List (Expr N)
  | [] => []
  | (_, output) :: rest => nodes output ++ labelledNodes rest

def stopNodes : List (N × Expr N) → List (Expr N)
  | [] => []
  | (_, output) :: rest => nodes output ++ stopNodes rest

end

/-! ## Constancy -/

/-- What a node reads besides the values of its children. -/
def dependency : Expr N → Dependency
  | .apply _ _ op _ => op.dependency
  | _ => .none

/-- Whether some node of the tree reads the given thing. -/
def dependsOn (e : Expr N) (d : Dependency) : Bool := e.nodes.any (·.dependency == d)

/-- Whether no part of the tree reads the feature. -/
def isFeatureConstant (e : Expr N) : Bool := !e.dependsOn .feature

/-- Whether no part of the tree reads the zoom. -/
def isZoomConstant (e : Expr N) : Bool := !e.dependsOn .zoom

/-! ## Equality -/

mutual

/-- Equality of trees: of kinds of nodes, keys, types and contents. -/
def same [Scalar N] : Expr N → Expr N → Bool
  | .literal k t v, .literal k' t' v' => k == k' && t == t' && v == v'
  | .var k t n, .var k' t' n' => k == k' && t == t' && n == n'
  | .letIn k bs r, .letIn k' bs' r' => k == k' && sameBindings bs bs' && same r r'
  | .coalesce k t as, .coalesce k' t' as' => k == k' && t == t' && sameArgs as as'
  | .conditional k t bs o, .conditional k' t' bs' o' =>
    k == k' && t == t' && sameBranches bs bs' && same o o'
  | .matching k t i bs o, .matching k' t' i' bs' o' =>
    k == k' && t == t' && same i i' && sameLabelled bs bs' && same o o'
  | .curve k t n i ss, .curve k' t' n' i' ss' =>
    k == k' && t == t' && n == n' && same i i' && sameStops ss ss'
  | .arrayOf k t n i, .arrayOf k' t' n' i' => k == k' && t == t' && n == n' && same i i'
  | .apply k t op as, .apply k' t' op' as' => k == k' && t == t' && op == op' && sameArgs as as'
  | _, _ => false

def sameArgs [Scalar N] : List (Expr N) → List (Expr N) → Bool
  | [], [] => true
  | a :: as, b :: bs => same a b && sameArgs as bs
  | _, _ => false

def sameBindings [Scalar N] : List (String × Expr N) → List (String × Expr N) → Bool
  | [], [] => true
  | (n, a) :: as, (n', b) :: bs => n == n' && same a b && sameBindings as bs
  | _, _ => false

def sameBranches [Scalar N] : List (Expr N × Expr N) → List (Expr N × Expr N) → Bool
  | [], [] => true
  | (t, a) :: as, (t', b) :: bs => same t t' && same a b && sameBranches as bs
  | _, _ => false

def sameLabelled [Scalar N] :
    List (List (Label N) × Expr N) → List (List (Label N) × Expr N) → Bool
  | [], [] => true
  | (l, a) :: as, (l', b) :: bs => l == l' && same a b && sameLabelled as bs
  | _, _ => false

def sameStops [Scalar N] : List (N × Expr N) → List (N × Expr N) → Bool
  | [], [] => true
  | (x, a) :: as, (x', b) :: bs => x == x' && same a b && sameStops as bs
  | _, _ => false

end

instance [Scalar N] : BEq (Expr N) := ⟨same⟩

end Expr

end MapStyle
