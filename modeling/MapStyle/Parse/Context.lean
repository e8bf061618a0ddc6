import MapStyle.Parse.Checked

/-!
# Where an expression stands

A `Context` is what parsing an expression knows from outside: its key, the type asked for, and the
variables in scope with their types. An `Argument` is a part of an expression as written, with the
way to parse it once its context is known.
-/

namespace MapStyle

/-- The surroundings of an expression. Variables in scope are listed innermost first. -/
structure Context where
  key : Path
  expected : Option Ty
  scope : List (String × Ty)
  deriving DecidableEq, Repr

namespace Context

variable {N α : Type}

/-- The surroundings of a whole expression. -/
def root (expected : Option Ty) : Context := ⟨[], expected, []⟩

/-- The surroundings of the argument at an index, where more variables are in scope; of one name the
last counts. -/
def childWith (c : Context) (i : Nat) (expected : Option Ty) (bindings : List (String × Ty)) :
    Context :=
  ⟨c.key ++ [i], expected, bindings.reverse ++ c.scope⟩

/-- The surroundings of the argument at an index. -/
def child (c : Context) (i : Nat) (expected : Option Ty) : Context := c.childWith i expected []

/-- The type of the innermost variable of a name. -/
def lookup (c : Context) (name : String) : Option Ty := c.scope.lookup name

/-- The type that the outputs of a choice start from: the one asked for, unless that is `value`,
which asks for nothing. -/
def outputHint (c : Context) : Option Ty := c.expected.filter (· != .value)

/-- No result, for a reason at this place. -/
def fail (c : Context) (problem : Problem N) : Checked N α := .fail c.key problem

/-- No result, for a reason at an argument of this place. -/
def failAt (c : Context) (i : Nat) (problem : Problem N) : Checked N α :=
  .fail (c.key ++ [i]) problem

/-- Passes an expression on if it has a subtype of the type asked for. -/
def expect (c : Context) (e : Expr N) : Checked N (Expr N) :=
  match c.expected with
  | some expected => if e.type ≤ expected then pure e else c.fail (.typeMismatch expected e.type)
  | none => pure e

end Context

/-- A way to parse an expression in a context. -/
abbrev Parser (N : Type) := Context → Checked N (Expr N)

/-- A part of an expression as written, and how it is parsed. -/
structure Argument (N : Type) where
  raw : Json N
  parse : Parser N

/-- The pairs of items from the front, each with the index of its first item, counted from `i`. -/
def pairsFrom {α : Type} (i : Nat) : List α → List (Nat × α × α)
  | a :: b :: rest => (i, a, b) :: pairsFrom (i + 2) rest
  | _ => []

/-- The type that outputs share so far: the one they start from, else that of the first output that
can have a value. -/
def unifyOutput {N : Type} (shared : Option Ty) (output : Option (Expr N)) : Option Ty :=
  match shared, output with
  | none, some e => if e.type = .error then none else some e.type
  | shared, _ => shared

end MapStyle
