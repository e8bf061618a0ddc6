import Mathlib.Data.List.Forall2
import MapStyle.Proofs.Expr.Mapping
import MapStyle.Proofs.Value.Canonical

/-!
# Equality of trees up to the writing of numbers

`Expr.Alike` is equality of trees in which numbers count by their numeric value and interpolations by
their parameters. `Expr.canonical e` is the tree `e` with all its numbers in canonical form: it has
the types of `e` and is written in the same way.
-/

namespace MapStyle

variable {N : Type} [Scalar N]

/-! ## Labels and interpolations -/

/-- The label with its number in canonical form. -/
def Label.canonical : Label N → Label N
  | .number x => .number (Scalar.canonical x)
  | .string s => .string s

/-- The interpolation with its parameters in canonical form. -/
def Interpolation.canonical : Interpolation N → Interpolation N
  | .step => .step
  | .linear => .linear
  | .exponential base => .exponential (Scalar.canonical base)
  | .cubicBezier b => .cubicBezier ⟨Scalar.canonical b.x1, Scalar.canonical b.y1,
      Scalar.canonical b.x2, Scalar.canonical b.y2⟩

/-- The numbers that an interpolation is written with. -/
def Interpolation.parameters : Interpolation N → List N
  | .step | .linear => []
  | .exponential base => [base]
  | .cubicBezier easing => easing.controls

/-- Whether interpolations are of one kind and have equal parameters. -/
def Interpolation.Alike : Interpolation N → Interpolation N → Prop
  | .step, .step => True
  | .linear, .linear => True
  | .exponential a, .exponential b => (a == b) = true
  | .cubicBezier a, .cubicBezier b => (a.controls == b.controls) = true
  | _, _ => False

theorem Label.type_canonical (l : Label N) : l.canonical.type = l.type := by
  cases l <;> rfl

theorem Interpolation.isStep_canonical (kind : Interpolation N) :
    kind.canonical.isStep = kind.isStep := by
  cases kind <;> rfl

theorem Label.toJson_canonical [LawfulEq N] (l : Label N) : l.canonical.toJson = l.toJson := by
  cases l with
  | number x => exact Json.ofNumber_canonical x
  | string s => rfl

theorem Interpolation.toJson_canonical [LawfulEq N] (kind : Interpolation N) :
    kind.canonical.toJson = kind.toJson := by
  cases kind with
  | step | linear => rfl
  | exponential base =>
    show Json.call "exponential" [Json.ofNumber (Scalar.canonical base)] = _
    rw [Json.ofNumber_canonical]
    rfl
  | cubicBezier b =>
    show Json.call "cubic-bezier" [Json.ofNumber (Scalar.canonical b.x1),
      Json.ofNumber (Scalar.canonical b.y1), Json.ofNumber (Scalar.canonical b.x2),
      Json.ofNumber (Scalar.canonical b.y2)] = _
    simp only [Json.ofNumber_canonical]
    rfl

namespace Expr

/-! ## Trees alike -/

/-- Whether two trees have the same nodes at the same keys, with the same types, names, operators and
lengths, and equal values, labels, inputs of stops and parameters. -/
inductive Alike : Expr N → Expr N → Prop
  | literal {key : Path} {type : Ty} {v v' : Value N} (hvalue : (v == v') = true) :
      Alike (.literal key type v) (.literal key type v')
  | var {key : Path} {type : Ty} {name : String} : Alike (.var key type name) (.var key type name)
  | letIn {key : Path} {bindings bindings' : List (String × Expr N)} {result result' : Expr N}
      (hnames : bindings.map (·.1) = bindings'.map (·.1))
      (hvalues : List.Forall₂ Alike (bindings.map (·.2)) (bindings'.map (·.2)))
      (hresult : Alike result result') :
      Alike (.letIn key bindings result) (.letIn key bindings' result')
  | coalesce {key : Path} {type : Ty} {args args' : List (Expr N)}
      (hargs : List.Forall₂ Alike args args') :
      Alike (.coalesce key type args) (.coalesce key type args')
  | conditional {key : Path} {type : Ty} {branches branches' : List (Expr N × Expr N)}
      {otherwise otherwise' : Expr N}
      (htests : List.Forall₂ Alike (branches.map (·.1)) (branches'.map (·.1)))
      (houtputs : List.Forall₂ Alike (branches.map (·.2)) (branches'.map (·.2)))
      (hotherwise : Alike otherwise otherwise') :
      Alike (.conditional key type branches otherwise) (.conditional key type branches' otherwise')
  | matching {key : Path} {type : Ty} {input input' : Expr N}
      {branches branches' : List (List (Label N) × Expr N)} {otherwise otherwise' : Expr N}
      (hinput : Alike input input')
      (hlabels : (branches.map (·.1) == branches'.map (·.1)) = true)
      (houtputs : List.Forall₂ Alike (branches.map (·.2)) (branches'.map (·.2)))
      (hotherwise : Alike otherwise otherwise') :
      Alike (.matching key type input branches otherwise)
        (.matching key type input' branches' otherwise')
  | curve {key : Path} {type : Ty} {kind kind' : Interpolation N} {input input' : Expr N}
      {stops stops' : List (N × Expr N)} (hkind : kind.Alike kind') (hinput : Alike input input')
      (hinputs : (stops.map (·.1) == stops'.map (·.1)) = true)
      (houtputs : List.Forall₂ Alike (stops.map (·.2)) (stops'.map (·.2))) :
      Alike (.curve key type kind input stops) (.curve key type kind' input' stops')
  | arrayOf {key : Path} {item : Ty} {length : Option Nat} {input input' : Expr N}
      (hinput : Alike input input') :
      Alike (.arrayOf key item length input) (.arrayOf key item length input')
  | apply {key : Path} {type : Ty} {op : Operator} {args args' : List (Expr N)}
      (hargs : List.Forall₂ Alike args args') :
      Alike (.apply key type op args) (.apply key type op args')

/-! ## Canonical trees -/

/-- The canonical forms of the parts of nodes. -/
def canonicalParts : PartMap N where
  value := Value.canonical
  labels := List.map Label.canonical
  interpolation := Interpolation.canonical
  input := Scalar.canonical

/-- The tree with all its numbers in canonical form. -/
def canonical (e : Expr N) : Expr N := e.mapParts canonicalParts

theorem literalToJson_canonical [LawfulEq N] (v : Value N) :
    literalToJson v.canonical = literalToJson v := by
  have hjson := v.toJson_canonical
  cases v with
  | array items => exact congrArg (fun raw => Json.call "literal" [raw]) hjson
  | object fields => exact congrArg (fun raw => Json.call "literal" [raw]) hjson
  | _ => exact hjson

theorem labelsToJson_canonical [LawfulEq N] (labels : List (Label N)) :
    labelsToJson (labels.map Label.canonical) = labelsToJson labels := by
  have hmap : (labels.map Label.canonical).map Label.toJson = labels.map Label.toJson := by
    rw [List.map_map]
    exact List.map_congr_left fun l _ => l.toJson_canonical
  match labels with
  | [] => rfl
  | [label] => exact label.toJson_canonical
  | _ :: _ :: _ => exact congrArg Json.array hmap

theorem keepsJson_canonicalParts [LawfulEq N] : (canonicalParts : PartMap N).KeepsJson where
  value := literalToJson_canonical
  labels := labelsToJson_canonical
  interpolation := Interpolation.toJson_canonical
  input := Json.ofNumber_canonical

/-- The canonical form of a tree is written in the same way. -/
theorem toJson_canonical [LawfulEq N] (e : Expr N) : e.canonical.toJson = e.toJson :=
  toJson_mapParts keepsJson_canonicalParts e

theorem type_canonical (e : Expr N) : e.canonical.type = e.type := e.type_mapParts canonicalParts

end Expr

end MapStyle
