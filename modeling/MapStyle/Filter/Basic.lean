import MapStyle.Expr.Eval
import MapStyle.Filter.Legacy
import MapStyle.Parse.Expr

/-!
# Filters

A filter decides whether a feature is drawn. It is written as a legacy filter, or as an object with
an `expression`. What does not count as given is the filter that every feature passes. A feature for
which the expression fails, or has no boolean value, does not pass.
-/

namespace MapStyle

/-- A filter: the expression that decides, or none where every feature passes. -/
structure Filter (N : Type) where
  expression : Option (Expr N)

namespace Filter

variable {N : Type} [Scalar N]

/-- Whether a raw expression is a `coalesce`. -/
def isCoalesce : Json N → Bool
  | .array (.string "coalesce" :: _) => true
  | _ => false

/-- The raw expression of a filter. An array that is no `coalesce` falls back on false. -/
def source (raw : Json N) : Json N :=
  let e := match raw with
    | .array _ => lower raw
    | other => (other.field? "expression").getD .null
  if e.isArray && !isCoalesce e then orElse e false else e

/-- The filter that a raw value spells, or the errors in it. -/
def ofJson (raw : Json N) : Except (List (ParseError N)) (Filter N) :=
  if raw.isTruthy then
    match Expr.parse (source raw) (some .boolean) with
    | .ok e => .ok ⟨some e⟩
    | .error errors => .error errors
  else .ok ⟨none⟩

/-- Whether a feature passes. Filters do not know the zoom. -/
def passes (filter : Filter N) (feature : Feature N) : Bool :=
  match filter.expression with
  | none => true
  | some e => match e.eval ⟨none, feature, []⟩ with
    | .ok (.boolean b) => b
    | _ => false

end Filter

end MapStyle
