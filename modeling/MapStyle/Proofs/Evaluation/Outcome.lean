import Mathlib.Data.List.Forall2
import MapStyle.Feature

/-!
# Outcomes without ill-typed failures

`Failure.IsData` tells the failures that the data of a feature can cause from those that stand for a
tree whose types do not fit. `Yields P x` says that `x` is a result with the property `P` or a
failure of the first sort; it passes through `bind`, so that an evaluation is followed step by step.
-/

namespace MapStyle

variable {N α β : Type}

/-- Whether a failure comes from the data: something that is absent, an assertion or conversion that
does not hold, an index or channel out of range, a needle that is not primitive, arrays of different
lengths, or a failure that was asked for. The others stand for an ill-typed tree; an assertion with a
name is that of the input of a curve. -/
def Failure.IsData : Failure N → Prop
  | .zoomUnavailable | .keyNotFound .. | .typeAssertion none _ _ | .indexOutOfBounds ..
  | .indexNotWhole _ | .channelOutOfRange _ | .alphaOutOfRange _ | .notAColor _ | .notANumber _
  | .notPrimitive _ | .needleNotPrimitive _ | .blendLengths .. | .raised _ => True
  | .typeAssertion (some _) _ _ | .unknownVariable _ | .operandKind .. | .incomparable ..
  | .noLength _ | .nullObject .. | .notAnObject .. | .noOperand | .malformedStops
  | .notBlendable .. => False

/-- A result of two steps comes from a result of the first. -/
theorem Outcome.bind_eq_ok {x : Outcome N α} {f : α → Outcome N β} {b : β} (h : x >>= f = .ok b) :
    ∃ a, x = .ok a ∧ f a = .ok b := by
  cases x with
  | ok a => exact ⟨a, rfl, h⟩
  | error failure => cases h

/-- Whether an outcome is a result with a property, or a failure of the data. -/
def Yields (P : α → Prop) : Outcome N α → Prop
  | .ok a => P a
  | .error failure => failure.IsData

namespace Yields

variable {P : α → Prop} {Q : β → Prop}

theorem mono {P' : α → Prop} {x : Outcome N α} (hx : Yields P x) (h : ∀ a, P a → P' a) :
    Yields P' x := by
  cases x with
  | ok a => exact h a hx
  | error failure => exact hx

theorem bind {x : Outcome N α} {f : α → Outcome N β} (hx : Yields P x)
    (hf : ∀ a, P a → Yields Q (f a)) : Yields Q (x >>= f) := by
  cases x with
  | ok a => exact hf a hx
  | error failure => exact hx

/-- The same for evaluations, in one environment. -/
theorem bind_eval {env : Env N} {x : Eval N α} {f : α → Eval N β} (hx : Yields P (x env))
    (hf : ∀ a, P a → Yields Q (f a env)) : Yields Q ((x >>= f) env) :=
  bind hx hf

theorem of_ok {x : Outcome N α} {a : α} (hx : Yields P x) (h : x = .ok a) : P a := by
  subst h
  exact hx

theorem of_error {x : Outcome N α} {failure : Failure N} (hx : Yields P x)
    (h : x = .error failure) : failure.IsData := by
  subst h
  exact hx

end Yields

end MapStyle
