import MapStyle.Evaluation.Choice

/-!
# Answers

What an outcome answers with is its value, if it has one that is not null. So failures and null are
alike, and a `coalesce` answers with the first answer of its arguments (`answer_coalesce`).
-/

namespace MapStyle

variable {N : Type}

/-- The value of an outcome, where it has one and that is not null. -/
def answer : Outcome N (Value N) → Option (Value N)
  | .ok .null => none
  | .ok v => some v
  | .error _ => none

theorem answer_ok {v : Value N} (h : v.isNull = false) : answer (.ok v) = some v := by
  cases v with
  | null => cases h
  | _ => rfl

theorem answer_ok_of_isNull {v : Value N} (h : v.isNull = true) : answer (.ok v) = none := by
  cases v with
  | null => rfl
  | _ => cases h

theorem eq_ok_of_answer {o : Outcome N (Value N)} {v : Value N} (h : answer o = some v) :
    o = .ok v := by
  cases o with
  | error failure => cases h
  | ok w => cases w <;> first | exact congrArg Except.ok (Option.some.inj h) | cases h

/-- What needs the value of an outcome and answers nothing to null answers nothing where there is no
answer. -/
theorem answer_bind_of_none {o : Outcome N (Value N)} {f : Value N → Outcome N (Value N)}
    (h : answer o = none) (hnull : answer (f .null) = none) : answer (o.bind f) = none := by
  cases o with
  | error failure => rfl
  | ok v => cases v <;> first | exact hnull | cases h

theorem answer_coalesce : ∀ outcomes : List (Outcome N (Value N)),
    answer (coalesce outcomes) = outcomes.findSome? answer
  | [] => rfl
  | [last] => by
    rw [List.findSome?_cons]
    show answer last = _
    cases answer last <;> rfl
  | first :: second :: rest => by
    have ih := answer_coalesce (second :: rest)
    rw [List.findSome?_cons]
    cases first with
    | error failure => exact ih
    | ok v =>
      show answer (if v.isNull = true then coalesce (second :: rest) else .ok v) = _
      cases hnull : v.isNull with
      | true =>
        rw [if_pos rfl, answer_ok_of_isNull hnull]
        exact ih
      | false =>
        rw [if_neg Bool.false_ne_true, answer_ok hnull]

end MapStyle
