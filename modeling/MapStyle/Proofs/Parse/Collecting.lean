import MapStyle.Proofs.Parse.Errors

/-!
# Errors in one list

All errors of one parse go to one list, which every part of the parser adds to. `Checked.recorded` is
a checked result as a step on such a list, with the errors found before at its front. The combinators
of results are then what they are for steps on a list: a bind goes on with the list that its first part
leaves, and stops where that fails; parts that are zipped or swept are run one after the other, on the
list that those before have left, whether or not they failed.

* `recorded_pure`, `recorded_fail`, `recorded_bind`, `recorded_map`, `recorded_zip` and
  `recorded_sweep_cons` say so.
* `Expr.parser_accounts`: the errors that parsing adds to the list account for a missing expression.
-/

namespace MapStyle

variable {N : Type}

namespace Checked

variable {α β σ : Type}

/-- A step on a list of errors, which may fail. -/
abbrev Recorder (N : Type) := OptionT (StateM (List (ParseError N)))

/-- The step that adds the errors of a result to those collected so far. -/
def recorded (a : Checked N α) : Recorder N α :=
  OptionT.mk fun collected => (a.result, collected ++ a.errors)

theorem recorded_run (a : Checked N α) (collected : List (ParseError N)) :
    a.recorded.run.run collected = (a.result, collected ++ a.errors) := rfl

theorem recorder_ext {x y : Recorder N α}
    (h : ∀ collected, x.run.run collected = y.run.run collected) : x = y := funext h

theorem recorded_pure (a : α) : (pure a : Checked N α).recorded = pure a :=
  recorder_ext fun collected => congrArg (some a, ·) (List.append_nil collected)

/-- A failure adds its error to the end of the list. -/
theorem recorded_fail (key : Path) (problem : Problem N) :
    (fail key problem : Checked N α).recorded =
      OptionT.mk do
        modify (· ++ [⟨key, problem⟩])
        return none := rfl

theorem recorded_bind (a : Checked N α) (f : α → Checked N β) :
    (a >>= f).recorded = a.recorded >>= fun x => (f x).recorded := by
  refine recorder_ext fun collected => ?_
  obtain ⟨result, errors⟩ := a
  cases result with
  | none => rfl
  | some x => exact congrArg ((f x).result, ·) (List.append_assoc ..).symm

theorem recorded_map (f : α → β) (a : Checked N α) : (f <$> a).recorded = f <$> a.recorded := by
  show (a >>= pure ∘ f).recorded = _
  rw [recorded_bind]
  refine recorder_ext fun collected => ?_
  obtain ⟨result, errors⟩ := a
  cases result with
  | none => rfl
  | some x => exact congrArg (some (f x), ·) (List.append_nil _)

/-- Both parts are run, the second also where the first fails. -/
theorem recorded_zip (a : Checked N α) (b : Checked N β) :
    (a.zip b).recorded =
      OptionT.mk do
        let x ← a.recorded.run
        let y ← b.recorded.run
        return x.bind fun x => y.map fun y => (x, y) := by
  refine recorder_ext fun collected => ?_
  obtain ⟨x, errors⟩ := a
  obtain ⟨y, errors'⟩ := b
  cases x <;> cases y <;> exact congrArg (_, ·) (List.append_assoc ..).symm

/-- A sweep takes its first step, and goes on from the state and the list that this leaves. -/
theorem recorded_sweep_cons (step : σ → α → σ × Checked N β) (s : σ) (a : α) (rest : List α) :
    (sweep step s (a :: rest)).2.recorded =
      OptionT.mk do
        let x ← (step s a).2.recorded.run
        let xs ← (sweep step (step s a).1 rest).2.recorded.run
        return x.bind fun x => xs.map fun xs => x :: xs := by
  rw [sweep_cons, recorded_map, recorded_zip]
  refine recorder_ext fun collected => ?_
  generalize (step s a).2 = here, (sweep step (step s a).1 rest).2 = others
  obtain ⟨x, errors⟩ := here
  obtain ⟨xs, errors'⟩ := others
  cases x <;> cases xs <;> rfl

end Checked

namespace Expr

open Checked (recorded_run)

variable [Scalar N]

/-- In any context, and whatever errors have been collected before, parsing leaves those in front and
adds errors of its own exactly when it has no expression to give. So a whole expression fails to be
parsed exactly when the parser gives no expression. The errors are then what it adds to none, of which
there is one at least, and none of them is that nothing was found wrong. -/
theorem parser_accounts (raw : Json N) (c : Context) (collected : List (ParseError N))
    (expected : Option Ty) :
    (∃ result added, (parser raw c).recorded.run.run collected = (result, collected ++ added) ∧
      (result.isSome = true ↔ added = [])) ∧
    match parse raw expected with
    | .ok e => (parser raw (.root expected)).recorded.run.run [] = (some e, [])
    | .error errors => (parser raw (.root expected)).recorded.run.run [] = (none, errors) ∧
      errors ≠ [] ∧ ∀ err ∈ errors, err.problem ≠ .unparsed := by
  refine ⟨⟨_, _, recorded_run .., (parser_reports raw c).accounts⟩, ?_⟩
  have hreports := parser_reports raw (.root expected)
  rw [recorded_run, List.nil_append]
  split
  · next e h =>
    have hresult := parser_result_iff.mpr (parse_eq_ok_iff.mp h)
    rw [hresult, hreports.accounts.mp (by rw [hresult]; rfl)]
  · next errors h =>
    obtain ⟨hresult, rfl⟩ := parse_eq_error_iff.mp h
    refine ⟨by rw [hresult], ?_, fun err herr => (hreports.kind err herr).2⟩
    rw [ne_eq, ← hreports.accounts, hresult]
    exact Bool.false_ne_true

end Expr

end MapStyle
