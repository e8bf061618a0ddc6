import Mathlib.Data.List.Nodup
import MapStyle.Property.StyleFunction

/-!
# Warnings of style functions

A function remembers what it has warned of, and nothing else, from one call to the next.
`StyleFunction.Remembers` says which messages these are: those of the earlier calls that failed. A
call keeps it, so each answer of a run is told by the calls before it. `answers_warn_once` says that
the values do not depend on those calls, and that each message is warned of once, when it first comes
up.
-/

namespace MapStyle.StyleFunction

/-- A call of a style function: the zoom and the properties of a feature. -/
abbrev Call (N : Type) := Option N × Properties N

variable {N : Type} [Scalar N] {f : StyleFunction N} {warned : List String} {message : String}
  {earlier : List (Call N)} {call : Call N}

/-- The message of a call that fails. -/
def failure? (f : StyleFunction N) (call : Call N) : Option String :=
  match f.outcome call.1 call.2 with
  | .ok _ => none
  | .error failure => some failure.message

/-! ## One call -/

/-- What a call warns of where `warned` has been warned of before, at most one message. -/
def newWarnings (f : StyleFunction N) (warned : List String) (call : Call N) : List String :=
  (f.failure? call).toList.filter (· ∉ warned)

theorem mem_newWarnings :
    message ∈ f.newWarnings warned call ↔ f.failure? call = some message ∧ message ∉ warned := by
  rw [newWarnings, List.mem_filter, Option.mem_toList, decide_eq_true_iff]

theorem nodup_newWarnings : (f.newWarnings warned call).Nodup := by
  refine List.Nodup.filter _ ?_
  cases f.failure? call with
  | none => exact List.nodup_nil
  | some message => exact List.nodup_singleton message

/-- What has been warned of before decides the warnings of a call, not its value. -/
theorem evaluate_eq (f : StyleFunction N) (warned : List String) (call : Call N) :
    f.evaluate warned call.1 call.2 =
      (⟨(f.evaluate [] call.1 call.2).1.value, f.newWarnings warned call⟩,
        f.newWarnings warned call ++ warned) := by
  unfold evaluate newWarnings failure?
  cases f.outcome call.1 call.2 with
  | ok v => cases v <;> rfl
  | error failure =>
    by_cases hmem : failure.message ∈ warned
    · simp [hmem]
    · simp [hmem]

theorem answersFrom_cons (f : StyleFunction N) (warned : List String) (call : Call N)
    (rest : List (Call N)) :
    f.answersFrom warned (call :: rest) =
      ⟨(f.evaluate [] call.1 call.2).1.value, f.newWarnings warned call⟩ ::
        f.answersFrom (f.newWarnings warned call ++ warned) rest := by
  rw [answersFrom, evaluate_eq]

/-! ## Runs of calls -/

/-- What a function that has answered earlier calls has warned of: the messages of those that
failed. -/
def Remembers (f : StyleFunction N) (warned : List String) (earlier : List (Call N)) : Prop :=
  ∀ message, message ∈ warned ↔ message ∈ earlier.filterMap f.failure?

/-- The answer to a call after earlier ones. Its value is the one of a fresh function. -/
def replyAfter (f : StyleFunction N) (earlier : List (Call N)) (call : Call N) : StyleReply N :=
  ⟨(f.evaluate [] call.1 call.2).1.value, f.newWarnings (earlier.filterMap f.failure?) call⟩

theorem Remembers.newWarnings_eq (h : f.Remembers warned earlier) (call : Call N) :
    f.newWarnings warned call = f.newWarnings (earlier.filterMap f.failure?) call := by
  unfold newWarnings
  refine List.filter_congr fun message _ => ?_
  rw [decide_eq_decide, h message]

theorem Remembers.concat (h : f.Remembers warned earlier) (call : Call N) :
    f.Remembers (f.newWarnings warned call ++ warned) (earlier ++ [call]) := by
  intro message
  have hcall : message ∈ [call].filterMap f.failure? ↔ f.failure? call = some message := by
    simp only [List.mem_filterMap, List.mem_singleton, exists_eq_left]
  rw [List.mem_append, mem_newWarnings, List.filterMap_append, List.mem_append, hcall, h message]
  tauto

/-- Each answer of a run is told by the calls before it. -/
theorem Remembers.answersFrom_eq (h : f.Remembers warned earlier) (calls : List (Call N)) :
    f.answersFrom warned calls =
      calls.mapIdx fun i call => f.replyAfter (earlier ++ calls.take i) call := by
  induction calls generalizing warned earlier with
  | nil => rfl
  | cons call rest ih =>
    rw [answersFrom_cons, ih (h.concat call), h.newWarnings_eq call, List.mapIdx_cons,
      List.take_zero, List.append_nil]
    refine congrArg (_ :: ·) (congrArg (List.mapIdx · rest) ?_)
    funext i later
    rw [List.take_succ_cons, List.append_assoc, List.singleton_append]

/-- The messages that a run of calls warns of, where `warned` has been warned of before. -/
def logFrom (f : StyleFunction N) (warned : List String) (calls : List (Call N)) : List String :=
  (f.answersFrom warned calls).flatMap (·.warnings)

theorem logFrom_cons (f : StyleFunction N) (warned : List String) (call : Call N)
    (rest : List (Call N)) :
    f.logFrom warned (call :: rest) =
      f.newWarnings warned call ++ f.logFrom (f.newWarnings warned call ++ warned) rest := by
  rw [logFrom, answersFrom_cons, List.flatMap_cons]
  rfl

theorem mem_logFrom (calls : List (Call N)) :
    message ∈ f.logFrom warned calls ↔
      (∃ call ∈ calls, f.failure? call = some message) ∧ message ∉ warned := by
  induction calls generalizing warned with
  | nil => simp [logFrom, answersFrom]
  | cons call rest ih =>
    rw [logFrom_cons, List.mem_append, ih, List.mem_append, mem_newWarnings,
      List.exists_mem_cons_iff]
    tauto

theorem nodup_logFrom (f : StyleFunction N) (warned : List String) (calls : List (Call N)) :
    (f.logFrom warned calls).Nodup := by
  induction calls generalizing warned with
  | nil => exact List.nodup_nil
  | cons call rest ih =>
    rw [logFrom_cons, List.nodup_append']
    refine ⟨nodup_newWarnings, ih _, fun message hnew hlater => ?_⟩
    exact ((mem_logFrom rest).mp hlater).2 (List.mem_append_left _ hnew)

/-- The answers of a run have the values that a fresh function gives to its calls one by one, and a
call warns of its failure unless an earlier one failed with the same message. All in all a run warns
once of each message that one of its calls fails with. -/
theorem answers_warn_once (f : StyleFunction N) (calls : List (Call N)) :
    (f.answers calls = calls.mapIdx fun i call =>
      ⟨(f.evaluate [] call.1 call.2).1.value,
        (f.failure? call).toList.filter (· ∉ (calls.take i).filterMap f.failure?)⟩) ∧
    ((f.answers calls).flatMap (·.warnings)).Nodup ∧
    ∀ message, message ∈ (f.answers calls).flatMap (·.warnings) ↔
      ∃ call ∈ calls, f.failure? call = some message := by
  have hnil : f.Remembers [] [] := fun _ => Iff.rfl
  refine ⟨hnil.answersFrom_eq calls, nodup_logFrom f [] calls, fun message => ?_⟩
  exact (mem_logFrom calls).trans (and_iff_left List.not_mem_nil)

end MapStyle.StyleFunction
