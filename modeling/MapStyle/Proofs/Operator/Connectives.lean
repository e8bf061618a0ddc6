import MapStyle.Operator.Apply
import MapStyle.Proofs.Evaluation.Outcome
import MapStyle.Proofs.Value.Membership

/-!
# The operators that stop early

`&&` stops at the first false operand and `||` at the first true one. `Operator.shortCircuit stop` is the
one of them that stops at `stop`, and `Operator.stopAt stop` is its answer (`run_shortCircuit`), so that
what holds of both is said once.
-/

namespace MapStyle.Operator

variable {N : Type}

/-- The operator that stops at the first operand that is `stop`. -/
def shortCircuit (stop : Bool) : Operator := bif stop then .or else .and

theorem exists_shortCircuit {op : Operator} (hlazy : op.isLazy = true) :
    ∃ stop, op = shortCircuit stop := by
  cases op with
  | and => exact ⟨false, rfl⟩
  | or => exact ⟨true, rfl⟩
  | _ => cases hlazy

theorem signature_shortCircuit (stop : Bool) :
    (shortCircuit stop).signature = ⟨.boolean, [.variadic .boolean]⟩ := by
  cases stop <;> rfl

section

variable {m : Type → Type} [Monad m] [MonadExceptOf (Failure N) m]

/-- `stop` if some operand is `stop`, and else the opposite; nothing after the operand that decides is
evaluated. -/
def stopAt (stop : Bool) : List (m (Value N)) → m Bool
  | [] => pure !stop
  | operand :: rest => do
    if (← report (Operand.boolean (← operand))) == stop then pure stop else stopAt stop rest

theorem stopAt_eq (stop : Bool) (operands : List (m (Value N))) :
    stopAt stop operands = bif stop then someTrue operands else allTrue operands := by
  induction operands with
  | nil => cases stop <;> rfl
  | cons operand rest ih =>
    rw [stopAt, ih]
    cases stop <;>
      exact congrArg _ (funext fun v => congrArg _ (funext fun b => by cases b <;> rfl))

theorem run_shortCircuit [Scalar N] (stop : Bool) (env : Env N) (operands : List (m (Value N))) :
    (shortCircuit stop).run env operands = do return .boolean (← stopAt stop operands) := by
  rw [stopAt_eq]
  cases stop <;> rfl

end

/-- Operands that are booleans give an answer, unless one of them fails. -/
theorem stopAt_yields {env : Env N} {operands : List (Eval N (Value N))} (stop : Bool)
    (h : ∀ o ∈ operands, Yields (fun v => v.Belongs .boolean) (o env)) :
    Yields (fun _ => True) (stopAt stop operands env) := by
  induction operands with
  | nil => trivial
  | cons operand rest ih =>
    rw [List.forall_mem_cons] at h
    refine Yields.bind_eval h.1 fun v hv => ?_
    obtain ⟨b, rfl⟩ := hv
    show Yields _ ((if b == stop then pure stop else stopAt stop rest : Eval N Bool) env)
    split
    · trivial
    · exact ih h.2

end MapStyle.Operator
