import MapStyle.Parse.Error

/-!
# Results with errors

Parsing goes on after an error as far as it can, to find the others. A `Checked` result is what was
found, if it could be made out, and the errors met, in order. Parts that do not depend on each other
are combined by `zip`, `collect` and `sweep`, which keep the errors of all of them; a part that
needs an earlier one is combined by `bind`, which stops at a missing result.
-/

namespace MapStyle

/-- A result, if there is one, and the errors met on the way. -/
structure Checked (N : Type) (α : Type) where
  result : Option α
  errors : List (ParseError N)

namespace Checked

variable {N α β σ : Type}

/-- A result without errors. -/
protected def pure (a : α) : Checked N α := ⟨some a, []⟩

/-- No result, for one reason. -/
def fail (key : Path) (problem : Problem N) : Checked N α := ⟨none, [⟨key, problem⟩]⟩

/-- Goes on with the result, if there is one. -/
protected def bind (a : Checked N α) (f : α → Checked N β) : Checked N β :=
  match a.result with
  | some x => let b := f x; ⟨b.result, a.errors ++ b.errors⟩
  | none => ⟨none, a.errors⟩

instance : Monad (Checked N) where
  pure := Checked.pure
  bind := Checked.bind

/-- Both results, and the errors of both. -/
def zip (a : Checked N α) (b : Checked N β) : Checked N (α × β) where
  result := match a.result, b.result with
    | some x, some y => some (x, y)
    | _, _ => none
  errors := a.errors ++ b.errors

/-- All results, and the errors of all. -/
def collect : List (Checked N α) → Checked N (List α)
  | [] => .pure []
  | a :: rest => (fun (x, xs) => x :: xs) <$> a.zip (collect rest)

/-- Takes a step for each item, from the first on, with a state that each step may change. Yields
the last state, all results and the errors of all steps. -/
def sweep (step : σ → α → σ × Checked N β) (state : σ) : List α → σ × Checked N (List β)
  | [] => (state, .pure [])
  | a :: rest =>
    let (state, here) := step state a
    let (state, others) := sweep step state rest
    (state, (fun (x, xs) => x :: xs) <$> here.zip others)

end Checked

end MapStyle
