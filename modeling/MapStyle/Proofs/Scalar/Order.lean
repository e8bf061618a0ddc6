import Mathlib.Data.List.Chain
import MapStyle.Proofs.Scalar.Canonical

/-!
# The order of numbers

`LawfulOrder` says that the comparisons of numbers are those of a linear order, as far as the numbers
are numbers: what equals itself. `LawfulComparison` adds that nothing else is comparable. `Ascending`
lists are the stops of a curve.
-/

namespace MapStyle

/-- Comparisons that order the numbers that equal themselves. -/
class LawfulOrder (N : Type) [Scalar N] : Prop where
  beq_eq (x y : N) : (x == y) = (Scalar.atMost x y && Scalar.atMost y x)
  less_eq {x y : N} : (x == x) = true → (y == y) = true → Scalar.less x y = !Scalar.atMost y x
  self_of_less {x y : N} : Scalar.less x y = true → (x == x) = true ∧ (y == y) = true
  atMost_trans {x y z : N} : Scalar.atMost x y = true → Scalar.atMost y z = true →
    Scalar.atMost x z = true
  atMost_total {x y : N} : (x == x) = true → (y == y) = true →
    Scalar.atMost x y = true ∨ Scalar.atMost y x = true

namespace Scalar

variable {N : Type} [Scalar N] [LawfulOrder N] {x y z : N}

theorem atMost_of_less (h : less x y = true) : atMost x y = true := by
  obtain ⟨hx, hy⟩ := LawfulOrder.self_of_less h
  rw [LawfulOrder.less_eq hx hy] at h
  refine (LawfulOrder.atMost_total hx hy).resolve_right fun hyx => ?_
  rw [hyx] at h
  cases h

theorem not_less_of_atMost (h : atMost y x = true) : less x y = false := by
  cases hless : less x y with
  | false => rfl
  | true =>
    obtain ⟨hx, hy⟩ := LawfulOrder.self_of_less hless
    rw [LawfulOrder.less_eq hx hy, h] at hless
    cases hless

theorem not_atMost_of_less (h : less x y = true) : atMost y x = false := by
  cases hatMost : atMost y x with
  | false => rfl
  | true => rw [not_less_of_atMost hatMost] at h; cases h

theorem less_of_not_atMost (hx : (x == x) = true) (hy : (y == y) = true)
    (h : atMost y x = false) : less x y = true := by
  rw [LawfulOrder.less_eq hx hy, h]
  rfl

theorem atMost_of_not_less (hx : (x == x) = true) (hy : (y == y) = true)
    (h : less x y = false) : atMost y x = true := by
  cases hyx : atMost y x with
  | true => rfl
  | false => rw [less_of_not_atMost hx hy hyx] at h; cases h

theorem less_of_atMost_of_less (hxy : atMost x y = true) (hyz : less y z = true)
    (hx : (x == x) = true) : less x z = true := by
  refine less_of_not_atMost hx (LawfulOrder.self_of_less hyz).2 ?_
  cases hzx : atMost z x with
  | false => rfl
  | true => rw [← not_atMost_of_less hyz, LawfulOrder.atMost_trans hzx hxy]

theorem less_of_less_of_atMost (hxy : less x y = true) (hyz : atMost y z = true)
    (hz : (z == z) = true) : less x z = true := by
  refine less_of_not_atMost (LawfulOrder.self_of_less hxy).1 hz ?_
  cases hzx : atMost z x with
  | false => rfl
  | true => rw [← not_atMost_of_less hxy, LawfulOrder.atMost_trans hyz hzx]

theorem less_trans (hxy : less x y = true) (hyz : less y z = true) : less x z = true :=
  less_of_less_of_atMost hxy (atMost_of_less hyz) (LawfulOrder.self_of_less hyz).2

/-- A number that is below or at another is the other or strictly below. -/
theorem beq_or_less_of_atMost (hx : (x == x) = true) (hy : (y == y) = true)
    (h : atMost x y = true) : (x == y) = true ∨ less x y = true := by
  cases hyx : atMost y x with
  | true => exact .inl (by rw [LawfulOrder.beq_eq, h, hyx]; rfl)
  | false => exact .inr (less_of_not_atMost hx hy hyx)

theorem beq_comm (x y : N) : (x == y) = (y == x) := by
  rw [LawfulOrder.beq_eq, LawfulOrder.beq_eq, Bool.and_comm]

theorem beq_of_beq_left (hy : (x == y) = true) (hz : (x == z) = true) : (y == z) = true := by
  rw [LawfulOrder.beq_eq, Bool.and_eq_true] at *
  exact ⟨LawfulOrder.atMost_trans hy.2 hz.1, LawfulOrder.atMost_trans hz.2 hy.1⟩

/-- What equals another number is a number. -/
theorem self_of_beq (h : (x == y) = true) : (x == x) = true := by
  rw [beq_comm] at h
  exact beq_of_beq_left h h

/-- What is strictly below a number is another one. -/
theorem beq_eq_false_of_less (h : less x y = true) : (x == y) = false := by
  rw [LawfulOrder.beq_eq, not_atMost_of_less h, Bool.and_false]

theorem not_beq_of_less (hy : (x == y) = true) (hless : less x z = true) : (y == z) = false := by
  have hself := beq_of_beq_left hy hy
  rw [LawfulOrder.beq_eq, Bool.and_eq_true] at hy
  rw [LawfulOrder.beq_eq, not_atMost_of_less (less_of_atMost_of_less hy.2 hless hself),
    Bool.and_false]

end Scalar

/-- A lawful order in which only the numbers that equal themselves are comparable. -/
class LawfulComparison (N : Type) [Scalar N] : Prop extends LawfulOrder N where
  self_of_atMost {x y : N} : Scalar.atMost x y = true → (x == x) = true ∧ (y == y) = true

theorem Scalar.atMost_iff_less_or_beq {N : Type} [Scalar N] [LawfulComparison N] {x y : N} :
    atMost x y = true ↔ less x y = true ∨ (x == y) = true := by
  constructor
  · intro h
    obtain ⟨hx, hy⟩ := LawfulComparison.self_of_atMost h
    exact (beq_or_less_of_atMost hx hy h).symm
  · rintro (h | h)
    · exact atMost_of_less h
    · rw [LawfulOrder.beq_eq, Bool.and_eq_true] at h
      exact h.1

/-- Whether each number is strictly below all that follow. -/
def Ascending {N : Type} [Scalar N] (xs : List N) : Prop :=
  xs.Pairwise fun x y => Scalar.less x y = true

/-- It is enough that none is above or at the next. -/
theorem ascending_of_isChain {N : Type} [Scalar N] [LawfulOrder N] {xs : List N}
    (hself : ∀ x ∈ xs, (x == x) = true) (h : xs.IsChain fun x y => Scalar.atMost y x = false) :
    Ascending xs := by
  have hless : xs.IsChain fun x y => Scalar.less x y = true :=
    h.imp_of_mem_imp fun x y hx hy hxy => Scalar.less_of_not_atMost (hself x hx) (hself y hy) hxy
  have htrans : Trans (fun x y : N => Scalar.less x y = true) (fun x y => Scalar.less x y = true)
      (fun x y => Scalar.less x y = true) := ⟨Scalar.less_trans⟩
  exact List.isChain_iff_pairwise.mp hless

end MapStyle
