import Mathlib.Analysis.SpecialFunctions.Pow.Real
import MapStyle.Proofs.Scalar.Order

/-!
# Exact arithmetic

`ExactScalar` says that the arithmetic of finite numbers is that of the real numbers: nothing is
rounded. Beyond the finite numbers there may be infinities, and something that is not a number; what
arithmetic makes of those is left open, and so is what it makes of operands without a real result.

A share is a number between zero and one (`Scalar.IsShare`), so a real number of the unit interval
(`Scalar.isShare_iff`).
-/

namespace MapStyle

/-- The integer part of a real number, toward zero. -/
noncomputable def integerPart (x : ℝ) : ℤ := if 0 ≤ x then ⌊x⌋ else ⌈x⌉

/-- Scalars whose finite numbers are the real numbers, with their order and arithmetic. -/
class ExactScalar (N : Type) [Scalar N] extends LawfulOrder N where
  /-- A real number as a scalar. -/
  ofReal : ℝ → N
  exists_of_isFinite {a : N} : Scalar.isFinite a = true → ∃ x, a = ofReal x
  /-- What lies between real numbers is one. -/
  exists_of_between {a : N} {x y : ℝ} : Scalar.atMost (ofReal x) a = true →
    Scalar.atMost a (ofReal y) = true → ∃ z, a = ofReal z
  atMost_iff {x y : ℝ} : Scalar.atMost (ofReal x) (ofReal y) = true ↔ x ≤ y
  ofInt_eq (n : ℤ) : Scalar.ofInt n = ofReal n
  add_eq (x y : ℝ) : ofReal x + ofReal y = ofReal (x + y)
  sub_eq (x y : ℝ) : ofReal x - ofReal y = ofReal (x - y)
  mul_eq (x y : ℝ) : ofReal x * ofReal y = ofReal (x * y)
  div_eq (x : ℝ) {y : ℝ} : y ≠ 0 → ofReal x / ofReal y = ofReal (x / y)
  remainder_eq (x : ℝ) {y : ℝ} : y ≠ 0 →
    Scalar.remainder (ofReal x) (ofReal y) = ofReal (x - y * integerPart (x / y))
  power_eq {x : ℝ} (y : ℝ) : 0 ≤ x → Scalar.power (ofReal x) (ofReal y) = ofReal (x ^ y)

/-- Exact scalars whose magnitudes and decimals are exact too, so that a tolerance is what it says. -/
class ExactDecimals (N : Type) [Scalar N] extends ExactScalar N where
  abs_eq (x : ℝ) : Scalar.abs (ofReal x) = ofReal |x|
  ofDecimal_eq (digits : ℕ) (exponent : ℤ) :
    Scalar.ofDecimal digits exponent = ofReal (digits * 10 ^ exponent)

/-! ## Remainders -/

section

variable {x y : ℝ}

theorem abs_sub_integerPart_lt (x : ℝ) : |x - integerPart x| < 1 := by
  have hfloor := Int.floor_le x
  have hfloor' := Int.lt_floor_add_one x
  have hceil := Int.le_ceil x
  have hceil' := Int.ceil_lt_add_one x
  unfold integerPart
  rw [abs_lt]
  split <;> constructor <;> linarith

theorem integerPart_le (hx : 0 ≤ x) : (integerPart x : ℝ) ≤ x := by
  unfold integerPart
  rw [if_pos hx]
  exact Int.floor_le x

theorem remainder_eq_mul (hy : 0 < y) :
    x - y * integerPart (x / y) = y * (x / y - integerPart (x / y)) := by
  rw [mul_sub, mul_div_cancel₀ x hy.ne']

/-- A remainder is smaller than the divisor. -/
theorem abs_remainder_lt (hy : 0 < y) : |x - y * integerPart (x / y)| < y := by
  rw [remainder_eq_mul hy, abs_mul, abs_of_pos hy]
  exact mul_lt_of_lt_one_right hy (abs_sub_integerPart_lt _)

/-- A remainder has the sign of the dividend. -/
theorem remainder_nonneg (hx : 0 ≤ x) (hy : 0 < y) : 0 ≤ x - y * integerPart (x / y) := by
  rw [remainder_eq_mul hy]
  exact mul_nonneg hy.le (sub_nonneg.mpr (integerPart_le (div_nonneg hx hy.le)))

end

namespace Scalar

open ExactScalar (ofReal)

variable {N : Type} [Scalar N] [ExactScalar N] {x y : ℝ}

/-! ## Comparisons -/

theorem beq_ofReal : ((ofReal x : N) == ofReal y) = true ↔ x = y := by
  rw [LawfulOrder.beq_eq, Bool.and_eq_true, ExactScalar.atMost_iff, ExactScalar.atMost_iff]
  exact antisymm_iff

theorem less_ofReal : less (ofReal x : N) (ofReal y) = true ↔ x < y := by
  rw [LawfulOrder.less_eq (beq_ofReal.mpr rfl) (beq_ofReal.mpr rfl), Bool.not_eq_true',
    ← Bool.not_eq_true, ExactScalar.atMost_iff, not_le]

theorem beq_self_of_isFinite {a : N} (ha : isFinite a = true) : (a == a) = true := by
  obtain ⟨x, rfl⟩ := ExactScalar.exists_of_isFinite ha
  exact beq_ofReal.mpr rfl

/-- A finite number is told by its place in the order. -/
theorem eq_of_atMost {a b : N} (ha : isFinite a = true) (hab : atMost a b = true)
    (hba : atMost b a = true) : b = a := by
  obtain ⟨x, rfl⟩ := ExactScalar.exists_of_isFinite ha
  obtain ⟨y, rfl⟩ := ExactScalar.exists_of_between hab hba
  rw [ExactScalar.atMost_iff] at hab hba
  rw [le_antisymm hab hba]

theorem isZero_ofReal : isZero (ofReal x : N) = true ↔ x = 0 := by
  unfold isZero
  rw [ExactScalar.ofInt_eq, beq_ofReal, Int.cast_zero]

theorem within_ofReal {m n : ℤ} :
    within (ofInt m) (ofInt n) (ofReal x : N) = true ↔ x ∈ Set.Icc (m : ℝ) n := by
  unfold within
  rw [ExactScalar.ofInt_eq, ExactScalar.ofInt_eq, Bool.and_eq_true, ExactScalar.atMost_iff,
    ExactScalar.atMost_iff, Set.mem_Icc]

theorem within_iff {m n : ℤ} {a : N} :
    within (ofInt m) (ofInt n) a = true ↔ ∃ x ∈ Set.Icc (m : ℝ) n, a = ofReal x := by
  constructor
  · intro h
    have hbounds := Bool.and_eq_true_iff.mp h
    rw [ExactScalar.ofInt_eq, ExactScalar.ofInt_eq] at hbounds
    obtain ⟨x, rfl⟩ := ExactScalar.exists_of_between hbounds.1 hbounds.2
    exact ⟨x, within_ofReal.mp h, rfl⟩
  · rintro ⟨x, hx, rfl⟩
    exact within_ofReal.mpr hx

/-- What is moved into a range lies in it, whatever it was. -/
theorem within_clamp {m n : ℤ} (h : m ≤ n) (a : N) :
    within (ofInt m) (ofInt n) (clamp (ofInt m) (ofInt n) a) = true := by
  have hcast : (m : ℝ) ≤ n := Int.cast_le.mpr h
  unfold clamp
  split
  · split
    · next hlo hhi => exact Bool.and_eq_true_iff.mpr ⟨atMost_of_less hlo, atMost_of_less hhi⟩
    · exact within_iff.mpr ⟨n, ⟨hcast, le_rfl⟩, ExactScalar.ofInt_eq n⟩
  · exact within_iff.mpr ⟨m, ⟨le_rfl, hcast⟩, ExactScalar.ofInt_eq m⟩

/-! ## Shares -/

/-- Whether a number lies between zero and one. -/
def IsShare (a : N) : Prop := within (ofInt 0) (ofInt 1) a = true

theorem isShare_iff {a : N} : IsShare a ↔ ∃ x ∈ Set.Icc (0 : ℝ) 1, a = ofReal x := by
  unfold IsShare
  rw [within_iff, Int.cast_zero, Int.cast_one]

theorem isShare_ofReal (hx : x ∈ Set.Icc (0 : ℝ) 1) : IsShare (ofReal x : N) :=
  isShare_iff.mpr ⟨x, hx, rfl⟩

theorem isShare_zero : IsShare (ofInt 0 : N) := by
  rw [ExactScalar.ofInt_eq, Int.cast_zero]
  exact isShare_ofReal (Set.left_mem_Icc.mpr zero_le_one)

theorem isShare_one : IsShare (ofInt 1 : N) := by
  rw [ExactScalar.ofInt_eq, Int.cast_one]
  exact isShare_ofReal (Set.right_mem_Icc.mpr zero_le_one)

/-- What lies a share of the way from one share to another is a share. -/
theorem mix_mem {p q t : ℝ} (hp : p ∈ Set.Icc (0 : ℝ) 1) (hq : q ∈ Set.Icc (0 : ℝ) 1)
    (ht : t ∈ Set.Icc (0 : ℝ) 1) : p * (1 - t) + q * t ∈ Set.Icc (0 : ℝ) 1 := by
  have hrest : 0 ≤ 1 - t := sub_nonneg.mpr ht.2
  constructor
  · exact add_nonneg (mul_nonneg hp.1 hrest) (mul_nonneg hq.1 ht.1)
  · calc p * (1 - t) + q * t ≤ 1 * (1 - t) + 1 * t :=
          add_le_add (mul_le_mul_of_nonneg_right hp.2 hrest) (mul_le_mul_of_nonneg_right hq.2 ht.1)
      _ = 1 := by ring

/-- A number of a range that starts at zero is a share of the end of the range. -/
theorem isShare_div {n : ℤ} (hn : 0 < n) {a : N} (h : within (ofInt 0) (ofInt n) a = true) :
    IsShare (a / ofInt n) := by
  have hn : (0 : ℝ) < n := Int.cast_pos.mpr hn
  obtain ⟨x, ⟨hlo, hhi⟩, rfl⟩ := within_iff.mp h
  rw [Int.cast_zero] at hlo
  rw [ExactScalar.ofInt_eq, ExactScalar.div_eq x hn.ne']
  exact isShare_ofReal ⟨div_nonneg hlo hn.le, div_le_one_of_le₀ hhi hn.le⟩

end Scalar

end MapStyle
