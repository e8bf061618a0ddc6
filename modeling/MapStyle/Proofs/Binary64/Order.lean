import Mathlib.Algebra.Order.Group.Int
import Mathlib.Algebra.Order.Group.Defs
import Mathlib.Data.Prod.Lex
import MapStyle.Proofs.Binary64.Equality
import MapStyle.Proofs.Scalar.Order

/-!
# The order of doubles

Doubles that are numbers compare as their ranks do (`order_eq`): by class, then exponent, then
significand. Ranks are linearly ordered, so the comparisons of doubles obey the laws of
`LawfulOrder` and `LawfulComparison`.
-/

namespace MapStyle.Binary64

open Float.Model UnpackedFloat

/-! ## Ranks -/

/-- The place of a decoded double among the others: its class, exponent and significand, the last two
negated for a negative one. -/
def rank : UnpackedFloat → ℤ ×ₗ ℤ ×ₗ ℤ
  | .infinity .negative => toLex (-2, toLex (0, 0))
  | .finite .negative m e _ => toLex (-1, toLex (-e, -m))
  | .notANumber | .zero _ => toLex (0, toLex (0, 0))
  | .finite .positive m e _ => toLex (1, toLex (e, m))
  | .infinity .positive => toLex (2, toLex (0, 0))

theorem compare_natCast (m n : ℕ) : compare (m : ℤ) (n : ℤ) = compare m n := by
  rcases lt_trichotomy m n with h | rfl | h
  · rw [compare_lt_iff_lt.mpr h, compare_lt_iff_lt.mpr (Int.ofNat_lt.mpr h)]
  · rw [compare_eq_iff_eq.mpr rfl, compare_eq_iff_eq.mpr rfl]
  · rw [compare_gt_iff_gt.mpr h, compare_gt_iff_gt.mpr (Int.ofNat_lt.mpr h)]

theorem compare_neg_neg (a b : ℤ) : compare (-a) (-b) = (compare a b).swap := by
  rw [Int.compare_swap]
  rcases lt_trichotomy a b with h | rfl | h
  · rw [compare_gt_iff_gt.mpr h, compare_gt_iff_gt.mpr (neg_lt_neg h)]
  · rw [compare_eq_iff_eq.mpr rfl, compare_eq_iff_eq.mpr rfl]
  · rw [compare_lt_iff_lt.mpr h, compare_lt_iff_lt.mpr (neg_lt_neg h)]

/-- Pairs of one class compare by exponent, then by significand. -/
theorem compare_toLex (k e e' m m' : ℤ) :
    compare (toLex (k, toLex (e, m)) : ℤ ×ₗ ℤ ×ₗ ℤ) (toLex (k, toLex (e', m'))) =
      (compare e e').then (compare m m') := by
  rw [Prod.Lex.compare_def, compareLex, compareOn, compareOn, Prod.Lex.compare_def, compareLex,
    compareOn, compareOn]
  show (compare k k).then ((compare e e').then (compare m m')) = _
  rw [compare_eq_iff_eq.mpr rfl]
  rfl

theorem compare_eq {a b : UnpackedFloat} (ha : a ≠ .notANumber) (hb : b ≠ .notANumber) :
    a.compare b = some (compare (rank a) (rank b)) := by
  cases a with
  | notANumber => exact absurd rfl ha
  | infinity s | zero s =>
    cases b with
    | notANumber => exact absurd rfl hb
    | _ t => cases s <;> cases t <;> rfl
  | finite s m e h =>
    cases b with
    | notANumber => exact absurd rfl hb
    | infinity t | zero t => cases s <;> cases t <;> rfl
    | finite t m' e' h' =>
      cases s with
      | negative =>
        cases t with
        | negative =>
          show some ((compare e e').then (compare m m')).swap = some (compare (toLex _) (toLex _))
          rw [compare_toLex, compare_neg_neg, compare_neg_neg, compare_natCast, Ordering.swap_then]
        | positive => rfl
      | positive =>
        cases t with
        | negative => rfl
        | positive =>
          show some ((compare e e').then (compare m m')) = some (compare (toLex _) (toLex _))
          rw [compare_toLex, compare_natCast]

/-! ## Comparisons -/

/-- The rank of a double. -/
def rankOf (x : Float) : ℤ ×ₗ ℤ ×ₗ ℤ := rank x.toModel.unpack

/-- Whether a double is a number. -/
def IsNumber (x : Float) : Prop := x.toModel.unpack ≠ .notANumber

theorem order_eq {x y : Float} (hx : IsNumber x) (hy : IsNumber y) :
    order x y = some (compare (rankOf x) (rankOf y)) := compare_eq hx hy

theorem order_eq_none {x y : Float} (h : ¬(IsNumber x ∧ IsNumber y)) : order x y = none := by
  unfold order
  by_cases hx : x.toModel.unpack = .notANumber
  · rw [hx]
    rfl
  · by_cases hy : y.toModel.unpack = .notANumber
    · rw [hy]
      cases x.toModel.unpack <;> rfl
    · exact absurd ⟨hx, hy⟩ h

theorem less_eq (x y : Float) : Scalar.less x y = (order x y == some .lt) := by
  show decide (x.lt y = true) = _
  rw [Bool.decide_eq_true]
  show decide (x.toModel.lt y.toModel = true) = _
  rw [Bool.decide_eq_true]
  rfl

/-- What only an outcome of comparing can meet is met by numbers, told by their ranks. -/
theorem order_iff {P : Option Ordering → Prop} (hnone : ¬P none) {x y : Float} :
    P (order x y) ↔ (IsNumber x ∧ IsNumber y) ∧ P (some (compare (rankOf x) (rankOf y))) := by
  by_cases h : IsNumber x ∧ IsNumber y
  · rw [order_eq h.1 h.2, and_iff_right h]
  · rw [order_eq_none h]
    exact iff_of_false hnone fun hxy => h hxy.1

theorem atMost_iff {x y : Float} :
    Scalar.atMost x y = true ↔ (IsNumber x ∧ IsNumber y) ∧ rankOf x ≤ rankOf y := by
  rw [atMost_eq, order_iff (P := fun o => o.any (·.isLE) = true) Bool.false_ne_true,
    Option.any_some, Ordering.isLE_iff_ne_gt, ← Ne, compare_le_iff_le]

theorem less_iff {x y : Float} :
    Scalar.less x y = true ↔ (IsNumber x ∧ IsNumber y) ∧ rankOf x < rankOf y := by
  rw [less_eq, beq_iff_eq, order_iff (P := fun o => o = some .lt) nofun, Option.some_inj,
    compare_lt_iff_lt]

theorem beq_iff_rank {x y : Float} :
    (x == y) = true ↔ (IsNumber x ∧ IsNumber y) ∧ rankOf x = rankOf y := by
  rw [beq_eq, beq_iff_eq, order_iff (P := fun o => o = some .eq) nofun, Option.some_inj,
    compare_eq_iff_eq]

/-- A double is a number when it equals itself. -/
theorem isNumber_iff {x : Float} : IsNumber x ↔ (x == x) = true := by
  rw [beq_iff_rank]
  exact ⟨fun h => ⟨⟨h, h⟩, rfl⟩, fun h => h.1.1⟩

instance : LawfulOrder Float where
  beq_eq x y := by
    rw [Bool.eq_iff_iff, Bool.and_eq_true, beq_iff_rank, atMost_iff, atMost_iff]
    constructor
    · rintro ⟨⟨hx, hy⟩, hxy⟩
      exact ⟨⟨⟨hx, hy⟩, hxy.le⟩, ⟨⟨hy, hx⟩, hxy.ge⟩⟩
    · rintro ⟨⟨hnumbers, hxy⟩, -, hyx⟩
      exact ⟨hnumbers, le_antisymm hxy hyx⟩
  less_eq {x y} hx hy := by
    rw [← isNumber_iff] at hx hy
    rw [Bool.eq_iff_iff, Bool.not_eq_true', ← Bool.not_eq_true, less_iff, atMost_iff,
      and_iff_right ⟨hx, hy⟩, and_iff_right ⟨hy, hx⟩, not_le]
  self_of_less h := by
    rw [← isNumber_iff, ← isNumber_iff]
    exact (less_iff.mp h).1
  atMost_trans hxy hyz := by
    rw [atMost_iff] at *
    exact ⟨⟨hxy.1.1, hyz.1.2⟩, hxy.2.trans hyz.2⟩
  atMost_total {x y} hx hy := by
    rw [← isNumber_iff] at hx hy
    rw [atMost_iff, atMost_iff, and_iff_right ⟨hx, hy⟩, and_iff_right ⟨hy, hx⟩]
    exact le_total _ _

instance : LawfulComparison Float where
  self_of_atMost h := by
    rw [← isNumber_iff, ← isNumber_iff]
    exact (atMost_iff.mp h).1

end MapStyle.Binary64
