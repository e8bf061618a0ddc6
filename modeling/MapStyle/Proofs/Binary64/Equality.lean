import Mathlib.Algebra.Group.Nat.Defs
import MapStyle.Binary64.Scalar
import MapStyle.Proofs.Scalar.Canonical

/-!
# Equality of doubles

Doubles are equal when they are the same or both zero (`beq_iff`). So every test that tells the two
zeros alike gives the same answer for equal doubles.

A double is determined by its decoded form (`eq_of_unpack_eq`), because there is one pattern only for
not a number. With this the laws of `LawfulEq` come down to the two zeros and the doubles that are
not finite.
-/

namespace MapStyle.Binary64

open Float.Model UnpackedFloat

/-! ## Decoding is injective -/

section

variable {a b : BitVec Format.binary64.numBits}

/-- A pattern is its sign, exponent and fraction. -/
theorem eq_of_parts_eq (hsign : unpackSign a = unpackSign b)
    (hexponent : unpackExponent a = unpackExponent b)
    (hfraction : unpackMantissa a = unpackMantissa b) : a = b := by
  refine BitVec.eq_of_getLsbD_eq fun i hi => ?_
  by_cases h52 : i < 52
  · have h := congrArg (fun v => BitVec.getLsbD v i) hfraction
    simpa [unpackMantissa, h52] using h
  · by_cases h63 : i < 63
    · have h := congrArg (fun v => BitVec.getLsbD v (i - 52)) hexponent
      have hlt : i - 52 < 11 := by omega
      have hadd : 52 + (i - 52) = i := by omega
      simp only [unpackExponent, BitVec.getLsbD_cast, BitVec.getLsbD_extractLsb] at h
      simpa [hadd, hlt] using h
    · have hlt : i < 64 := hi
      obtain rfl : i = 63 := by omega
      have hlast (v : BitVec Format.binary64.numBits) : (unpackSign v).getLsbD 0 = v.getLsbD 63 := by
        show ((v.extractLsb 63 63).cast _).getLsbD 0 = _
        rw [BitVec.getLsbD_cast, BitVec.getLsbD_extractLsb]
        rfl
      rw [← hlast a, ← hlast b, hsign]

theorem ofBitVec_injective {s t : BitVec 1} (h : Sign.ofBitVec s = Sign.ofBitVec t) : s = t := by
  have hs := BitVec.eq_zero_or_eq_one s
  have ht := BitVec.eq_zero_or_eq_one t
  rcases hs with rfl | rfl <;> rcases ht with rfl | rfl <;> first | rfl | cases h

/-- The mantissa of a normal number has one more digit than its fraction. -/
theorem toNat_one_append (v : BitVec 52) : (1#1 ++ v).toNat = 2 ^ 52 + v.toNat := by
  rw [BitVec.toNat_append, ← Nat.shiftLeft_add_eq_or_of_lt v.isLt]
  rfl

/-- The sign, exponent and fraction of the pattern that decodes to a number. -/
def parts : UnpackedFloat → Sign × Nat × Nat
  | .notANumber => (.positive, 2047, 2 ^ 51)
  | .infinity s => (s, 2047, 0)
  | .zero s => (s, 0, 0)
  | .finite s m e _ => if m < 2 ^ 52 then (s, 0, m) else (s, (e + 1075).toNat, m - 2 ^ 52)

theorem parts_unpack (ha : Format.binary64.Valid a) : parts (unpack .binary64 a) =
    (.ofBitVec (unpackSign a), (unpackExponent a).toNat, (unpackMantissa a).toNat) := by
  have hlt : (unpackMantissa a).toNat < 2 ^ 52 := (unpackMantissa a).isLt
  have hbias : ((Format.binary64.exponentBias : Nat) : Int) = 1023 := rfl
  unfold UnpackedFloat.unpack
  dsimp only
  by_cases hmax : unpackExponent a = -1#_
  · rw [if_pos hmax, hmax]
    by_cases hfraction : unpackMantissa a = 0#_
    · rw [if_pos hfraction, hfraction]
      rfl
    · rw [if_neg hfraction, ha.eq_packedNaN hmax hfraction]
      rfl
  · rw [if_neg hmax]
    by_cases hmin : unpackExponent a = 0#_
    · rw [if_pos hmin, hmin]
      by_cases hfraction : unpackMantissa a = 0#_
      · rw [dif_pos hfraction, hfraction]
        rfl
      · rw [dif_neg hfraction]
        exact if_pos hlt
    · rw [if_neg hmin]
      have happend : (1#1 ++ unpackMantissa a).toNat = 2 ^ 52 + (unpackMantissa a).toNat :=
        toNat_one_append (unpackMantissa a)
      unfold parts
      dsimp only
      rw [happend, if_neg (by omega), hbias, Nat.add_sub_cancel_left]
      congr 2
      omega

theorem eq_of_unpack_eq_of_valid (ha : Format.binary64.Valid a) (hb : Format.binary64.Valid b)
    (h : unpack .binary64 a = unpack .binary64 b) : a = b := by
  have hparts := congrArg parts h
  rw [parts_unpack ha, parts_unpack hb, Prod.mk.injEq, Prod.mk.injEq] at hparts
  obtain ⟨hsign, hexponent, hfraction⟩ := hparts
  exact eq_of_parts_eq (ofBitVec_injective hsign) (BitVec.eq_of_toNat_eq hexponent)
    (BitVec.eq_of_toNat_eq hfraction)

end

/-- A double is determined by what it decodes to. -/
theorem eq_of_unpack_eq {x y : Float} (h : x.toModel.unpack = y.toModel.unpack) : x = y := by
  obtain ⟨⟨a, ha⟩⟩ := x
  obtain ⟨⟨b, hb⟩⟩ := y
  have hbits := UInt64.eq_of_toBitVec_eq (eq_of_unpack_eq_of_valid ha hb h)
  subst hbits
  rfl

/-! ## Equality -/

/-- How two doubles compare. -/
def order (x y : Float) : Option Ordering := x.toModel.unpack.compare y.toModel.unpack

theorem beq_eq (x y : Float) : (x == y) = (order x y == some .eq) := rfl

theorem atMost_eq (x y : Float) : Scalar.atMost x y = (order x y).any (·.isLE) := by
  show decide (x.le y = true) = _
  rw [Bool.decide_eq_true]
  show decide (x.toModel.le y.toModel = true) = _
  rw [Bool.decide_eq_true]
  rfl

theorem sign_compare_eq_iff {s t : Sign} : compare s t = .eq ↔ s = t := by
  cases s <;> cases t <;> constructor <;> intro h <;> first | rfl | cases h

theorem compare_finite_iff {s t : Sign} {m n : Nat} {e f : Int} {hm : 0 < m} {hn : 0 < n} :
    (UnpackedFloat.finite s m e hm).compare (.finite t n f hn) = some .eq ↔
      s = t ∧ m = n ∧ e = f := by
  have hcompare : (compare e f).then (compare m n) = .eq ↔ m = n ∧ e = f := by
    rw [Ordering.then_eq_eq, Std.compare_eq_iff_eq, Std.compare_eq_iff_eq, and_comm]
  cases s <;> cases t
  case negative.negative =>
    rw [← hcompare, ← Ordering.swap_eq_eq]
    exact ⟨fun h => ⟨rfl, Option.some.inj h⟩, fun h => congrArg some h.2⟩
  case positive.positive =>
    rw [← hcompare]
    exact ⟨fun h => ⟨rfl, Option.some.inj h⟩, fun h => congrArg some h.2⟩
  all_goals exact ⟨nofun, nofun⟩

theorem compare_eq_iff {a b : UnpackedFloat} : a.compare b = some .eq ↔
    (a = b ∧ a ≠ .notANumber) ∨ ∃ s t, a = .zero s ∧ b = .zero t := by
  constructor
  · intro h
    cases a with
    | notANumber => cases h
    | infinity s =>
      cases b with
      | infinity t => exact .inl ⟨congrArg _ (sign_compare_eq_iff.mp (Option.some.inj h)), nofun⟩
      | notANumber => cases h
      | zero | finite => cases s <;> cases h
    | zero s =>
      cases b with
      | zero t => exact .inr ⟨s, t, rfl, rfl⟩
      | notANumber => cases h
      | infinity t | finite t => cases t <;> cases h
    | finite s m e hm =>
      cases b with
      | finite t n f hn =>
        obtain ⟨rfl, rfl, rfl⟩ := compare_finite_iff.mp h
        exact .inl ⟨rfl, nofun⟩
      | notANumber => cases h
      | infinity t => cases t <;> cases h
      | zero => cases s <;> cases h
  · rintro (⟨rfl, hnumber⟩ | ⟨s, t, rfl, rfl⟩)
    · cases a with
      | notANumber => exact absurd rfl hnumber
      | infinity s => exact congrArg some (sign_compare_eq_iff.mpr rfl)
      | zero => rfl
      | finite => exact compare_finite_iff.mpr ⟨rfl, rfl, rfl⟩
    · rfl

/-- The two zeros compare alike with any number. -/
theorem compare_zero_congr (s t : Sign) (b : UnpackedFloat) :
    (UnpackedFloat.zero s).compare b = (UnpackedFloat.zero t).compare b ∧
      b.compare (.zero s) = b.compare (.zero t) := by
  cases b with
  | infinity u | finite u => cases u <;> exact ⟨rfl, rfl⟩
  | notANumber | zero u => exact ⟨rfl, rfl⟩

/-- Doubles are equal when they are the same and a number, or both zero. -/
theorem beq_iff {x y : Float} : (x == y) = true ↔
    (x = y ∧ x.toModel.unpack ≠ .notANumber) ∨
      ∃ s t, x.toModel.unpack = .zero s ∧ y.toModel.unpack = .zero t := by
  rw [beq_eq, beq_iff_eq, order, compare_eq_iff]
  refine or_congr_left (and_congr_left fun _ => ⟨eq_of_unpack_eq, ?_⟩)
  rintro rfl
  rfl

/-- Equal doubles compare alike. -/
theorem order_congr {x y : Float} (h : (x == y) = true) (z : Float) :
    order x z = order y z ∧ order z x = order z y := by
  obtain ⟨rfl, -⟩ | ⟨s, t, hs, ht⟩ := beq_iff.mp h
  · exact ⟨rfl, rfl⟩
  · unfold order
    rw [hs, ht]
    exact compare_zero_congr s t z.toModel.unpack

/-- A double that decodes to zero is one of the two zeros. -/
theorem eq_zero_of_unpack {x : Float} {s : Sign} (h : x.toModel.unpack = .zero s) :
    x = 0 ∨ x = -0 := by
  cases s with
  | positive => exact .inl (eq_of_unpack_eq h)
  | negative => exact .inr (eq_of_unpack_eq h)

/-- What tells the two zeros alike gives the same for equal doubles. -/
theorem congr_of_beq {α : Type} (f : Float → α) (hzero : f 0 = f (-0)) {x y : Float}
    (h : (x == y) = true) : f x = f y := by
  obtain ⟨rfl, -⟩ | ⟨s, t, hs, ht⟩ := beq_iff.mp h
  · rfl
  · obtain rfl | rfl := eq_zero_of_unpack hs <;> obtain rfl | rfl := eq_zero_of_unpack ht
    · rfl
    · exact hzero
    · exact hzero.symm
    · rfl

/-! ## Doubles that are not finite -/

theorem unpack_of_not_isFinite {x : Float} (h : Scalar.isFinite x = false) :
    x.toModel.unpack = .notANumber ∨ ∃ s, x.toModel.unpack = .infinity s := by
  have hfinite : x.toModel.unpack.isFinite = false := h
  cases hx : x.toModel.unpack with
  | notANumber => exact .inl rfl
  | infinity s => exact .inr ⟨s, rfl⟩
  | zero => rw [hx] at hfinite; cases hfinite
  | finite => rw [hx] at hfinite; cases hfinite

theorem isSafe_of_not_isFinite {x : Float} (h : Scalar.isFinite x = false) :
    Scalar.isSafe x = false := by
  obtain hnan | ⟨s, hs⟩ := unpack_of_not_isFinite h
  · obtain rfl : x = 0 / 0 := eq_of_unpack_eq hnan
    decide +kernel
  · cases s with
    | positive =>
      obtain rfl : x = 1 / 0 := eq_of_unpack_eq hs
      decide +kernel
    | negative =>
      obtain rfl : x = -1 / 0 := eq_of_unpack_eq hs
      decide +kernel

/-- Only finite doubles are small enough to be exact. -/
theorem isFinite_of_isSafe {x : Float} (h : Scalar.isSafe x = true) : Scalar.isFinite x = true := by
  cases hfinite : Scalar.isFinite x with
  | true => rfl
  | false =>
    rw [isSafe_of_not_isFinite hfinite] at h
    cases h

theorem self_of_isFinite {x : Float} (h : Scalar.isFinite x = true) : (x == x) = true := by
  refine beq_iff.mpr (.inl ⟨rfl, fun hnan => ?_⟩)
  have hfinite : x.toModel.unpack.isFinite = true := h
  rw [hnan] at hfinite
  cases hfinite

theorem beq_symm {x y : Float} (h : (x == y) = true) : (y == x) = true := by
  rw [beq_iff] at h ⊢
  obtain ⟨rfl, hx⟩ | ⟨s, t, hs, ht⟩ := h
  · exact .inl ⟨rfl, hx⟩
  · exact .inr ⟨t, s, ht, hs⟩

instance : LawfulEq Float where
  symm := beq_symm
  self_of_isFinite := self_of_isFinite
  isFinite_of_isSafe := isFinite_of_isSafe
  beq_left_congr h := by rw [beq_eq, beq_eq, (order_congr h _).1]
  beq_right_congr h := by rw [beq_eq, beq_eq, (order_congr h _).2]
  atMost_left_congr h := by rw [atMost_eq, atMost_eq, (order_congr h _).1]
  atMost_right_congr h := by rw [atMost_eq, atMost_eq, (order_congr h _).2]
  isFinite_congr := congr_of_beq _ (by decide +kernel)
  isSafe_congr := congr_of_beq _ (by decide +kernel)
  isWhole_congr := congr_of_beq _ (by decide +kernel)
  toInt?_congr := congr_of_beq _ (by decide +kernel)

end MapStyle.Binary64
