import Mathlib.Algebra.Order.Field.Basic
import Mathlib.Algebra.Order.Field.Power
import Mathlib.Tactic.FieldSimp
import Mathlib.Tactic.Linarith
import Mathlib.Tactic.Positivity
import Mathlib.Tactic.Ring
import MapStyle.Binary64.Scalar

/-!
# Rounding and overflow

Doubles are rounded from a mantissa with two residual bits. `Approximates` says which rational number such
a mantissa stands for, exactly; dropping bits keeps it (`Approximates.shiftRight`), and what is rounded to
reaches an even number from half a step below it on (`Approximates.le_roundedMantissa_iff`).

A rounded number is packed as an infinity when it is `overflow` or more (`fits_roundWithAccuracy`).
-/

namespace MapStyle.Binary64

open Float.Model UnpackedFloat

/-! ## Mantissas with residual bits -/

/-- Whether a mantissa is the whole part of a number and its two bits compare the rest with zero and with
a half. -/
def Approximates (em : ExtendedMantissa) (x : ℚ) : Prop :=
  ∃ rest : ℚ, 0 ≤ rest ∧ rest < 1 ∧ x = em.mantissa + rest ∧
    (em.roundBit = true ↔ 1 / 2 ≤ rest) ∧ (em.stickyBit = true ↔ rest ≠ 0 ∧ rest ≠ 1 / 2)

theorem approximates_exact (m : ℕ) :
    Approximates (.ofMantissaAndAccuracy m .exact) m :=
  ⟨0, le_rfl, one_pos, (add_zero _).symm, by norm_num [ExtendedMantissa.ofMantissaAndAccuracy],
    by norm_num [ExtendedMantissa.ofMantissaAndAccuracy]⟩

/-- A quotient with its remainder. -/
theorem approximates_fraction (m : ℕ) {num den : ℕ} (h : num < den) :
    Approximates (.ofMantissaAndAccuracy m (accuracyOfFraction num den)) (m + num / den) := by
  have hden : (0 : ℚ) < den := by exact_mod_cast Nat.zero_lt_of_lt h
  have hlt : (num : ℚ) / den < 1 := by
    rw [div_lt_one hden]
    exact_mod_cast h
  refine ⟨num / den, by positivity, hlt, ?_⟩
  unfold accuracyOfFraction
  by_cases hzero : num = 0
  · subst hzero
    norm_num [ExtendedMantissa.ofMantissaAndAccuracy]
  · have hpos : (num : ℚ) / den ≠ 0 := by positivity
    have hhalf : 1 / 2 ≤ (num : ℚ) / den ↔ den ≤ 2 * num := by
      rw [div_le_div_iff₀ two_pos hden, one_mul, mul_comm]
      exact_mod_cast Iff.rfl
    have hhalf' : (num : ℚ) / den = 1 / 2 ↔ 2 * num = den := by
      rw [div_eq_div_iff hden.ne' two_ne_zero, one_mul, mul_comm]
      exact_mod_cast Iff.rfl
    rw [if_neg hzero, hhalf, and_iff_right hpos, Ne.eq_def (num / den : ℚ), hhalf']
    rcases lt_trichotomy (2 * num) den with hcmp | hcmp | hcmp
    · rw [compare_lt_iff_lt.mpr hcmp]
      exact ⟨rfl, iff_of_false nofun (by omega), iff_of_true rfl (by omega)⟩
    · rw [compare_eq_iff_eq.mpr hcmp]
      exact ⟨rfl, iff_of_true rfl (by omega), iff_of_false nofun (by omega)⟩
    · rw [compare_gt_iff_gt.mpr hcmp]
      exact ⟨rfl, iff_of_true rfl (by omega), iff_of_true rfl (by omega)⟩

namespace Approximates

variable {em : ExtendedMantissa} {x : ℚ}

theorem mantissa_le (h : Approximates em x) : (em.mantissa : ℚ) ≤ x := by
  obtain ⟨rest, hrest, -, rfl, -, -⟩ := h
  linarith

theorem lt_mantissa_add_one (h : Approximates em x) : x < em.mantissa + 1 := by
  obtain ⟨rest, -, hrest, rfl, -, -⟩ := h
  linarith

theorem shiftRightOne (h : Approximates em x) : Approximates em.shiftRightOne (x / 2) := by
  obtain ⟨rest, hrest, hrest', rfl, hround, hsticky⟩ := h
  have hdiv := Nat.div_add_mod em.mantissa 2
  have hcast : (em.mantissa : ℚ) = 2 * (em.mantissa / 2 : ℕ) + (em.mantissa % 2 : ℕ) := by
    exact_mod_cast hdiv.symm
  have hinexact : (em.roundBit || em.stickyBit) = true ↔ rest ≠ 0 := by
    rw [Bool.or_eq_true, hround, hsticky]
    constructor
    · rintro (hhalf | ⟨hne, -⟩)
      · linarith
      · exact hne
    · intro hne
      by_cases hhalf : 1 / 2 ≤ rest
      · exact .inl hhalf
      · exact .inr ⟨hne, fun heq => hhalf heq.ge⟩
  have hx : ((em.mantissa : ℚ) + rest) / 2 =
      (em.mantissa / 2 : ℕ) + ((em.mantissa % 2 : ℕ) + rest) / 2 := by
    rw [hcast]
    ring
  rcases Nat.mod_two_eq_zero_or_one em.mantissa with hparity | hparity
  · rw [hparity] at hx
    refine ⟨((0 : ℕ) + rest) / 2, by positivity, by norm_num; linarith, hx, ?_, ?_⟩
    · simp only [ExtendedMantissa.shiftRightOne, hparity]
      norm_num
      linarith
    · simp only [ExtendedMantissa.shiftRightOne, hinexact]
      norm_num
      intro _
      linarith
  · rw [hparity] at hx
    refine ⟨((1 : ℕ) + rest) / 2, by positivity, by norm_num; linarith, hx, ?_, ?_⟩
    · simp only [ExtendedMantissa.shiftRightOne, hparity]
      norm_num
      linarith
    · simp only [ExtendedMantissa.shiftRightOne, hinexact]
      norm_num
      intro _
      linarith

theorem shiftRight (h : Approximates em x) (k : ℕ) : Approximates (em >>> k) (x / 2 ^ k) := by
  show Approximates (k.repeat ExtendedMantissa.shiftRightOne em) _
  induction k with
  | zero => rwa [pow_zero, div_one]
  | succ k ih =>
    rw [pow_succ, ← div_div]
    exact ih.shiftRightOne

theorem roundedMantissa_cases (h : Approximates em x) :
    em.roundedMantissa = em.mantissa ∧ x < em.mantissa + 1 / 2 ∨
    x = em.mantissa + 1 / 2 ∧ em.roundedMantissa = em.mantissa + em.mantissa % 2 ∨
    em.roundedMantissa = em.mantissa + 1 ∧ em.mantissa + 1 / 2 < x := by
  obtain ⟨m, round, sticky⟩ := em
  obtain ⟨rest, hrest, hrest', rfl, hround, hsticky⟩ := h
  cases round with
  | false =>
    have hhalf : rest < 1 / 2 := not_le.mp fun hle => nomatch hround.mpr hle
    refine .inl ⟨?_, by simpa using hhalf⟩
    cases sticky <;> rfl
  | true =>
    have hhalf := hround.mp rfl
    cases sticky with
    | false =>
      have heq : rest = 1 / 2 := by
        by_contra hne
        have hzero : rest ≠ 0 := by
          rintro rfl
          norm_num at hhalf
        cases hsticky.mpr ⟨hzero, hne⟩
      exact .inr (.inl ⟨by rw [heq], rfl⟩)
    | true =>
      have hne := (hsticky.mp rfl).2
      exact .inr (.inr ⟨rfl, by simpa using lt_of_le_of_ne hhalf (Ne.symm hne)⟩)

/-- A tie goes to the even mantissa, so what is rounded to is at least an even number when that is at most
half a step above. -/
theorem le_roundedMantissa_iff (h : Approximates em x) {n : ℕ} (hn : Even n) (hpos : 0 < n) :
      n ≤ em.roundedMantissa ↔ (n : ℚ) - 1 / 2 ≤ x := by
  obtain ⟨k, rfl⟩ := hn
  have hle := h.mantissa_le
  have hlt := h.lt_mantissa_add_one
  rcases lt_trichotomy (em.mantissa + 1) (k + k) with hbelow | hnext | habove
  · have hcast : (em.mantissa : ℚ) + 2 ≤ (k + k : ℕ) := by exact_mod_cast hbelow
    rcases h.roundedMantissa_cases with ⟨hr, hx⟩ | ⟨hx, hr⟩ | ⟨hr, hx⟩
    all_goals
      refine iff_of_false ?_ ?_
      · omega
      · linarith
  · have hcast : (em.mantissa : ℚ) + 1 = (k + k : ℕ) := by exact_mod_cast hnext
    have hodd : em.mantissa % 2 = 1 := by omega
    rcases h.roundedMantissa_cases with ⟨hr, hx⟩ | ⟨hx, hr⟩ | ⟨hr, hx⟩
    · refine iff_of_false ?_ ?_
      · omega
      · linarith
    · refine iff_of_true ?_ ?_
      · omega
      · linarith
    · refine iff_of_true ?_ ?_
      · omega
      · linarith
  · have hcast : ((k + k : ℕ) : ℚ) ≤ em.mantissa := by exact_mod_cast Nat.lt_succ_iff.mp habove
    refine iff_of_true ?_ (by linarith)
    rcases h.roundedMantissa_cases with ⟨hr, hx⟩ | ⟨hx, hr⟩ | ⟨hr, hx⟩
    all_goals omega

theorem roundedMantissa_le (h : Approximates em x) : em.roundedMantissa ≤ em.mantissa + 1 := by
  rcases h.roundedMantissa_cases with ⟨hr, -⟩ | ⟨-, hr⟩ | ⟨hr, -⟩
  all_goals omega

end Approximates

/-! ## Packing -/

theorem targetExponent_eq (t : ℤ) : Format.binary64.targetExponent t = max (t - 53) (-1074) := rfl

/-- Whether a number is packed as a number. -/
def Fits : UnpackedFloat → Prop
  | .zero _ => True
  | .finite _ _ e _ => e < 972
  | .infinity _ => False
  | .notANumber => False

theorem isFinite_unpack (b : BitVec Format.binary64.numBits) :
    (unpack .binary64 b).isFinite = true ↔ unpackExponent b ≠ -1#_ := by
  unfold UnpackedFloat.unpack
  dsimp only
  by_cases hmax : unpackExponent b = -1#_
  · rw [if_pos hmax]
    refine iff_of_false ?_ (not_not_intro hmax)
    split <;> nofun
  · rw [if_neg hmax]
    refine iff_of_true ?_ hmax
    by_cases hmin : unpackExponent b = 0#_
    · rw [if_pos hmin]
      by_cases hfraction : unpackMantissa b = 0#_
      · rw [dif_pos hfraction]
        rfl
      · rw [dif_neg hfraction]
        rfl
    · rw [if_neg hmin]
      rfl

theorem isFinite_pack (f : UnpackedFloat) :
    (Float.Model.pack f).unpack.isFinite = true ↔ Fits f := by
  refine (isFinite_unpack _).trans ?_
  cases f with
  | notANumber => exact iff_of_false (not_not_intro (by decide)) not_false
  | infinity s => exact iff_of_false (not_not_intro unpackExponent_packComponents) not_false
  | zero s =>
    refine iff_of_true ?_ trivial
    show unpackExponent (packedZero _ s) ≠ _
    rw [packedZero, unpackExponent_packComponents]
    decide
  | finite s m e hm =>
    show unpackExponent (UnpackedFloat.pack _ _) ≠ _ ↔ e < 972
    unfold UnpackedFloat.pack
    dsimp only
    have hbias : (Format.binary64.exponentBias : ℤ) = 1023 := rfl
    rw [hbias]
    by_cases hmax : 2 ^ 11 ≤ (e + 1023 + (52 : ℕ)).toNat + 1
    · rw [if_pos hmax, packedInfinity, unpackExponent_packComponents]
      exact iff_of_false (not_not_intro rfl) (by omega)
    · rw [if_neg hmax]
      refine iff_of_true ?_ (by omega)
      split
      · rw [unpackExponent_packComponents]
        intro heq
        have hnat : (e + 1023 + (52 : ℕ)).toNat % 2 ^ 11 = 2047 := congrArg BitVec.toNat heq
        omega
      · rw [unpackExponent_packComponents]
        decide

theorem fits_unpack_iff (b : BitVec Format.binary64.numBits) :
    Fits (unpack .binary64 b) ↔ (unpack .binary64 b).isFinite = true := by
  rw [isFinite_unpack]
  unfold UnpackedFloat.unpack
  dsimp only
  by_cases hmax : unpackExponent b = -1#_
  · rw [if_pos hmax]
    refine iff_of_false ?_ (not_not_intro hmax)
    split <;> exact id
  · rw [if_neg hmax]
    refine iff_of_true ?_ hmax
    have hbound : (unpackExponent b).toNat < 2048 := (unpackExponent b).isLt
    have hnot : (unpackExponent b).toNat ≠ 2047 := fun h => hmax (BitVec.eq_of_toNat_eq h)
    have hbias : (Format.binary64.exponentBias : ℤ) = 1023 := rfl
    by_cases hmin : unpackExponent b = 0#_
    · rw [if_pos hmin]
      have hzero : (unpackExponent b).toNat = 0 := congrArg BitVec.toNat hmin
      by_cases hfraction : unpackMantissa b = 0#_
      · rw [dif_pos hfraction]
        trivial
      · rw [dif_neg hfraction]
        show _ - (_ + (52 : ℕ) : ℤ) + 1 < (972 : ℤ)
        omega
    · rw [if_neg hmin]
      show _ - (_ + (52 : ℕ) : ℤ) < (972 : ℤ)
      omega

theorem isFinite_neg (x : Float) : (-x).isFinite = x.isFinite := by
  have hneg : Fits x.toModel.unpack.neg ↔ Fits x.toModel.unpack := by
    cases x.toModel.unpack <;> rfl
  rw [Bool.eq_iff_iff]
  exact (isFinite_pack x.toModel.unpack.neg).trans (hneg.trans (fits_unpack_iff _))

/-! ## Rounding to a double -/

/-- The least number that is rounded to an infinity: half a step above the largest double. -/
def overflow : ℚ := 2 ^ 1024 - 2 ^ 970

theorem overflow_eq : overflow = (2 ^ 53 - 1 / 2) * 2 ^ (971 : ℤ) := by
  have hstep : (2 : ℚ) ^ (971 : ℤ) = 2 * 2 ^ 970 :=
    (zpow_ofNat 2 971).trans (pow_succ' 2 970)
  rw [overflow, hstep, show 1024 = 54 + 970 from rfl, pow_add]
  generalize (2 : ℚ) ^ 970 = p
  ring

theorem shiftToTargetExponent_of_lt {m : ℕ} (hm : m < 2 ^ 53) {t : ℤ} (ht : -1074 ≤ t) :
    shiftToTargetExponent .binary64 m t .exact = (⟨m, false, false⟩, t) := by
  have hlog : m.log2 ≤ 52 := by
    rcases Nat.eq_zero_or_pos m with rfl | hpos
    · decide
    · exact Nat.lt_succ_iff.mp ((Nat.log2_lt hpos.ne').mpr hm)
  have hshift : (Format.binary64.targetExponent (totalExponent m t) - t).toNat = 0 := by
    rw [targetExponent_eq, totalExponent]
    omega
  unfold shiftToTargetExponent shiftToExponent
  dsimp only
  rw [hshift]
  exact Prod.ext rfl (Int.add_zero t)

/-- A mantissa that rounding has made too long takes the next exponent. -/
theorem shiftToTargetExponent_full {t : ℤ} (ht : -1074 ≤ t) :
    shiftToTargetExponent .binary64 (2 ^ 53) t .exact = (⟨2 ^ 52, false, false⟩, t + 1) := by
  have hlog : (2 ^ 53).log2 = 53 := Nat.log2_two_pow
  have hshift : (Format.binary64.targetExponent (totalExponent (2 ^ 53) t) - t).toNat = 1 := by
    rw [targetExponent_eq, totalExponent, hlog]
    omega
  unfold shiftToTargetExponent shiftToExponent
  dsimp only
  rw [hshift]
  rfl

/-- The exponent decides whether a number fits, but for the largest one: there a mantissa that was rounded
up to the next power of two does not. -/
theorem fits_roundWithAccuracy_iff (s : Sign) {m : ℕ} {e t : ℤ} {acc : Accuracy} {em : ExtendedMantissa}
    (hshift : shiftToTargetExponent .binary64 m e acc = (em, t)) (ht : -1074 ≤ t)
    (hle : em.roundedMantissa ≤ 2 ^ 53) (hpos : t = -1074 ∨ 0 < em.roundedMantissa) :
    Fits (roundWithAccuracy .binary64 s m e acc) ↔
      t < 971 ∨ t = 971 ∧ ¬2 ^ 53 ≤ em.roundedMantissa := by
  unfold roundWithAccuracy
  rw [hshift]
  dsimp only
  rcases Nat.lt_or_eq_of_le hle with hlt | hfull
  · rw [shiftToTargetExponent_of_lt hlt ht]
    dsimp only
    by_cases hzero : em.roundedMantissa = 0
    · rw [dif_pos hzero]
      exact iff_of_true trivial (by omega)
    · rw [dif_neg hzero]
      show t < 972 ↔ _
      omega
  · rw [hfull, shiftToTargetExponent_full ht, dif_neg (pow_ne_zero 52 two_ne_zero)]
    show t + 1 < 972 ↔ _
    omega

theorem lt_two_zpow_totalExponent {m : ℕ} (e : ℤ) {x : ℚ} (hx : x < m + 1) :
    x * 2 ^ e < 2 ^ totalExponent m e := by
  have hlt : (m : ℚ) + 1 ≤ 2 ^ (m.log2 + 1) := by exact_mod_cast Nat.lt_log2_self
  calc x * 2 ^ e < 2 ^ (m.log2 + 1) * 2 ^ e := by
        gcongr
        exact hx.trans_le hlt
    _ = 2 ^ totalExponent m e := by
        rw [totalExponent, zpow_add₀ two_ne_zero]
        norm_cast

theorem two_zpow_totalExponent_le {m : ℕ} (e : ℤ) {x : ℚ} (hm : m ≠ 0) (hx : m ≤ x) :
    2 ^ (totalExponent m e - 1) ≤ x * 2 ^ e := by
  have hle : (2 : ℚ) ^ m.log2 ≤ m := by exact_mod_cast Nat.log2_self_le hm
  calc (2 : ℚ) ^ (totalExponent m e - 1) = 2 ^ m.log2 * 2 ^ e := by
        rw [totalExponent, add_right_comm, add_sub_cancel_right, zpow_add₀ two_ne_zero, zpow_natCast]
    _ ≤ x * 2 ^ e := by
        gcongr
        exact hle.trans hx

/-- A number is shifted to at most 53 bits, and to all of them but at the least exponent. -/
theorem shiftToTargetExponent_spec {m : ℕ} {e : ℤ} {acc : Accuracy} {x : ℚ}
    (hx : Approximates (.ofMantissaAndAccuracy m acc) x)
    (he : e ≤ Format.binary64.targetExponent (totalExponent m e)) :
    ∃ em t y, shiftToTargetExponent .binary64 m e acc = (em, t) ∧ Approximates em y ∧
      y * 2 ^ t = x * 2 ^ e ∧ -1074 ≤ t ∧ y < 2 ^ 53 ∧ (t = -1074 ∨ 2 ^ 52 ≤ y) := by
  have hmantissa : (ExtendedMantissa.ofMantissaAndAccuracy m acc).mantissa = m := by
    unfold ExtendedMantissa.ofMantissaAndAccuracy
    split <;> rfl
  have hlower := hx.mantissa_le
  have hupper := hx.lt_mantissa_add_one
  rw [hmantissa] at hlower hupper
  obtain ⟨k, hk⟩ := Int.le.dest he
  have htarget : e + k = max (totalExponent m e - 53) (-1074) := hk
  have hshift : shiftToTargetExponent .binary64 m e acc =
      (ExtendedMantissa.ofMantissaAndAccuracy m acc >>> k, e + k) := by
    unfold shiftToTargetExponent shiftToExponent
    rw [← hk]
    simp
  have hvalue : x / 2 ^ k * 2 ^ (e + k : ℤ) = x * 2 ^ e := by
    rw [zpow_add₀ two_ne_zero, zpow_natCast]
    field_simp
  refine ⟨_, e + k, x / 2 ^ k, hshift, hx.shiftRight k, hvalue, by omega, ?_, ?_⟩
  · have hlt : x / 2 ^ k * 2 ^ (e + k : ℤ) < 2 ^ 53 * 2 ^ (e + k : ℤ) := by
      calc x / 2 ^ k * 2 ^ (e + k : ℤ) < 2 ^ totalExponent m e := by
            rw [hvalue]
            exact lt_two_zpow_totalExponent e hupper
        _ ≤ 2 ^ (53 + (e + k) : ℤ) := zpow_le_zpow_right₀ one_le_two (by omega)
        _ = 2 ^ 53 * 2 ^ (e + k : ℤ) := zpow_add₀ two_ne_zero 53 _
    exact lt_of_mul_lt_mul_right hlt (by positivity)
  · by_cases hleast : e + k = -1074
    · exact .inl hleast
    · have hm : m ≠ 0 := by
        rintro rfl
        have hzero : totalExponent 0 e = 1 + e := rfl
        omega
      have hle : 2 ^ 52 * 2 ^ (e + k : ℤ) ≤ x / 2 ^ k * 2 ^ (e + k : ℤ) := by
        calc (2 : ℚ) ^ 52 * 2 ^ (e + k : ℤ) = 2 ^ (52 + (e + k) : ℤ) :=
              (zpow_add₀ two_ne_zero 52 _).symm
          _ ≤ 2 ^ (totalExponent m e - 1) := zpow_le_zpow_right₀ one_le_two (by omega)
          _ ≤ x / 2 ^ k * 2 ^ (e + k : ℤ) := by
            rw [hvalue]
            exact two_zpow_totalExponent_le e hm hlower
      exact .inr (le_of_mul_le_mul_right hle (by positivity))

/-- The exponent of a number of 53 bits tells on which side of `overflow` it is, but for the largest one. -/
theorem lt_overflow_iff {y : ℚ} {t : ℤ} (hbelow : y < 2 ^ 53) (habove : t = -1074 ∨ 2 ^ 52 ≤ y) :
    y * 2 ^ t < overflow ↔ t < 971 ∨ t = 971 ∧ y < 2 ^ 53 - 1 / 2 := by
  rw [overflow_eq]
  rcases lt_trichotomy t 971 with hlt | rfl | hgt
  · refine iff_of_true ?_ (.inl hlt)
    calc y * 2 ^ t < 2 ^ 53 * 2 ^ t := by gcongr
      _ ≤ 2 ^ 53 * 2 ^ (970 : ℤ) := by
          have hpow : (2 : ℚ) ^ t ≤ 2 ^ (970 : ℤ) := zpow_le_zpow_right₀ one_le_two (by omega)
          gcongr
      _ = 2 ^ 52 * 2 ^ (971 : ℤ) := by
          rw [show (971 : ℤ) = 970 + 1 from rfl, zpow_add_one₀ two_ne_zero]
          ring
      _ ≤ (2 ^ 53 - 1 / 2) * 2 ^ (971 : ℤ) := by
          gcongr
          norm_num
  · rw [mul_lt_mul_iff_of_pos_right (by positivity)]
    constructor
    · exact fun h => .inr ⟨rfl, h⟩
    · rintro (h | ⟨-, h⟩)
      · cases lt_irrefl _ h
      · exact h
  · refine iff_of_false (not_lt.mpr ?_) (by omega)
    have hlong : 2 ^ 52 ≤ y := habove.resolve_left (by omega)
    calc ((2 : ℚ) ^ 53 - 1 / 2) * 2 ^ (971 : ℤ) ≤ 2 ^ 53 * 2 ^ (971 : ℤ) := by
          gcongr
          norm_num
      _ = 2 ^ 52 * 2 ^ (972 : ℤ) := by
          rw [show (972 : ℤ) = 971 + 1 from rfl, zpow_add_one₀ two_ne_zero]
          ring
      _ ≤ y * 2 ^ t := by
          have hpow : (2 : ℚ) ^ (972 : ℤ) ≤ 2 ^ t := zpow_le_zpow_right₀ one_le_two (by omega)
          gcongr

/-- Rounding gives a number that fits exactly below `overflow`. At the largest exponent a mantissa is
rounded up to the next power of two from half a step below it on, which is where `overflow` lies. -/
theorem fits_roundWithAccuracy (s : Sign) {m : ℕ} {e : ℤ} {acc : Accuracy} {x : ℚ}
    (hx : Approximates (.ofMantissaAndAccuracy m acc) x)
    (he : e ≤ Format.binary64.targetExponent (totalExponent m e)) :
    Fits (roundWithAccuracy .binary64 s m e acc) ↔ x * 2 ^ e < overflow := by
  obtain ⟨em, t, y, hshift, hy, hvalue, hleast, hbelow, habove⟩ := shiftToTargetExponent_spec hx he
  have hle : em.roundedMantissa ≤ 2 ^ 53 := by
    have hcast : em.mantissa < 2 ^ 53 := by exact_mod_cast hy.mantissa_le.trans_lt hbelow
    have hround := hy.roundedMantissa_le
    omega
  have hpos : t = -1074 ∨ 0 < em.roundedMantissa := by
    refine habove.imp_right fun hlong => ?_
    have hround := (hy.le_roundedMantissa_iff (n := 2) (by decide) (by decide)).mpr (by linarith)
    omega
  have hfull : ¬2 ^ 53 ≤ em.roundedMantissa ↔ y < 2 ^ 53 - 1 / 2 := by
    rw [hy.le_roundedMantissa_iff (by decide) (by decide), not_le, Nat.cast_pow, Nat.cast_ofNat]
  rw [fits_roundWithAccuracy_iff s hshift hleast hle hpos, hfull, ← hvalue, lt_overflow_iff hbelow habove]

/-! ## Products and quotients -/

section

variable {s₁ s₂ : Sign} {m₁ m₂ : ℕ} {e₁ e₂ : ℤ} {h₁ : 0 < m₁} {h₂ : 0 < m₂}

theorem fits_mul (hm : 2 ^ 52 ≤ m₁ * m₂) :
    Fits (mul .binary64 (.finite s₁ m₁ e₁ h₁) (.finite s₂ m₂ e₂ h₂)) ↔
      (m₁ * 2 ^ e₁ * (m₂ * 2 ^ e₂) : ℚ) < overflow := by
  have hlog : 52 ≤ (m₁ * m₂).log2 := (Nat.le_log2 (Nat.mul_pos h₁ h₂).ne').mpr hm
  have htarget : e₁ + e₂ ≤ Format.binary64.targetExponent (totalExponent (m₁ * m₂) (e₁ + e₂)) := by
    rw [targetExponent_eq, totalExponent]
    omega
  refine (fits_roundWithAccuracy (s₁ * s₂) (approximates_exact _) htarget).trans ?_
  rw [Nat.cast_mul, zpow_add₀ two_ne_zero, mul_mul_mul_comm]

/-- A quotient is at most one digit shorter than the difference in length. -/
theorem log2_le_log2_div_add (m : ℕ) {n : ℕ} (hn : 0 < n) : m.log2 ≤ (m / n).log2 + n.log2 + 1 := by
  rcases Nat.eq_zero_or_pos m with rfl | hm
  · exact Nat.zero_le _
  · refine Nat.lt_succ_iff.mp ((Nat.log2_lt hm.ne').mpr ?_)
    calc m < n * (m / n + 1) := Nat.lt_mul_div_succ m hn
      _ ≤ 2 ^ (n.log2 + 1) * 2 ^ ((m / n).log2 + 1) :=
          Nat.mul_le_mul Nat.lt_log2_self.le Nat.lt_log2_self
      _ = 2 ^ ((m / n).log2 + n.log2 + 1 + 1) := by
          rw [← pow_add]
          congr 1
          omega

theorem fits_div :
    Fits (div .binary64 (.finite s₁ m₁ e₁ h₁) (.finite s₂ m₂ e₂ h₂)) ↔
      (m₁ * 2 ^ e₁ / (m₂ * 2 ^ e₂) : ℚ) < overflow := by
  show Fits (roundWithAccuracy _ (s₁ / s₂) (divCore _ m₁ e₁ m₂ e₂).1 (divCore _ m₁ e₁ m₂ e₂).2.1
    (divCore _ m₁ e₁ m₂ e₂).2.2) ↔ _
  unfold divCore
  dsimp only
  generalize htotal : totalExponent m₁ e₁ - totalExponent m₂ e₂ = total
  generalize ht : min (e₁ - e₂) (Format.binary64.targetExponent total) = t
  obtain ⟨k, hk⟩ := Int.le.dest (ht ▸ min_le_left _ _ : t ≤ e₁ - e₂)
  rw [show (e₁ - e₂ - t).toNat = k by omega, Nat.shiftLeft_eq]
  have hlog := log2_le_log2_div_add (m₁ * 2 ^ k) h₂
  have hlength : m₁.log2 + k ≤ (m₁ * 2 ^ k).log2 := by
    rw [Nat.le_log2 (by positivity), pow_add]
    exact Nat.mul_le_mul_right _ (Nat.log2_self_le h₁.ne')
  have htarget : t ≤ Format.binary64.targetExponent (totalExponent (m₁ * 2 ^ k / m₂) t) := by
    rw [targetExponent_eq] at ht ⊢
    unfold totalExponent at htotal ⊢
    omega
  have hden : (m₂ : ℚ) ≠ 0 := by exact_mod_cast h₂.ne'
  have hquotient : ((m₁ * 2 ^ k / m₂ : ℕ) : ℚ) + (m₁ * 2 ^ k % m₂ : ℕ) / m₂ = m₁ * 2 ^ k / m₂ := by
    rw [eq_div_iff hden, add_mul, div_mul_cancel₀ _ hden]
    exact_mod_cast Nat.div_add_mod' (m₁ * 2 ^ k) m₂
  have hvalue : (m₁ * 2 ^ k / m₂ * 2 ^ t : ℚ) = m₁ * 2 ^ e₁ / (m₂ * 2 ^ e₂) := by
    rw [show e₁ = t + k + e₂ by omega, zpow_add₀ two_ne_zero, zpow_add₀ two_ne_zero, zpow_natCast]
    field_simp
  rw [fits_roundWithAccuracy _ (approximates_fraction _ (Nat.mod_lt _ h₂)) htarget, hquotient, hvalue]

end

end MapStyle.Binary64
