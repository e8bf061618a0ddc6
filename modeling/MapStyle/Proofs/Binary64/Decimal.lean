import MapStyle.Proofs.Binary64.Equality
import MapStyle.Proofs.Binary64.Rounding

/-!
# Doubles of decimals

The double nearest to `digits · 10 ^ exponent` is a number exactly when the decimal is below `overflow`
(`isFinite_ofDecimal_iff`), and an infinity otherwise.
-/

namespace MapStyle.Binary64

open Float.Model UnpackedFloat

/-! ## Through the unpacked form -/

theorem shiftLeft_mul_zpow (m k : ℕ) : ((m <<< k : ℕ) : ℚ) * 2 ^ (-k : ℤ) = m := by
  rw [Nat.shiftLeft_eq, zpow_neg, zpow_natCast]
  push_cast
  exact mul_inv_cancel_right₀ (by positivity) _

/-- The two bounds are those beyond which no power of ten is computed. -/
theorem fits_ofScientific {m : ℕ} (hm : m ≠ 0) {e : ℤ} (hhigh : e ≤ 2048)
    (hlow : -(2048 + m.log2 : ℤ) ≤ e) :
    Fits (UnpackedFloat.ofScientific .binary64 m e) ↔ (m * 10 ^ e : ℚ) < overflow := by
  have hbits : (2 : ℤ) ^ Format.binary64.exponentBits = 2048 := rfl
  unfold UnpackedFloat.ofScientific
  rw [dif_neg hm, hbits, if_neg (by omega), if_neg (by omega)]
  by_cases hsign : 0 ≤ e
  · obtain ⟨k, rfl⟩ := Int.eq_ofNat_of_zero_le hsign
    have hlong : 2 ^ 52 ≤ m <<< Format.binary64.mantissaBits * 10 ^ k := by
      have hshift : m <<< Format.binary64.mantissaBits = m * 2 ^ 53 := Nat.shiftLeft_eq m 53
      have hpos : 0 < m * 10 ^ k := by positivity
      rw [hshift, mul_right_comm]
      omega
    rw [if_pos hsign]
    refine (fits_mul hlong).trans ?_
    rw [shiftLeft_mul_zpow]
    simp
  · obtain ⟨k, rfl⟩ := Int.exists_eq_neg_ofNat (show e ≤ 0 by omega)
    rw [if_neg hsign, fits_div]
    simp [div_eq_mul_inv]

/-! ## Through doubles -/

/-- Whether a number is a whole one, written with all digits of a mantissa. -/
def SpellsWhole (f : UnpackedFloat) (n : ℕ) : Prop :=
  match f with
  | .finite _ m e _ => 2 ^ 52 ≤ m ∧ m * 2 ^ e.toNat = n * 2 ^ (-e).toNat
  | _ => False

instance (f : UnpackedFloat) (n : ℕ) : Decidable (SpellsWhole f n) := by
  unfold SpellsWhole
  split <;> infer_instance

theorem SpellsWhole.exists_finite {f : UnpackedFloat} {n : ℕ} (h : SpellsWhole f n) :
    ∃ s m e hm, f = .finite s m e hm ∧ 2 ^ 52 ≤ m ∧ (m * 2 ^ e : ℚ) = n := by
  cases f with
  | finite s m e hm =>
    obtain ⟨hlong, heq⟩ := h
    refine ⟨s, m, e, hm, rfl, hlong, ?_⟩
    have hcast : (m * 2 ^ e.toNat : ℚ) = n * 2 ^ (-e).toNat := by exact_mod_cast heq
    have hexp : e = e.toNat - (-e).toNat := by omega
    calc (m * 2 ^ e : ℚ) = m * 2 ^ e.toNat / 2 ^ (-e).toNat := by
          conv_lhs => rw [hexp, zpow_sub₀ two_ne_zero, zpow_natCast, zpow_natCast, mul_div_assoc']
      _ = n := by
          rw [hcast]
          exact mul_div_cancel_right₀ _ (by positivity)
  | _ => cases h

theorem spellsWhole_powers : ∀ i : Fin Float.exactlyRepresentablePowersOfTen.size,
    SpellsWhole Float.exactlyRepresentablePowersOfTen[i].toModel.unpack (10 ^ i.val) := by
  decide +kernel

theorem spellsWhole_power {k : ℕ} (hk : k < Float.exactlyRepresentablePowersOfTen.size) :
    SpellsWhole Float.exactlyRepresentablePowersOfTen[k].toModel.unpack (10 ^ k) :=
  spellsWhole_powers ⟨k, hk⟩

theorem unpackSign_packComponents {spec : Format} (s : Sign) (e : BitVec spec.exponentBits)
    (m : BitVec spec.mantissaBitsWithoutImplicit) :
    unpackSign (packComponents spec s e m) = s.toBitVec := by
  refine BitVec.eq_of_getLsbD_eq fun i hi => ?_
  obtain rfl : i = 0 := by omega
  show (((s.toBitVec ++ e) ++ m : BitVec _).extractLsb _ _).getLsbD 0 = _
  simp [BitVec.getLsbD_append, BitVec.getElem_append]

theorem ofBitVec_toBitVec (s : Sign) : Sign.ofBitVec s.toBitVec = s := by
  cases s <;> rfl

/-- A mantissa that is short enough is not rounded. -/
theorem roundWithAccuracy_of_lt (s : Sign) {m : ℕ} (hm : 0 < m) (hshort : m < 2 ^ 53) {e : ℤ}
    (he : -1074 ≤ e) : roundWithAccuracy .binary64 s m e .exact = .finite s m e hm := by
  have hrounded : (ExtendedMantissa.mk m false false).roundedMantissa = m := rfl
  unfold roundWithAccuracy
  rw [shiftToTargetExponent_of_lt hshort he]
  dsimp only
  rw [hrounded, shiftToTargetExponent_of_lt hshort he, dif_neg hm.ne']

/-- A pattern whose exponent is neither the largest nor the least decodes to a normal number. -/
theorem exists_unpack_eq_finite {b : BitVec Format.binary64.numBits} (hmax : unpackExponent b ≠ -1#_)
    (hmin : unpackExponent b ≠ 0#_) : ∃ s m e h, unpack .binary64 b = .finite s m e h ∧
      s = .ofBitVec (unpackSign b) ∧ m = (1#1 ++ unpackMantissa b).toNat ∧
      e = (unpackExponent b).toNat - 1075 := by
  have hpos : 0 < (1#1 ++ unpackMantissa b).toNat := by
    rw [toNat_one_append (unpackMantissa b)]
    omega
  unfold UnpackedFloat.unpack
  dsimp only
  rw [if_neg hmax, if_neg hmin]
  exact ⟨_, _, _, hpos, rfl, rfl, rfl, rfl⟩

/-- A number with all digits of a mantissa is kept by packing. -/
theorem unpack_pack {s : Sign} {m : ℕ} {e : ℤ} {hm : 0 < m} (hlong : 2 ^ 52 ≤ m) (hshort : m < 2 ^ 53)
    (hlow : -1074 ≤ e) (hhigh : e ≤ 971) :
    (Float.Model.pack (.finite s m e hm)).unpack = .finite s m e hm := by
  have hlog : m.log2 = 52 := (Nat.log2_eq_iff hm.ne').mpr ⟨hlong, hshort⟩
  obtain ⟨b, hb⟩ := Int.eq_ofNat_of_zero_le (show 0 ≤ e + 1075 by omega)
  have hbiased : (e + Format.binary64.exponentBias + (52 : ℕ)).toNat = b := by
    show (e + 1023 + 52).toNat = b
    omega
  have hpack : UnpackedFloat.pack .binary64 (.finite s m e hm) =
      packComponents .binary64 s (.ofNat 11 b) (.ofNat 52 m) := by
    unfold UnpackedFloat.pack
    dsimp only
    rw [hbiased, hlog, if_neg (show ¬2 ^ 11 ≤ b + 1 by omega)]
    exact if_pos rfl
  have hexponent : (BitVec.ofNat 11 b).toNat = b := Nat.mod_eq_of_lt (by omega)
  have hfraction : (BitVec.ofNat 52 m).toNat = m - 2 ^ 52 := by
    rw [BitVec.toNat_ofNat]
    omega
  have hmin : BitVec.ofNat 11 b ≠ 0#11 := fun h => by
    have hnat : b = 0 := hexponent.symm.trans (congrArg BitVec.toNat h)
    omega
  have hmax : BitVec.ofNat 11 b ≠ -1#11 := fun h => by
    have hnat : b = 2047 := hexponent.symm.trans (congrArg BitVec.toNat h)
    omega
  show unpack .binary64 (UnpackedFloat.pack .binary64 (.finite s m e hm)) = _
  obtain ⟨_, _, _, _, hunpack, rfl, rfl, rfl⟩ := exists_unpack_eq_finite
    (b := packComponents .binary64 s (.ofNat 11 b) (.ofNat 52 m))
    (by rwa [unpackExponent_packComponents]) (by rwa [unpackExponent_packComponents])
  rw [hpack, hunpack, UnpackedFloat.finite.injEq, unpackSign_packComponents,
    unpackMantissa_packComponents, unpackExponent_packComponents, hexponent]
  exact ⟨ofBitVec_toBitVec s, (toNat_one_append _).trans (by omega), by omega⟩

theorem spellsWhole_toFloat {n : ℕ} (hpos : 0 < n) (hn : n < 2 ^ 53) :
    SpellsWhole n.toUInt64.toFloat.toModel.unpack n := by
  have hlog : n.log2 ≤ 52 := Nat.lt_succ_iff.mp ((Nat.log2_lt hpos.ne').mpr hn)
  have hword : n.toUInt64.toNat = n := Nat.mod_eq_of_lt (by omega)
  have hlong : 2 ^ 52 ≤ n <<< (52 - n.log2) := by
    calc 2 ^ 52 = 2 ^ n.log2 * 2 ^ (52 - n.log2) := by
          rw [← pow_add, Nat.add_sub_cancel' hlog]
      _ ≤ n <<< (52 - n.log2) := by
          rw [Nat.shiftLeft_eq]
          exact Nat.mul_le_mul_right _ (Nat.log2_self_le hpos.ne')
  have hshort : n <<< (52 - n.log2) < 2 ^ 53 := by
    calc n <<< (52 - n.log2) < 2 ^ (n.log2 + 1) * 2 ^ (52 - n.log2) := by
          rw [Nat.shiftLeft_eq]
          exact Nat.mul_lt_mul_of_pos_right Nat.lt_log2_self (by positivity)
      _ = 2 ^ 53 := by
          rw [← pow_add]
          congr 1
          omega
  have hunpack : n.toUInt64.toFloat.toModel.unpack =
      .finite .positive (n <<< (52 - n.log2)) (-(52 - n.log2 : ℕ)) (by omega) := by
    show (Float.Model.pack (UnpackedFloat.normalize .binary64 n.toUInt64.toNat 0 .positive)).unpack = _
    have htarget : (0 - Format.binary64.targetExponent (totalExponent n 0)).toNat = 52 - n.log2 := by
      rw [targetExponent_eq, totalExponent]
      omega
    have hround : UnpackedFloat.normalize .binary64 n 0 .positive =
        UnpackedFloat.round .binary64 .positive n 0 := by
      unfold UnpackedFloat.normalize
      rw [compare_gt_iff_gt.mpr (by exact_mod_cast hpos)]
      rfl
    rw [hword, hround, UnpackedFloat.round, decreaseExponent, htarget]
    dsimp only
    rw [roundWithAccuracy_of_lt _ (by omega) hshort (by omega),
      unpack_pack hlong hshort (by omega) (by omega), zero_sub]
  rw [hunpack]
  refine ⟨hlong, ?_⟩
  rw [Nat.shiftLeft_eq]
  simp

section

variable {x y : Float} {m n : ℕ}

theorem SpellsWhole.isFinite_mul (hx : SpellsWhole x.toModel.unpack m)
    (hy : SpellsWhole y.toModel.unpack n) : (x * y).isFinite = true ↔ (m * n : ℚ) < overflow := by
  obtain ⟨s₁, m₁, e₁, h₁, heq₁, hlong₁, hvalue₁⟩ := hx.exists_finite
  obtain ⟨s₂, m₂, e₂, h₂, heq₂, hlong₂, hvalue₂⟩ := hy.exists_finite
  refine (isFinite_pack (UnpackedFloat.mul _ x.toModel.unpack y.toModel.unpack)).trans ?_
  rw [heq₁, heq₂, fits_mul (Nat.le_mul_of_pos_right _ h₂ |>.trans' hlong₁), hvalue₁, hvalue₂]

theorem SpellsWhole.isFinite_div (hx : SpellsWhole x.toModel.unpack m)
    (hy : SpellsWhole y.toModel.unpack n) : (x / y).isFinite = true ↔ (m / n : ℚ) < overflow := by
  obtain ⟨s₁, m₁, e₁, h₁, heq₁, -, hvalue₁⟩ := hx.exists_finite
  obtain ⟨s₂, m₂, e₂, h₂, heq₂, -, hvalue₂⟩ := hy.exists_finite
  refine (isFinite_pack (UnpackedFloat.div _ x.toModel.unpack y.toModel.unpack)).trans ?_
  rw [heq₁, heq₂, fits_div, hvalue₁, hvalue₂]

end

theorem isFinite_ofScientific_iff {m : ℕ} (hm : m ≠ 0) {e : ℤ} (hhigh : e ≤ 2048)
    (hlow : -(2048 + m.log2 : ℤ) ≤ e) :
    (Float.ofScientific m (decide (e < 0)) e.natAbs).isFinite = true ↔
      (m * 10 ^ e : ℚ) < overflow := by
  have hslow := (isFinite_pack _).trans (fits_ofScientific hm hhigh hlow)
  have hpos := Nat.pos_of_ne_zero hm
  unfold Float.ofScientific
  by_cases hsign : e < 0
  · obtain ⟨k, rfl⟩ := Int.exists_eq_neg_ofNat hsign.le
    rw [decide_eq_true hsign, Int.natAbs_neg, Int.natAbs_natCast]
    split
    · next hfast =>
      dsimp only
      rw [if_pos rfl, (spellsWhole_toFloat hpos hfast.1).isFinite_div
        (spellsWhole_power _)]
      simp [div_eq_mul_inv]
    · dsimp only
      rw [if_pos rfl, Int.negOfNat_eq]
      exact hslow
  · obtain ⟨k, rfl⟩ := Int.eq_ofNat_of_zero_le (not_lt.mp hsign)
    rw [decide_eq_false hsign, Int.natAbs_natCast]
    split
    · next hfast =>
      dsimp only
      rw [if_neg Bool.false_ne_true, (spellsWhole_toFloat hpos hfast.1).isFinite_mul
        (spellsWhole_power _)]
      simp
    · exact hslow

/-- A decimal is read as a number exactly when it is below `overflow`. -/
theorem isFinite_ofDecimal_iff (digits : ℕ) (exponent : ℤ) :
    (ofDecimal digits exponent).isFinite = true ↔ (digits * 10 ^ exponent : ℚ) < overflow := by
  have hone : 1 ≤ overflow := by
    rw [overflow_eq]
    exact one_le_mul_of_one_le_of_one_le (by norm_num) (one_le_zpow₀ one_le_two (by decide))
  unfold ofDecimal
  split
  · next hzero =>
    refine iff_of_true (by decide +kernel) ?_
    rw [hzero, Nat.cast_zero, zero_mul]
    exact one_pos.trans_le hone
  · next hzero =>
    split
    · next hlarge =>
      refine iff_of_false (by decide +kernel) (not_lt.mpr ?_)
      have hdigits : (1 : ℚ) ≤ digits := by exact_mod_cast Nat.pos_of_ne_zero hzero
      have hpowers : ((2 ^ 1024 : ℕ) : ℚ) ≤ (10 ^ 310 : ℕ) := Nat.cast_le.mpr (by decide +kernel)
      rw [Nat.cast_pow, Nat.cast_pow] at hpowers
      calc overflow ≤ 2 ^ 1024 := sub_le_self _ (by positivity)
        _ ≤ 10 ^ (310 : ℤ) := hpowers
        _ ≤ 10 ^ exponent := zpow_le_zpow_right₀ (by norm_num) hlarge
        _ ≤ digits * 10 ^ exponent := le_mul_of_one_le_left (by positivity) hdigits
    · split
      · next hsmall =>
        refine iff_of_true (by decide +kernel) ?_
        obtain ⟨k, rfl⟩ := Int.exists_eq_neg_ofNat (show exponent ≤ 0 by omega)
        have hdigits : (digits : ℚ) < 2 ^ (digits.log2 + 1) := by exact_mod_cast Nat.lt_log2_self
        have hpower : (2 : ℚ) ^ (digits.log2 + 1) ≤ 8 ^ k := by
          rw [show (8 : ℚ) = 2 ^ 3 by norm_num, ← pow_mul]
          exact pow_le_pow_right₀ one_le_two (by omega)
        have hten : (8 : ℚ) ^ k ≤ 10 ^ k := pow_le_pow_left₀ (by norm_num) (by norm_num) k
        refine lt_of_lt_of_le ?_ hone
        rw [zpow_neg, zpow_natCast, ← div_eq_mul_inv, div_lt_one (by positivity)]
        linarith
      · exact isFinite_ofScientific_iff hzero (by omega) (by omega)

end MapStyle.Binary64
