import MapStyle.Color.Css
import MapStyle.Proofs.Lists
import MapStyle.Proofs.Scalar.Real
import MapStyle.Value.Assertion

/-!
# Colors are read into range

A color is in range when its channels are shares (`Color.inRange_iff`). So are those of every color
that a text in CSS notation spells, in whichever notation (`Color.inRange_of_ofCss?`, and for the
channels as real numbers `Color.exists_channels_of_ofCss?`), and of every color that is given by its
channels (`Color.inRange_of_ofChannels`).
-/

namespace MapStyle.Color

open Scalar (IsShare isShare_iff isShare_ofReal isShare_div)
open ExactScalar (ofReal)

variable {N : Type} [Scalar N]

theorem inRange_iff {c : Color N} : c.inRange = true ↔
    IsShare c.red ∧ IsShare c.green ∧ IsShare c.blue ∧ IsShare c.alpha := by
  simp [inRange, channels, IsShare]

variable [ExactScalar N] {c : Color N} {alpha : N}

/-! ## Bytes -/

theorem isShare_byte {n : Nat} (hn : n ≤ 255) : IsShare (Scalar.ofInt n / Scalar.ofInt 255 : N) := by
  refine isShare_div (by decide) (Scalar.within_iff.mpr ⟨n, ?_, ?_⟩)
  · rw [Int.cast_zero, Int.cast_ofNat]
    exact ⟨Nat.cast_nonneg n, Nat.cast_le_ofNat.mpr hn⟩
  · rw [ExactScalar.ofInt_eq, Int.cast_natCast]

theorem inRange_ofBytes {r g b a : Nat} (hr : r ≤ 255) (hg : g ≤ 255) (hb : b ≤ 255)
    (ha : a ≤ 255) : (ofBytes r g b a : Color N).inRange = true :=
  inRange_iff.mpr ⟨isShare_byte hr, isShare_byte hg, isShare_byte hb, isShare_byte ha⟩

theorem inRange_transparent : (transparent : Color N).inRange = true :=
  inRange_iff.mpr ⟨Scalar.isShare_zero, Scalar.isShare_zero, Scalar.isShare_zero,
    Scalar.isShare_zero⟩

theorem le_of_named? {name : String} {r g b : Nat} (h : named? name = some (r, g, b)) :
    r ≤ 255 ∧ g ≤ 255 ∧ b ≤ 255 := by
  have hnames : ∀ entry ∈ names, entry.2.1 ≤ 255 ∧ entry.2.2.1 ≤ 255 ∧ entry.2.2.2 ≤ 255 := by
    decide +kernel
  exact hnames (name, r, g, b) (mem_of_lookup_eq_some h)

/-! ## Hexadecimal notation -/

theorem le_of_hexDigit? {d : Char} {n : Nat} (h : hexDigit? d = some n) : n ≤ 15 := by
  have hsub {lo hi : Char} (hle : d ≤ hi) : d.toNat - lo.toNat ≤ hi.toNat - lo.toNat :=
    Nat.sub_le_sub_right hle _
  unfold hexDigit? at h
  split at h
  · next hd =>
    obtain rfl := Option.some.inj h
    exact (hsub hd.2).trans (by decide)
  · split at h
    · next hd =>
      obtain rfl := Option.some.inj h
      exact (Nat.add_le_add_right (hsub hd.2) 10).trans (by decide)
    · split at h
      · next hd =>
        obtain rfl := Option.some.inj h
        exact (Nat.add_le_add_right (hsub hd.2) 10).trans (by decide)
      · cases h

theorem inRange_of_ofHexDigits? {digits : List Nat} (hdigits : ∀ n ∈ digits, n ≤ 15)
    (h : ofHexDigits? digits = some c) : c.inRange = true := by
  unfold ofHexDigits? at h
  split at h
  · cases h
    simp only [List.forall_mem_cons] at hdigits
    exact inRange_ofBytes (by omega) (by omega) (by omega) le_rfl
  · cases h
    simp only [List.forall_mem_cons] at hdigits
    exact inRange_ofBytes (by omega) (by omega) (by omega) (by omega)
  · cases h
    simp only [List.forall_mem_cons] at hdigits
    exact inRange_ofBytes (by omega) (by omega) (by omega) le_rfl
  · cases h
    simp only [List.forall_mem_cons] at hdigits
    exact inRange_ofBytes (by omega) (by omega) (by omega) (by omega)
  · cases h

theorem inRange_of_ofHex? {text : List Char} (h : ofHex? text = some c) : c.inRange = true := by
  obtain ⟨digits, hdigits, hcolor⟩ := Option.bind_eq_some_iff.mp h
  exact inRange_of_ofHexDigits? (forall_of_mapM_eq_some (fun _ _ => le_of_hexDigit?) hdigits) hcolor

/-! ## Arguments -/

theorem exists_of_number? {text : List Char} {a : N} (h : number? text = some a) :
    ∃ x, a = ofReal x :=
  ExactScalar.exists_of_isFinite (Option.filter_eq_some_iff.mp h).2

omit [ExactScalar N] in
/-- A number is limited at the end of reading it, with or without a percent sign. -/
theorem isShare_of_level? {share limit : N → N} (hlimit : ∀ level, IsShare (limit level))
    {text : List Char} {a : N}
    (h : (match percent? text with
      | some digits => (number? digits).map share >>= fun level => some (limit level)
      | none => number? text >>= fun level => some (limit level)) = some a) : IsShare a := by
  have hread {level? : Option N} (h : (level? >>= fun level => some (limit level)) = some a) :
      IsShare a := by
    obtain ⟨level, -, h⟩ := Option.bind_eq_some_iff.mp h
    cases h
    exact hlimit level
  split at h
  · exact hread h
  · exact hread h

theorem isShare_of_channel? {text : List Char} {a : N} (h : channel? text = some a) : IsShare a :=
  isShare_of_level? (fun _ => isShare_div (by decide) (Scalar.within_clamp (by decide) _)) h

theorem isShare_of_alpha? {text : List Char} {a : N} (h : alpha? text = some a) : IsShare a :=
  isShare_of_level? (fun _ => Scalar.within_clamp (by decide) _) h

theorem isShare_of_share? {text : List Char} {a : N} (h : share? text = some a) : IsShare a := by
  obtain ⟨digits, -, h⟩ := Option.bind_eq_some_iff.mp h
  obtain ⟨value, -, h⟩ := Option.bind_eq_some_iff.mp h
  cases h
  exact Scalar.within_clamp (by decide) _

/-! ## Hue, saturation and lightness -/

/-- A hue of any number of degrees is a share of the turn: what the remainder leaves below zero is
moved up by a whole turn. -/
theorem isShare_turn (x : ℝ) : IsShare (turn (ofReal x : N)) := by
  have hfull : (0 : ℝ) < 360 := by norm_num
  have hinner := (abs_lt.mp (abs_remainder_lt (x := x) hfull)).1
  unfold turn
  simp only [ExactScalar.ofInt_eq, Int.cast_ofNat, ExactScalar.remainder_eq _ hfull.ne',
    ExactScalar.add_eq, ExactScalar.div_eq _ hfull.ne']
  set inner := x - 360 * (integerPart (x / 360) : ℝ)
  have houter := (abs_lt.mp (abs_remainder_lt (x := inner + 360) hfull)).2
  have hnonneg : 0 ≤ inner + 360 := by linarith
  exact isShare_ofReal ⟨div_nonneg (remainder_nonneg hnonneg hfull) hfull.le,
    div_le_one_of_le₀ houter.le hfull.le⟩

/-- A channel of a hue that is at most one turn off lies between its extremes. -/
theorem isShare_hueChannel {p q t : ℝ} (hp : p ∈ Set.Icc (0 : ℝ) 1) (hq : q ∈ Set.Icc (0 : ℝ) 1)
    (ht : t ∈ Set.Icc (-1 : ℝ) 2) :
    IsShare (hueChannel (ofReal p) (ofReal q) (ofReal t) : N) := by
  have hrise {x : ℝ} (hx : x ∈ Set.Icc (0 : ℝ) 1) : IsShare (ofReal (p + (q - p) * x) : N) := by
    have hmix : p + (q - p) * x = p * (1 - x) + q * x := by ring
    exact isShare_ofReal (hmix ▸ Scalar.mix_mem hp hq hx)
  unfold hueChannel
  simp (disch := norm_num) only [ExactScalar.ofInt_eq, Int.cast_zero, Int.cast_one, Int.cast_ofNat,
    ExactScalar.add_eq, ExactScalar.sub_eq, ExactScalar.mul_eq, ExactScalar.div_eq,
    Scalar.less_ofReal, ← apply_ite ofReal]
  have hwrap : (if 1 < if t < 0 then t + 1 else t then (if t < 0 then t + 1 else t) - 1
      else if t < 0 then t + 1 else t) ∈ Set.Icc (0 : ℝ) 1 := by
    obtain ⟨hlo, hhi⟩ := ht
    split_ifs <;> constructor <;> linarith
  revert hwrap
  generalize (if 1 < if t < 0 then t + 1 else t then (if t < 0 then t + 1 else t) - 1
    else if t < 0 then t + 1 else t) = t'
  rintro ⟨hlo, hhi⟩
  split_ifs with hsixth hhalf hthirds
  · rw [mul_assoc]
    exact hrise ⟨by linarith, by linarith⟩
  · exact isShare_ofReal hq
  · rw [mul_assoc]
    exact hrise ⟨by linarith, by linarith⟩
  · exact isShare_ofReal hp

/-- The extremes of a hue: `q` is at most one, and `p` is as far below the lightness as `q` is above. -/
theorem inRange_ofHsl {h s l : N} (hh : IsShare h) (hs : IsShare s) (hl : IsShare l)
    (halpha : IsShare alpha) : (ofHsl h s l alpha).inRange = true := by
  unfold ofHsl
  dsimp only
  split
  · exact inRange_iff.mpr ⟨hl, hl, hl, halpha⟩
  obtain ⟨h, ⟨hh0, hh1⟩, rfl⟩ := isShare_iff.mp hh
  obtain ⟨s, ⟨hs0, hs1⟩, rfl⟩ := isShare_iff.mp hs
  obtain ⟨l, ⟨hl0, hl1⟩, rfl⟩ := isShare_iff.mp hl
  simp (disch := norm_num) only [ExactScalar.ofInt_eq, Int.cast_one, Int.cast_ofNat,
    ExactScalar.add_eq, ExactScalar.sub_eq, ExactScalar.mul_eq, ExactScalar.div_eq,
    ExactScalar.atMost_iff, ← apply_ite ofReal]
  have hq : (if l ≤ 1 / 2 then l * (1 + s) else l + s - l * s) ∈ Set.Icc (0 : ℝ) 1 := by
    split_ifs <;> constructor <;> nlinarith
  have hp : 2 * l - (if l ≤ 1 / 2 then l * (1 + s) else l + s - l * s) ∈ Set.Icc (0 : ℝ) 1 := by
    split_ifs <;> constructor <;> nlinarith
  exact inRange_iff.mpr ⟨isShare_hueChannel hp hq ⟨by linarith, by linarith⟩,
    isShare_hueChannel hp hq ⟨by linarith, by linarith⟩,
    isShare_hueChannel hp hq ⟨by linarith, by linarith⟩, halpha⟩

/-! ## Functional notation -/

theorem inRange_of_rgb? {r g b : List Char} (halpha : IsShare alpha)
    (h : rgb? r g b alpha = some c) : c.inRange = true := by
  obtain ⟨red, hred, h⟩ := Option.bind_eq_some_iff.mp h
  obtain ⟨green, hgreen, h⟩ := Option.bind_eq_some_iff.mp h
  obtain ⟨blue, hblue, h⟩ := Option.bind_eq_some_iff.mp h
  cases h
  exact inRange_iff.mpr ⟨isShare_of_channel? hred, isShare_of_channel? hgreen,
    isShare_of_channel? hblue, halpha⟩

theorem inRange_of_hsl? {h s l : List Char} (halpha : IsShare alpha)
    (hc : hsl? h s l alpha = some c) : c.inRange = true := by
  obtain ⟨hue, hhue, hc⟩ := Option.bind_eq_some_iff.mp hc
  obtain ⟨saturation, hsaturation, hc⟩ := Option.bind_eq_some_iff.mp hc
  obtain ⟨lightness, hlightness, hc⟩ := Option.bind_eq_some_iff.mp hc
  obtain ⟨x, rfl⟩ := exists_of_number? hhue
  cases hc
  exact inRange_ofHsl (isShare_turn x) (isShare_of_share? hsaturation)
    (isShare_of_share? hlightness) halpha

theorem inRange_of_call? {name : String} {args : List (List Char)} (h : call? name args = some c) :
    c.inRange = true := by
  unfold call? at h
  split at h
  · exact inRange_of_rgb? Scalar.isShare_one h
  · obtain ⟨a, ha, h⟩ := Option.bind_eq_some_iff.mp h
    exact inRange_of_rgb? (isShare_of_alpha? ha) h
  · exact inRange_of_hsl? Scalar.isShare_one h
  · obtain ⟨a, ha, h⟩ := Option.bind_eq_some_iff.mp h
    exact inRange_of_hsl? (isShare_of_alpha? ha) h
  · cases h

/-- Every color that a text spells is in range. -/
theorem inRange_of_ofCss? {text : String} (h : ofCss? text = some c) : c.inRange = true := by
  unfold ofCss? at h
  dsimp only at h
  split at h
  · cases h
    exact inRange_transparent
  · split at h
    · next r g b hnamed =>
      cases h
      obtain ⟨hr, hg, hb⟩ := le_of_named? hnamed
      exact inRange_ofBytes hr hg hb le_rfl
    · split at h
      · exact inRange_of_ofHex? h
      · unfold ofCall? at h
        dsimp only at h
        split at h
        · split at h
          · exact inRange_of_call? h
          · cases h
        · cases h

/-- The channels of every color that a text spells are real numbers between zero and one: those of a
name or of hexadecimal digits, and those of a function with arguments of any size and sign. -/
theorem exists_channels_of_ofCss? {text : String} (h : ofCss? text = some c) :
    ∃ red ∈ Set.Icc (0 : ℝ) 1, ∃ green ∈ Set.Icc (0 : ℝ) 1, ∃ blue ∈ Set.Icc (0 : ℝ) 1,
      ∃ alpha ∈ Set.Icc (0 : ℝ) 1, c = ⟨ofReal red, ofReal green, ofReal blue, ofReal alpha⟩ := by
  obtain ⟨hred, hgreen, hblue, halpha⟩ := inRange_iff.mp (inRange_of_ofCss? h)
  obtain ⟨red, hred, hr⟩ := isShare_iff.mp hred
  obtain ⟨green, hgreen, hg⟩ := isShare_iff.mp hgreen
  obtain ⟨blue, hblue, hb⟩ := isShare_iff.mp hblue
  obtain ⟨alpha, halpha, ha⟩ := isShare_iff.mp halpha
  refine ⟨red, hred, green, hgreen, blue, hblue, alpha, halpha, ?_⟩
  rw [← hr, ← hg, ← hb, ← ha]

open scoped RealScalar in
/-- A hue below zero by more than a turn, and a saturation and an alpha above their ranges. -/
theorem exists_channels_of_ofCss?_hsla :
    ∃ c : Color ℝ, ofCss? "hsla(-480, 150%, 40%, 7)" = some c ∧
      ∃ red ∈ Set.Icc (0 : ℝ) 1, ∃ green ∈ Set.Icc (0 : ℝ) 1, ∃ blue ∈ Set.Icc (0 : ℝ) 1,
        ∃ alpha ∈ Set.Icc (0 : ℝ) 1, c = ⟨red, green, blue, alpha⟩ := by
  have hread : (ofCss? "hsla(-480, 150%, 40%, 7)" : Option (Color ℝ)).isSome = true := rfl
  obtain ⟨c, hc⟩ := Option.isSome_iff_exists.mp hread
  exact ⟨c, hc, exists_channels_of_ofCss? hc⟩

/-! ## Channels -/

theorem inRange_of_ofText {text : String} (h : ofText text = .ok c) : c.inRange = true := by
  unfold ofText at h
  split at h
  · next c' hc' =>
    cases h
    exact inRange_of_ofCss? hc'
  · cases h

/-- Every color that is given by its channels is in range. -/
theorem inRange_of_ofChannels {red green blue : N} {alpha : Option N}
    (h : ofChannels red green blue alpha = .ok c) : c.inRange = true := by
  unfold ofChannels at h
  dsimp only at h
  split at h
  · next hchannels =>
    split at h
    · next halpha =>
      cases h
      simp only [List.all_cons, List.all_nil, Bool.and_true, Bool.and_eq_true] at hchannels
      have hopacity : IsShare (alpha.getD (Scalar.ofInt 1)) := by
        cases alpha with
        | none => exact Scalar.isShare_one
        | some a => exact halpha
      exact inRange_iff.mpr ⟨isShare_div (by decide) hchannels.1,
        isShare_div (by decide) hchannels.2.1, isShare_div (by decide) hchannels.2.2, hopacity⟩
    · cases h
  · cases h

end MapStyle.Color
