import MapStyle.Curve.Evaluation
import MapStyle.Proofs.Color.Css
import MapStyle.Proofs.Curve.Search
import MapStyle.Proofs.Evaluation.Outcome
import MapStyle.Proofs.Value.Colors

/-!
# Curves that blend by shares

Between two stops an interpolation says how far the output is on its way. Linear and step curves move
over shares of the way, and so does an exponential curve unless its base is negative; an easing may
overshoot (`Interpolation.GivesShares`). Where the factor is a share, a blend of colors in range is in
range (`Curve.inRange_blendColor`).

* `Curve.isShare_of_select`: the factor that a curve of ascending stops selects is a share.
* `Curve.exists_of_evaluate`: the value of a curve is an output or a blend of two.
-/

namespace MapStyle

open Scalar (IsShare isShare_iff isShare_ofReal)
open ExactScalar (ofReal)

/-- Powers of a base that is not negative run from the power at the one end to that at the other, in
either direction. -/
theorem power_share_mem {b p d : ℝ} (hb : 0 ≤ b) (hone : b ≠ 1) (hp : 0 ≤ p) (hpd : p < d) :
    b ^ d - 1 ≠ 0 ∧ (b ^ p - 1) / (b ^ d - 1) ∈ Set.Icc (0 : ℝ) 1 := by
  rcases lt_or_gt_of_ne hone with hlt | hgt
  · have hd : b ^ d - 1 < 0 := sub_neg.mpr (Real.rpow_lt_one hb hlt (hp.trans_lt hpd))
    have hpower : b ^ d ≤ b ^ p := Real.rpow_le_rpow_of_exponent_ge' hb hlt.le hp hpd.le
    have hp' : b ^ p - 1 ≤ 0 := sub_nonpos.mpr (Real.rpow_le_one hb hlt.le hp)
    exact ⟨hd.ne, div_nonneg_of_nonpos hp' hd.le,
      (div_le_one_of_neg hd).mpr (sub_le_sub_right hpower 1)⟩
  · have hd : 0 < b ^ d - 1 := sub_pos.mpr (Real.one_lt_rpow hgt (hp.trans_lt hpd))
    have hpower : b ^ p ≤ b ^ d := Real.rpow_le_rpow_of_exponent_le hgt.le hpd.le
    have hp' : 0 ≤ b ^ p - 1 := sub_nonneg.mpr (Real.one_le_rpow hgt.le hp)
    exact ⟨hd.ne', div_nonneg hp' hd.le, (div_le_one hd).mpr (sub_le_sub_right hpower 1)⟩

/-- A coordinate whose controls are shares is a share at every share of the parameter. -/
theorem Cubic.isShare_eval {N : Type} [Scalar N] [ExactScalar N] {p q t : N} (hp : IsShare p)
    (hq : IsShare q) (ht : IsShare t) : IsShare ((Cubic.ofControls p q).eval t) := by
  obtain ⟨p, ⟨hp0, hp1⟩, rfl⟩ := isShare_iff.mp hp
  obtain ⟨q, ⟨hq0, hq1⟩, rfl⟩ := isShare_iff.mp hq
  obtain ⟨t, ⟨ht0, ht1⟩, rfl⟩ := isShare_iff.mp ht
  have hrest : 0 ≤ 1 - t := sub_nonneg.mpr ht1
  have hp' : 0 ≤ t * (1 - t) ^ 2 := by positivity
  have hq' : 0 ≤ t ^ 2 * (1 - t) := by positivity
  have hmem : 3 * p * (t * (1 - t) ^ 2) + 3 * q * (t ^ 2 * (1 - t)) + t ^ 3 ∈
      Set.Icc (0 : ℝ) 1 := by
    constructor
    · positivity
    · calc 3 * p * (t * (1 - t) ^ 2) + 3 * q * (t ^ 2 * (1 - t)) + t ^ 3
          ≤ 3 * 1 * (t * (1 - t) ^ 2) + 3 * 1 * (t ^ 2 * (1 - t)) + t ^ 3 := by gcongr
        _ = 1 - (1 - t) ^ 3 := by ring
        _ ≤ 1 := sub_le_self 1 (pow_nonneg hrest 3)
  unfold Cubic.ofControls Cubic.eval
  simp only [ExactScalar.ofInt_eq, Int.cast_ofNat, Int.cast_one, ExactScalar.mul_eq,
    ExactScalar.sub_eq, ExactScalar.add_eq]
  convert isShare_ofReal hmem using 2
  ring

namespace Interpolation

variable {N : Type} [Scalar N]

/-- Whether an interpolation moves over shares of the way only. A base below zero and an easing that
overshoots do not. -/
def GivesShares : Interpolation N → Prop
  | .step | .linear => True
  | .exponential base => Scalar.atMost (Scalar.ofInt 0) base = true
  | .cubicBezier easing => ∀ share, IsShare share →
    IsShare (easing.solve share (Scalar.ofDecimal 1 (-6)))

variable [ExactScalar N]

/-- An easing whose vertical controls are shares gives shares, where its search ends at shares. -/
theorem givesShares_cubicBezier {easing : UnitBezier N} (hy1 : IsShare easing.y1)
    (hy2 : IsShare easing.y2) (hsolve : ∀ share, IsShare share →
      IsShare (easing.horizontal.solve share (Scalar.ofDecimal 1 (-6)))) :
    (cubicBezier easing).GivesShares :=
  fun share hshare => Cubic.isShare_eval hy1 hy2 (hsolve share hshare)

theorem isShare_exponentialFactor {b x l u : ℝ} (hb : 0 ≤ b) (hlx : l ≤ x) (hxu : x < u) :
    IsShare (exponentialFactor (ofReal b) (ofReal x) (ofReal l) (ofReal u) : N) := by
  have hd : u - l ≠ 0 := by linarith
  unfold exponentialFactor
  simp only [ExactScalar.sub_eq, ExactScalar.ofInt_eq, Int.cast_zero, Int.cast_one,
    Scalar.isZero_ofReal, Scalar.beq_ofReal, if_neg hd]
  split
  · rw [ExactScalar.div_eq _ hd]
    exact isShare_ofReal ⟨div_nonneg (by linarith) (by linarith),
      div_le_one_of_le₀ (by linarith) (by linarith)⟩
  · next hone =>
    obtain ⟨hne, hmem⟩ :=
      power_share_mem hb hone (p := x - l) (d := u - l) (by linarith) (by linarith)
    rw [ExactScalar.power_eq _ hb, ExactScalar.power_eq _ hb, ExactScalar.sub_eq,
      ExactScalar.sub_eq, ExactScalar.div_eq _ hne]
    exact isShare_ofReal hmem

/-- Between two stops the factor is a share of the way. -/
theorem isShare_factor {kind : Interpolation N} (hkind : kind.GivesShares)
    (hbase : ∀ base, kind = .exponential base → Scalar.isFinite base = true) {x l u : ℝ}
    (hlx : l ≤ x) (hxu : x < u) :
    IsShare (kind.factor (ofReal x) (ofReal l) (ofReal u) : N) := by
  have hlinear : IsShare (linearFactor (ofReal x) (ofReal l) (ofReal u) : N) := by
    unfold linearFactor
    rw [ExactScalar.ofInt_eq, Int.cast_one]
    exact isShare_exponentialFactor zero_le_one hlx hxu
  cases kind with
  | step => exact Scalar.isShare_zero
  | linear => exact hlinear
  | exponential base =>
    obtain ⟨b, rfl⟩ := ExactScalar.exists_of_isFinite (hbase base rfl)
    have hb : Scalar.atMost (ofReal ((0 : ℤ) : ℝ)) (ofReal b : N) = true :=
      ExactScalar.ofInt_eq (N := N) 0 ▸ hkind
    rw [ExactScalar.atMost_iff, Int.cast_zero] at hb
    exact isShare_exponentialFactor hb hlx hxu
  | cubicBezier easing => exact hkind _ hlinear

end Interpolation

namespace Curve

variable {N : Type} [Scalar N]

/-! ## The factor selected -/

/-- Where two outputs are selected, the input lies between their stops, and the factor is that of the
interpolation there. -/
theorem between_of_select [LawfulOrder N] {kind : Interpolation N} {stops : List N} {x t : N}
    {index : Nat} (hstops : Ascending stops) (hx : (x == x) = true)
    (h : select kind stops x = .between index t) :
    ∃ lower upper, stops[index]? = some lower ∧ stops[index + 1]? = some upper ∧
      Scalar.atMost lower x = true ∧ Scalar.less x upper = true ∧
      t = kind.factor x lower upper := by
  unfold select at h
  dsimp only at h
  split at h
  · cases h
  next hfirst =>
  split at h
  · cases h
  next hlast =>
  cases stops with
  | nil => cases kind <;> cases h
  | cons first rest =>
    cases rest with
    | nil => exact absurd (.inl rfl) hfirst
    | cons second rest =>
      have hless := (List.pairwise_cons.mp hstops).1 second List.mem_cons_self
      have hself := (LawfulOrder.self_of_less hless).1
      have hlower : Scalar.atMost first x = true :=
        Scalar.atMost_of_less (Scalar.less_of_not_atMost hself hx
          (Bool.eq_false_iff.mpr fun hle => hfirst (.inr hle)))
      obtain ⟨i, hbetween⟩ := (exists_between hx hstops hlower).resolve_left hlast
      rw [findStop_eq_of_between hbetween hstops] at h
      obtain ⟨lower, upper, hl, hu, hle, hlt⟩ := hbetween
      rw [hl, hu] at h
      cases kind with
      | step => cases h
      | _ =>
        cases h
        exact ⟨lower, upper, hl, hu, hle, hlt, rfl⟩

/-- The factors of an interpolation that gives shares are shares, at every input that is a number. -/
theorem isShare_of_select [ExactScalar N] {kind : Interpolation N} (hkind : kind.GivesShares)
    (hbase : ∀ base, kind = .exponential base → Scalar.isFinite base = true) {stops : List N}
    (hfinite : ∀ s ∈ stops, Scalar.isFinite s = true)
    (hstops : stops.IsChain fun x y => Scalar.atMost y x = false) {x t : N} {index : Nat}
    (hx : (x == x) = true) (h : select kind stops x = .between index t) : IsShare t := by
  have hself : ∀ s ∈ stops, (s == s) = true :=
    fun s hs => Scalar.beq_self_of_isFinite (hfinite s hs)
  obtain ⟨lower, upper, hl, hu, hle, hlt, rfl⟩ :=
    between_of_select (ascending_of_isChain hself hstops) hx h
  obtain ⟨l, rfl⟩ := ExactScalar.exists_of_isFinite (hfinite lower (List.mem_of_getElem? hl))
  obtain ⟨u, rfl⟩ := ExactScalar.exists_of_isFinite (hfinite upper (List.mem_of_getElem? hu))
  obtain ⟨r, rfl⟩ := ExactScalar.exists_of_between hle (Scalar.atMost_of_less hlt)
  exact Interpolation.isShare_factor hkind hbase (ExactScalar.atMost_iff.mp hle)
    (Scalar.less_ofReal.mp hlt)

/-! ## Blends -/

theorem isShare_blendNumber [ExactScalar N] {lower upper t : N} (hlower : IsShare lower)
    (hupper : IsShare upper) (ht : IsShare t) : IsShare (blendNumber lower upper t) := by
  obtain ⟨p, hp, rfl⟩ := isShare_iff.mp hlower
  obtain ⟨q, hq, rfl⟩ := isShare_iff.mp hupper
  obtain ⟨s, hs, rfl⟩ := isShare_iff.mp ht
  unfold blendNumber
  rw [ExactScalar.ofInt_eq, Int.cast_one, ExactScalar.sub_eq, ExactScalar.mul_eq,
    ExactScalar.mul_eq, ExactScalar.add_eq]
  exact isShare_ofReal (Scalar.mix_mem hp hq hs)

/-- A color a share of the way between two colors in range is in range. -/
theorem inRange_blendColor [ExactScalar N] {lower upper : Color N} {t : N}
    (hlower : lower.inRange = true) (hupper : upper.inRange = true) (ht : IsShare t) :
    (blendColor lower upper t).inRange = true := by
  rw [Color.inRange_iff] at *
  exact ⟨isShare_blendNumber hlower.1 hupper.1 ht,
    isShare_blendNumber hlower.2.1 hupper.2.1 ht,
    isShare_blendNumber hlower.2.2.1 hupper.2.2.1 ht,
    isShare_blendNumber hlower.2.2.2 hupper.2.2.2 ht⟩

theorem inRange_of_blendItems {t : N} {lower upper items : List (Value N)}
    (h : blendItems t lower upper = .ok items) : ∀ w ∈ items, w.InRange := by
  fun_induction blendItems t lower upper generalizing items with
  | case1 a lower b upper ih =>
    obtain ⟨rest, hrest, h⟩ := Outcome.bind_eq_ok h
    cases h
    exact List.forall_mem_cons.mpr ⟨Value.inRange_of_isPrimitive rfl, ih hrest⟩
  | case2 => cases h
  | case3 =>
    cases h
    exact fun w hw => absurd hw List.not_mem_nil

/-- A blend has colors in range, if colors are blended by a share. -/
theorem inRange_of_blend [ExactScalar N] {kind : OutputKind} {lower upper v : Value N} {t : N}
    (hlower : lower.InRange) (hupper : upper.InRange) (ht : kind = .color → IsShare t)
    (h : blend kind lower upper t = .ok v) : v.InRange := by
  unfold blend at h
  split at h
  · cases h
    exact Value.inRange_of_isPrimitive rfl
  · cases h
    exact Value.inRange_color.mpr (inRange_blendColor (Value.inRange_color.mp hlower)
      (Value.inRange_color.mp hupper) (ht rfl))
  · obtain ⟨items, hitems, h⟩ := Outcome.bind_eq_ok h
    cases h
    unfold blendArray at hitems
    split at hitems
    · exact Value.inRange_array.mpr (inRange_of_blendItems hitems)
    · cases hitems
  · cases h

/-! ## The outputs of a curve -/

/-- A curve has the value of one of its outputs, or a blend of two by the factor selected. -/
theorem exists_of_evaluate {kind : Interpolation N} {outputKind : OutputKind} {stops : List N}
    {outputs : List (Outcome N (Value N))} {input v : Value N}
    (h : evaluate kind outputKind stops outputs input = .ok v) :
    .ok v ∈ outputs ∨ ∃ x index t lower upper, input = .number x ∧
      select kind stops x = .between index t ∧ .ok lower ∈ outputs ∧ .ok upper ∈ outputs ∧
      blend outputKind lower upper t = .ok v := by
  have houtput {index : Nat} {a : Value N} (ha : output outputs index = .ok a) :
      .ok a ∈ outputs := by
    unfold output at ha
    cases hget : outputs[index]? with
    | none =>
      rw [hget] at ha
      cases ha
    | some o =>
      rw [hget] at ha
      obtain rfl : o = .ok a := ha
      exact List.mem_of_getElem? hget
  unfold evaluate at h
  split at h
  · next x =>
    split at h
    · cases h
    · cases hselect : select kind stops x with
      | only index =>
        rw [hselect] at h
        exact .inl (houtput h)
      | between index t =>
        rw [hselect] at h
        obtain ⟨lower, hlower, h⟩ := Outcome.bind_eq_ok h
        obtain ⟨upper, hupper, h⟩ := Outcome.bind_eq_ok h
        refine .inr ⟨x, index, t, lower, upper, rfl, hselect, houtput hlower, houtput hupper, ?_⟩
        cases hblend : blend outputKind lower upper t with
        | ok w =>
          rw [hblend] at h
          exact h
        | error failure =>
          rw [hblend] at h
          cases h
  · cases h

end Curve

end MapStyle
