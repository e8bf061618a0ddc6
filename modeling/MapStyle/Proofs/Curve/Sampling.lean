import MapStyle.Proofs.Curve.Reading
import MapStyle.Proofs.Curve.Shares
import MapStyle.Proofs.Expr.Canonical

/-!
# Curves sampled at their stops

A curve over numbers may be sampled at two neighbouring stops and blended in between by whoever asks
for it, with the factor of its interpolation. In exact arithmetic this agrees with the curve.

* `Interpolation.factor_self`: the factor at the lower stop is zero, for all interpolations.
* `Curve.Exact.sample_between`: between two stops the curve blends the outputs of the two.
* `Curve.Exact.sample_at`: at a stop the curve has its output, although it blends it with the next.
-/

namespace MapStyle

open ExactScalar (ofReal)

/-! ## Factors at the lower stop -/

/-- A coordinate starts at zero. -/
theorem Cubic.eval_zero {N : Type} [Scalar N] [ExactScalar N] (p q : ℝ) :
    (Cubic.ofControls (ofReal p) (ofReal q)).eval (Scalar.ofInt 0 : N) = Scalar.ofInt 0 := by
  unfold Cubic.ofControls Cubic.eval
  simp only [ExactScalar.ofInt_eq, ExactScalar.mul_eq, ExactScalar.sub_eq, ExactScalar.add_eq]
  rw [Int.cast_zero, mul_zero]

section

variable {N : Type} [Scalar N] [ExactDecimals N]

/-- Where the search starts at zero, the first step of Newton's iteration ends it. -/
theorem Cubic.solve_zero (p q : ℝ) :
    (Cubic.ofControls (ofReal p) (ofReal q)).solve (Scalar.ofInt 0 : N) (Scalar.ofDecimal 1 (-6)) =
      Scalar.ofInt 0 := by
  have hnear : Scalar.less (Scalar.abs (Scalar.ofInt 0 - Scalar.ofInt 0 : N))
      (Scalar.ofDecimal 1 (-6)) = true := by
    rw [ExactScalar.ofInt_eq, ExactScalar.sub_eq, ExactDecimals.abs_eq, ExactDecimals.ofDecimal_eq,
      Scalar.less_ofReal]
    norm_num
  have hnewton : (Cubic.ofControls (ofReal p) (ofReal q)).newton (Scalar.ofInt 0 : N)
      (Scalar.ofDecimal 1 (-6)) 8 (Scalar.ofInt 0) = some (Scalar.ofInt 0) := by
    rw [Cubic.newton, Cubic.eval_zero]
    exact if_pos hnear
  unfold Cubic.solve
  rw [hnewton]

theorem UnitBezier.solve_zero {easing : UnitBezier N}
    (h : ∀ x ∈ easing.controls, Scalar.isFinite x = true) :
    easing.solve (Scalar.ofInt 0) (Scalar.ofDecimal 1 (-6)) = Scalar.ofInt 0 := by
  obtain ⟨x1, y1, x2, y2⟩ := easing
  simp only [controls, List.forall_mem_cons] at h
  obtain ⟨hx1, hy1, hx2, hy2, -⟩ := h
  obtain ⟨x1, rfl⟩ := ExactScalar.exists_of_isFinite hx1
  obtain ⟨y1, rfl⟩ := ExactScalar.exists_of_isFinite hy1
  obtain ⟨x2, rfl⟩ := ExactScalar.exists_of_isFinite hx2
  obtain ⟨y2, rfl⟩ := ExactScalar.exists_of_isFinite hy2
  unfold solve horizontal vertical
  rw [Cubic.solve_zero, Cubic.eval_zero]

namespace Interpolation

/-- Whether the powers of an interpolation are of a base that is not negative. -/
def HasPowers (kind : Interpolation N) : Prop :=
  ∀ base, kind = .exponential base → Scalar.atMost (Scalar.ofInt 0) base = true

omit [ExactDecimals N] in
theorem exponentialFactor_self [ExactScalar N] {b l u : ℝ} (hb : 0 ≤ b) (hlu : l < u) :
    exponentialFactor (ofReal b) (ofReal l) (ofReal l) (ofReal u) = (Scalar.ofInt 0 : N) := by
  have hd : u - l ≠ 0 := sub_ne_zero.mpr hlu.ne'
  unfold exponentialFactor
  simp only [ExactScalar.sub_eq, ExactScalar.ofInt_eq, Int.cast_zero, Int.cast_one,
    Scalar.isZero_ofReal, Scalar.beq_ofReal, if_neg hd, sub_self]
  split
  · rw [ExactScalar.div_eq _ hd, zero_div]
  · next hone =>
    obtain ⟨hne, -⟩ := power_share_mem hb hone le_rfl (sub_pos.mpr hlu)
    rw [ExactScalar.power_eq _ hb, ExactScalar.power_eq _ hb, ExactScalar.sub_eq,
      ExactScalar.sub_eq, ExactScalar.div_eq _ hne, Real.rpow_zero, sub_self, zero_div]

/-- At the lower stop nothing of the way is done. -/
theorem factor_self {kind : Interpolation N}
    (hfinite : ∀ x ∈ kind.parameters, Scalar.isFinite x = true) (hpowers : kind.HasPowers) {l u : ℝ}
    (hlu : l < u) :
    kind.factor (ofReal l) (ofReal l) (ofReal u) = Scalar.ofInt 0 := by
  have hlinear : linearFactor (ofReal l) (ofReal l) (ofReal u) = (Scalar.ofInt 0 : N) := by
    unfold linearFactor
    rw [ExactScalar.ofInt_eq 1, Int.cast_one]
    exact exponentialFactor_self zero_le_one hlu
  cases kind with
  | step => rfl
  | linear => exact hlinear
  | exponential base =>
    obtain ⟨b, rfl⟩ := ExactScalar.exists_of_isFinite (hfinite base List.mem_cons_self)
    have hb := hpowers (ofReal b) rfl
    rw [ExactScalar.ofInt_eq, ExactScalar.atMost_iff, Int.cast_zero] at hb
    exact exponentialFactor_self hb hlu
  | cubicBezier easing =>
    show easing.solve (linearFactor _ _ _) _ = _
    rw [hlinear, UnitBezier.solve_zero hfinite]

end Interpolation

end

/-! ## Samples -/

namespace Curve

variable {N : Type} [Scalar N]

/-- A blend by none of the way is the lower number. -/
theorem blendNumber_zero [ExactScalar N] (a b : ℝ) :
    blendNumber (ofReal a) (ofReal b) (Scalar.ofInt 0) = (ofReal a : N) := by
  unfold blendNumber
  simp only [ExactScalar.ofInt_eq, ExactScalar.sub_eq, ExactScalar.mul_eq, ExactScalar.add_eq]
  congr 1
  norm_num

section

variable {kind : Interpolation N} {rows : List (N × N)} {x : N} {i : Nat} {row lower upper : N × N}

/-- The value at `x` of a curve with the given stops and numbers. -/
def sample (kind : Interpolation N) (rows : List (N × N)) (x : N) : Outcome N (Value N) :=
  evaluate kind .number (rows.map (·.1)) (rows.map fun row => .ok (.number row.2)) (.number x)

omit [Scalar N] in
theorem getElem?_outputs (hrow : rows[i]? = some row) :
    (rows.map fun row => (.ok (.number row.2) : Outcome N (Value N)))[i]? =
      some (.ok (.number row.2)) := by
  rw [List.getElem?_map, hrow]
  rfl

theorem sample_of_only (hselect : select kind (rows.map (·.1)) x = .only i)
    (hrow : rows[i]? = some row) : sample kind rows x = .ok (.number row.2) :=
  evaluate_of_only .number (by simp only [List.length_map]) hselect (getElem?_outputs hrow)

theorem sample_of_between {t : N} (hselect : select kind (rows.map (·.1)) x = .between i t)
    (hlower : rows[i]? = some lower) (hupper : rows[i + 1]? = some upper) :
    sample kind rows x = .ok (.number (blendNumber lower.2 upper.2 t)) :=
  evaluate_of_between .number (by simp only [List.length_map]) hselect (getElem?_outputs hlower)
    (getElem?_outputs hupper)

end

section

variable [ExactDecimals N]

/-- Whether the stops of a curve ascend, its numbers are finite and its powers have real values. -/
structure Exact (kind : Interpolation N) (rows : List (N × N)) : Prop where
  ascending : Ascending (rows.map (·.1))
  stops : ∀ row ∈ rows, Scalar.isFinite row.1 = true
  outputs : ∀ row ∈ rows, Scalar.isFinite row.2 = true
  parameters : ∀ x ∈ kind.parameters, Scalar.isFinite x = true
  powers : kind.HasPowers

variable {kind : Interpolation N} {rows : List (N × N)} {x : N} {i : Nat} {row lower upper : N × N}

omit [Scalar N] [ExactDecimals N] in
theorem getElem?_stops (hrow : rows[i]? = some row) : (rows.map (·.1))[i]? = some row.1 := by
  rw [List.getElem?_map, hrow]
  rfl

/-- At the lower stop, the blend with the next output is the output of the stop. -/
theorem Exact.blend_self (h : Exact kind rows) (hlower : rows[i]? = some lower)
    (hupper : rows[i + 1]? = some upper) :
    kind.factor lower.1 lower.1 upper.1 = Scalar.ofInt 0 ∧
      blendNumber lower.2 upper.2 (Scalar.ofInt 0) = lower.2 := by
  have hless := h.ascending.less (getElem?_stops hlower) (getElem?_stops hupper) (Nat.lt_succ_self i)
  obtain ⟨l, hl⟩ := ExactScalar.exists_of_isFinite (h.stops lower (List.mem_of_getElem? hlower))
  obtain ⟨u, hu⟩ := ExactScalar.exists_of_isFinite (h.stops upper (List.mem_of_getElem? hupper))
  obtain ⟨a, ha⟩ := ExactScalar.exists_of_isFinite (h.outputs lower (List.mem_of_getElem? hlower))
  obtain ⟨b, hb⟩ := ExactScalar.exists_of_isFinite (h.outputs upper (List.mem_of_getElem? hupper))
  rw [hl, hu, Scalar.less_ofReal] at hless
  rw [hl, hu, ha, hb]
  exact ⟨Interpolation.factor_self h.parameters h.powers hless, blendNumber_zero a b⟩

/-- Between two stops a curve blends the outputs of the two, a step curve by none of the way. -/
theorem Exact.sample_between (h : Exact kind rows) (hlower : rows[i]? = some lower)
    (hupper : rows[i + 1]? = some upper) (hlo : Scalar.atMost lower.1 x = true)
    (hhi : Scalar.less x upper.1 = true) : sample kind rows x =
      .ok (.number (blendNumber lower.2 upper.2 (kind.factor x lower.1 upper.1))) := by
  have hbetween : Between (rows.map (·.1)) x i :=
    ⟨lower.1, upper.1, getElem?_stops hlower, getElem?_stops hupper, hlo, hhi⟩
  obtain ⟨hfactor, hblend⟩ := h.blend_self hlower hupper
  have hlength : (rows.map (·.1)).length ≠ 1 := by
    have hlt := hbetween.lt
    omega
  by_cases hfirst : (rows.map (·.1)).length = 1 ∨
      (rows.map (·.1)).head?.any (Scalar.atMost x) = true
  · -- The first stop itself is no case of a blend.
    have hhead := hfirst.resolve_left hlength
    obtain rfl := index_eq_zero_of_head h.ascending hhead (getElem?_stops hlower) hlo
    obtain rfl : x = lower.1 := by
      refine Scalar.eq_of_atMost (h.stops lower (List.mem_of_getElem? hlower)) hlo ?_
      rwa [List.head?_eq_getElem?, getElem?_stops hlower] at hhead
    rw [sample_of_only (select_eq_first hfirst) hlower, hfactor, hblend]
  · by_cases hstep : kind = .step
    · subst hstep
      have hselect := select_step_eq hbetween h.ascending hfirst
      rw [sample_of_only hselect hlower, Interpolation.factor, hblend]
    · have hselect := select_eq_between hbetween h.ascending hfirst hstep (getElem?_stops hlower)
        (getElem?_stops hupper)
      exact sample_of_between hselect hlower hupper

/-- At a stop a curve has the output of the stop. -/
theorem Exact.sample_at (h : Exact kind rows) (hrow : rows[i]? = some row) :
    sample kind rows row.1 = .ok (.number row.2) := by
  have hself : Scalar.atMost row.1 row.1 = true := by
    obtain ⟨x, hx⟩ := ExactScalar.exists_of_isFinite (h.stops row (List.mem_of_getElem? hrow))
    rw [hx, ExactScalar.atMost_iff]
  cases hnext : rows[i + 1]? with
  | some next =>
    obtain ⟨hfactor, hblend⟩ := h.blend_self hrow hnext
    have hless := h.ascending.less (getElem?_stops hrow) (getElem?_stops hnext) (Nat.lt_succ_self i)
    rw [h.sample_between hrow hnext hself hless, hfactor, hblend]
  | none =>
    -- The last stop, which may be the only one.
    have hlast : i = rows.length - 1 := by
      obtain ⟨hlt, -⟩ := List.getElem?_eq_some_iff.mp hrow
      rw [List.getElem?_eq_none_iff] at hnext
      omega
    by_cases hfirst : (rows.map (·.1)).length = 1 ∨
        (rows.map (·.1)).head?.any (Scalar.atMost row.1) = true
    · have hzero : i = 0 := by
        rcases hfirst with hlength | hhead
        · rw [List.length_map] at hlength
          omega
        · exact index_eq_zero_of_head h.ascending hhead (getElem?_stops hrow) hself
      rw [hzero] at hrow
      exact sample_of_only (select_eq_first hfirst) hrow
    · have hend : (rows.map (·.1)).getLast?.any (Scalar.atMost · row.1) = true := by
        rw [List.getLast?_eq_getElem?, List.length_map, ← hlast, getElem?_stops hrow]
        exact hself
      have hselect : select kind (rows.map (·.1)) row.1 = .only i := by
        rw [select_eq_last hfirst hend, List.length_map, hlast]
      exact sample_of_only hselect hrow

end

end Curve

end MapStyle
