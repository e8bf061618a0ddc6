import MapStyle.Proofs.Curve.Bisection
import MapStyle.Proofs.Scalar.Rational

/-!
# The parameter of an easing curve

`Cubic.solve` tries Newton's iteration and then bisects. `Cubic.Settles` is the same search with no bound
on the turns of the bisection. In exact arithmetic, rational or real, the search settles for every curve,
with the parameter that `Cubic.solve` has (`Cubic.settles_solve`), and this is a solution
(`Cubic.Settles.sound`): Newton's iteration may leave the unit interval or meet a flat place, but a
parameter that it does yield has been tested, and the bisection starts over from the whole interval.
-/

namespace MapStyle

open FieldScalar (ofField)

namespace Cubic

/-! ## The search without a bound -/

section

variable {N : Type} [Scalar N]

/-- The search for the parameter at which the cubic is `x`, with no bound on the turns of its bisection,
ends with a parameter. -/
inductive Settles (k : Cubic N) (x tolerance : N) : N → Prop
  | newton {t : N} : k.newton x tolerance 8 x = some t → Settles k x tolerance t
  | first : k.newton x tolerance 8 x = none → Scalar.less x (Scalar.ofInt 0) = true →
    Settles k x tolerance (Scalar.ofInt 0)
  | last : k.newton x tolerance 8 x = none → Scalar.less x (Scalar.ofInt 0) = false →
    Scalar.less (Scalar.ofInt 1) x = true → Settles k x tolerance (Scalar.ofInt 1)
  | bisection {t : N} : k.newton x tolerance 8 x = none → Scalar.less x (Scalar.ofInt 0) = false →
    Scalar.less (Scalar.ofInt 1) x = false →
    k.Bisects x tolerance ⟨Scalar.ofInt 0, Scalar.ofInt 1, x⟩ t → Settles k x tolerance t

end

/-! ## Newton's iteration -/

section

variable {K : Type} [Field K] [LinearOrder K] [IsStrictOrderedRing K] {N : Type} [Scalar N]
  [FieldScalar K N] {p q x ε t : K}

/-- A step stays in the field, because it divides by a slope that is not flat. -/
theorem newton_succ (p q x ε t : K) (steps : Nat) :
    (ofControls (ofField p) (ofField q)).newton (ofField x : N) (ofField ε) (steps + 1) (ofField t) =
      if |coordinate p q t - x| < ε then some (ofField t)
      else if |derivative p q t| < 1 * 10 ^ (-6 : ℤ) then none
      else (ofControls (ofField p) (ofField q)).newton (ofField x) (ofField ε) steps
        (ofField (t - (coordinate p q t - x) / derivative p q t)) := by
  rw [newton]
  dsimp only
  rw [slope_ofField, eval_ofField, FieldScalar.sub_eq, FieldScalar.abs_eq, FieldScalar.abs_eq,
    FieldScalar.ofDecimal_eq, Nat.cast_one]
  simp only [FieldScalar.less_iff]
  split
  · rfl
  split
  · rfl
  · next hsteep =>
    have hne : derivative p q t ≠ 0 := by
      intro hzero
      rw [hzero, abs_zero] at hsteep
      exact hsteep (by positivity)
    rw [FieldScalar.div_eq _ hne, FieldScalar.sub_eq]

/-- What the iteration yields has been tested. -/
theorem newton_sound {steps : Nat} {r : N}
    (h : (ofControls (ofField p) (ofField q)).newton (ofField x) (ofField ε) steps (ofField t) =
      some r) : ∃ s, r = ofField s ∧ |coordinate p q s - x| < ε := by
  induction steps generalizing t with
  | zero => cases h
  | succ steps ih =>
    rw [newton_succ] at h
    split at h
    · next hnear =>
      cases h
      exact ⟨t, rfl, hnear⟩
    split at h
    · cases h
    · exact ih h

theorem not_near_of_newton_eq_none {steps : Nat}
    (h : (ofControls (ofField p) (ofField q)).newton (ofField x : N) (ofField ε) (steps + 1)
      (ofField t) = none) : ¬|coordinate p q t - x| < ε := by
  intro hnear
  rw [newton_succ, if_pos hnear] at h
  cases h

/-- Where the iteration from `x` fails, `x` is no end of the unit interval, so that it lies inside. -/
theorem exists_enclosure (hx : x ∈ Set.Icc 0 1) (hε : 0 < ε)
    (h : (ofControls (ofField p) (ofField q)).newton (ofField x : N) (ofField ε) 8 (ofField x) =
      none) :
    ∃ e : Enclosure p q x, (e.bracket : Bracket N) = ⟨Scalar.ofInt 0, Scalar.ofInt 1, ofField x⟩ ∧
      e.Reaches 1 := by
  have hfar := not_near_of_newton_eq_none h
  have hzero : 0 ≠ x := by
    rintro rfl
    rw [coordinate_zero, sub_zero, abs_zero] at hfar
    exact hfar hε
  have hone : x ≠ 1 := by
    rintro rfl
    rw [coordinate_one, sub_self, abs_zero] at hfar
    exact hfar hε
  refine ⟨{
    lo := 0
    hi := 1
    t := x
    lo_nonneg := le_rfl
    lo_lt := lt_of_le_of_ne hx.1 hzero
    lt_hi := lt_of_le_of_ne hx.2 hone
    hi_le_one := le_rfl
    below := (coordinate_zero p q).trans_le hx.1
    above := hx.2.trans_eq (coordinate_one p q).symm }, ?_, ?_⟩
  · rw [FieldScalar.ofInt_eq, FieldScalar.ofInt_eq, Int.cast_zero, Int.cast_one]
    rfl
  · exact ⟨(sub_zero x).trans_le hx.2, sub_le_self 1 hx.1⟩

/-! ## The whole search -/

theorem not_less_zero (hx : x ∈ Set.Icc 0 1) :
    Scalar.less (ofField x : N) (Scalar.ofInt 0) = false := by
  rw [FieldScalar.ofInt_eq, Int.cast_zero, Bool.eq_false_iff, Ne, FieldScalar.less_iff, not_lt]
  exact hx.1

theorem not_one_less (hx : x ∈ Set.Icc 0 1) :
    Scalar.less (Scalar.ofInt 1 : N) (ofField x) = false := by
  rw [FieldScalar.ofInt_eq, Int.cast_one, Bool.eq_false_iff, Ne, FieldScalar.less_iff, not_lt]
  exact hx.2

/-- The search ends by itself, with the parameter that the bounded one has. -/
theorem settles_solve (hx : x ∈ Set.Icc 0 1) (hε : 0 < ε) :
    (ofControls (ofField p : N) (ofField q)).Settles (ofField x) (ofField ε)
      ((ofControls (ofField p) (ofField q)).solve (ofField x) (ofField ε)) := by
  unfold solve
  split
  · next t hnewton => exact .newton hnewton
  · next hnewton =>
    dsimp only
    rw [not_less_zero hx, not_one_less hx, if_neg Bool.false_ne_true, if_neg Bool.false_ne_true]
    refine .bisection hnewton (not_less_zero hx) (not_one_less hx) ?_
    obtain ⟨e, hbracket, hreach⟩ := exists_enclosure hx hε hnewton
    have hends := e.bisects_bisect (N := N) (ε := ε) 63 hreach (by norm_num)
    rw [hbracket] at hends
    exact hends

theorem Settles.sound {r : N} (hx : x ∈ Set.Icc 0 1) (hε : 0 < ε)
    (h : (ofControls (ofField p) (ofField q)).Settles (ofField x) (ofField ε) r) :
    ∃ t, r = ofField t ∧ IsSolution p q x ε (1 / 2 ^ 52) t := by
  cases h with
  | newton hnewton =>
    obtain ⟨t, rfl, hnear⟩ := newton_sound hnewton
    exact ⟨t, rfl, .inl hnear⟩
  | first _ hless =>
    rw [not_less_zero hx] at hless
    cases hless
  | last _ _ hless =>
    rw [not_one_less hx] at hless
    cases hless
  | bisection hnewton _ _ hends =>
    obtain ⟨e, hbracket, -⟩ := exists_enclosure hx hε hnewton
    rw [← hbracket] at hends
    exact hends.sound

end

end Cubic

namespace UnitBezier

/-- A curve with its control points in another form. -/
def map {M N : Type} (f : M → N) (easing : UnitBezier M) : UnitBezier N :=
  ⟨f easing.x1, f easing.y1, f easing.x2, f easing.y2⟩

/-- In exact arithmetic over an ordered field, such as that of the rational numbers, the search for the
parameter of an easing settles without a bound on its turns, for every curve and every `x` between zero
and one. At the parameter that it settles with the horizontal coordinate is within the tolerance of
`x`, or else the parameter lies in a bracket narrower than `2 ^ -52` inside the unit interval, at whose
ends the coordinate is on either side of `x`. -/
theorem horizontal_solve_settles {K : Type} [Field K] [LinearOrder K] [IsStrictOrderedRing K]
    (N : Type) [Scalar N] [FieldScalar K N] (easing : UnitBezier K) {x ε : K}
    (hx : x ∈ Set.Icc 0 1) (hε : 0 < ε) :
    let k : Cubic N := (easing.map ofField).horizontal
    (∀ t, k.eval (ofField t) = ofField (Cubic.coordinate easing.x1 easing.x2 t)) ∧
      k.Settles (ofField x) (ofField ε) (k.solve (ofField x) (ofField ε)) ∧
      ∃ t, k.solve (ofField x) (ofField ε) = ofField t ∧
        Cubic.IsSolution easing.x1 easing.x2 x ε (1 / 2 ^ 52) t := by
  intro k
  have hsettles := Cubic.settles_solve (N := N) (p := easing.x1) (q := easing.x2) hx hε
  exact ⟨Cubic.eval_ofField _ _, hsettles, hsettles.sound hx hε⟩

section

open scoped RationalScalar

/-- A coordinate that rises above one and comes back. Newton's iteration gives up at once, where it is
flat, and five turns of bisection are needed. -/
theorem horizontal_solve_settles_flat :
    let easing : UnitBezier ℚ := ⟨2, 0, 1, 1⟩
    ((1 / 2 : ℚ) ∈ Set.Icc 0 1 ∧ (0 : ℚ) < 1 / 16) ∧
      easing.horizontal.newton (1 / 2) (1 / 16) 8 (1 / 2) = none ∧
      easing.horizontal.Settles (1 / 2) (1 / 16) (3 / 32) ∧
      Cubic.IsSolution 2 1 (1 / 2) (1 / 16) (1 / 2 ^ 52) (3 / 32 : ℚ) := by
  intro easing
  have hx : (1 / 2 : ℚ) ∈ Set.Icc 0 1 := by constructor <;> norm_num
  have hε : (0 : ℚ) < 1 / 16 := by norm_num
  have hsolve : easing.horizontal.solve (1 / 2) (1 / 16) = 3 / 32 := by decide +kernel
  obtain ⟨-, hsettles, t, ht, hsolution⟩ := horizontal_solve_settles ℚ easing hx hε
  obtain rfl : 3 / 32 = t := hsolve.symm.trans ht
  refine ⟨⟨hx, hε⟩, by decide +kernel, ?_, hsolution⟩
  rw [← hsolve]
  exact hsettles

end

end UnitBezier

end MapStyle
