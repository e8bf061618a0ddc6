import Mathlib.Tactic.Linarith
import Mathlib.Tactic.Ring
import MapStyle.Curve.Bezier
import MapStyle.Proofs.Scalar.Field

/-!
# Bisection ends

`Cubic.bisect` halves a bracket in a bounded number of turns. `Cubic.Bisects` is the same loop without a
bound: it relates a bracket to the parameter that the loop ends with, if it does end. In exact arithmetic
it does (`Enclosure.bisects_bisect`), because each turn halves the part of the bracket on either side of
the parameter looked at. The parameter is good (`Cubic.Bisects.sound`), because the cubic is on either
side of the value looked for at the ends of the bracket. Neither asks for a cubic that rises all the way.
-/

namespace MapStyle

open FieldScalar (ofField)

/-- The bracket left of a bisection, and the parameter to look at next. -/
structure Bracket (N : Type) where
  lo : N
  hi : N
  t : N

namespace Bracket

variable {N : Type} [Scalar N]

/-- The side of the bracket that is left after a turn, and its middle. -/
def next (k : Cubic N) (x : N) (b : Bracket N) : Bracket N :=
  let lo := if Scalar.less (k.eval b.t) x then b.t else b.lo
  let hi := if Scalar.less (k.eval b.t) x then b.hi else b.t
  ⟨lo, hi, (hi - lo) * (Scalar.ofInt 1 / Scalar.ofInt 2) + lo⟩

def isOpen (b : Bracket N) : Bool := Scalar.less b.lo b.hi

def isNarrow (b : Bracket N) : Bool := Scalar.less (Scalar.abs (b.hi - b.lo)) Cubic.narrow

end Bracket

namespace Cubic

section

variable {N : Type} [Scalar N]

/-- Whether the cubic is within the tolerance of `x` at `t`. -/
def isNear (k : Cubic N) (x tolerance t : N) : Bool :=
  Scalar.less (Scalar.abs (k.eval t - x)) tolerance

/-- The bisection from a bracket, with no bound on its turns, ends with a parameter. -/
inductive Bisects (k : Cubic N) (x tolerance : N) : Bracket N → N → Prop
  | empty {b : Bracket N} : b.isOpen = false → Bisects k x tolerance b b.t
  | near {b : Bracket N} : b.isOpen = true → k.isNear x tolerance b.t = true →
    Bisects k x tolerance b b.t
  | narrow {b : Bracket N} : b.isOpen = true → k.isNear x tolerance b.t = false →
    (b.next k x).isNarrow = true → Bisects k x tolerance b (b.next k x).t
  | turn {b : Bracket N} {r : N} : b.isOpen = true → k.isNear x tolerance b.t = false →
    (b.next k x).isNarrow = false → Bisects k x tolerance (b.next k x) r → Bisects k x tolerance b r

theorem bisect_succ (k : Cubic N) (x tolerance : N) (n : Nat) (b : Bracket N) :
    k.bisect x tolerance (n + 1) b.lo b.hi b.t =
      if b.isOpen then
        if k.isNear x tolerance b.t then b.t
        else if (b.next k x).isNarrow then (b.next k x).t
        else k.bisect x tolerance n (b.next k x).lo (b.next k x).hi (b.next k x).t
      else b.t :=
  rfl

/-- One turn of the bounded loop is one of the loop without a bound. -/
theorem bisects_bisect_succ {k : Cubic N} {x tolerance : N} {n : Nat} {b : Bracket N}
    (hrest : (b.next k x).isNarrow = false → k.Bisects x tolerance (b.next k x)
      (k.bisect x tolerance n (b.next k x).lo (b.next k x).hi (b.next k x).t)) :
    k.Bisects x tolerance b (k.bisect x tolerance (n + 1) b.lo b.hi b.t) := by
  rw [bisect_succ]
  cases hopen : b.isOpen with
  | false => exact .empty hopen
  | true =>
    cases hnear : k.isNear x tolerance b.t with
    | true => exact .near hopen hnear
    | false =>
      cases hnarrow : (b.next k x).isNarrow with
      | true => exact .narrow hopen hnear hnarrow
      | false => exact .turn hopen hnear hnarrow (hrest hnarrow)

end

/-! ## Exact coordinates -/

section

variable {K : Type} [Field K]

/-- The coordinate with control points at `p` and `q`, at the parameter `t`. -/
def coordinate (p q t : K) : K :=
  3 * p * (t * (1 - t) ^ 2) + 3 * q * (t ^ 2 * (1 - t)) + t ^ 3

theorem coordinate_zero (p q : K) : coordinate p q 0 = 0 := by
  unfold coordinate
  ring

theorem coordinate_one (p q : K) : coordinate p q 1 = 1 := by
  unfold coordinate
  ring

/-- The derivative of the coordinate. -/
def derivative (p q t : K) : K :=
  3 * p * (1 - t) ^ 2 + 6 * (q - p) * ((1 - t) * t) + 3 * (1 - q) * t ^ 2

variable [LinearOrder K] [IsStrictOrderedRing K] {N : Type} [Scalar N] [FieldScalar K N]

theorem eval_ofField (p q t : K) :
    (ofControls (ofField p) (ofField q)).eval (ofField t : N) = ofField (coordinate p q t) := by
  unfold ofControls eval coordinate
  rw [FieldScalar.ofInt_eq 1, FieldScalar.ofInt_eq 3]
  simp only [Int.cast_ofNat, Int.cast_one, FieldScalar.mul_eq, FieldScalar.sub_eq,
    FieldScalar.add_eq]
  congr 1
  ring

theorem slope_ofField (p q t : K) :
    (ofControls (ofField p) (ofField q)).slope (ofField t : N) = ofField (derivative p q t) := by
  unfold ofControls slope derivative
  rw [FieldScalar.ofInt_eq 1, FieldScalar.ofInt_eq 2, FieldScalar.ofInt_eq 3]
  simp only [Int.cast_ofNat, Int.cast_one, FieldScalar.mul_eq, FieldScalar.sub_eq,
    FieldScalar.add_eq]
  congr 1
  ring

theorem isNear_ofField {p q x ε t : K} :
    (ofControls (ofField p) (ofField q)).isNear (ofField x : N) (ofField ε) (ofField t) = true ↔
      |coordinate p q t - x| < ε := by
  unfold isNear
  rw [eval_ofField, FieldScalar.sub_eq, FieldScalar.abs_eq, FieldScalar.less_iff]

end

end Cubic

/-! ## Brackets around a value -/

section

variable {K : Type} [Field K] {a b : K}

/-- The number in the middle between two. -/
def middle (a b : K) : K := (b - a) * ((1 : ℤ) / (2 : ℤ)) + a

theorem middle_eq (a b : K) : middle a b = (b - a) * (1 / 2) + a := by
  unfold middle
  norm_num

variable [LinearOrder K] [IsStrictOrderedRing K]

theorem lt_middle (h : a < b) : a < middle a b := by
  rw [middle_eq]
  linarith

theorem middle_lt (h : a < b) : middle a b < b := by
  rw [middle_eq]
  linarith

end

/-- A bracket in the unit interval, with a parameter inside, at whose ends the coordinate is on either
side of `x`. -/
structure Enclosure {K : Type} [Field K] [LinearOrder K] (p q x : K) where
  lo : K
  hi : K
  t : K
  lo_nonneg : 0 ≤ lo
  lo_lt : lo < t
  lt_hi : t < hi
  hi_le_one : hi ≤ 1
  below : Cubic.coordinate p q lo ≤ x
  above : x ≤ Cubic.coordinate p q hi

namespace Enclosure

variable {K : Type} [Field K] [LinearOrder K] [IsStrictOrderedRing K] {p q x ε w : K}

/-- The half above the parameter, where the coordinate is too small at it, or else the half below. -/
def next (e : Enclosure p q x) : Enclosure p q x :=
  if h : Cubic.coordinate p q e.t < x then
    { lo := e.t
      hi := e.hi
      t := middle e.t e.hi
      lo_nonneg := e.lo_nonneg.trans e.lo_lt.le
      lo_lt := lt_middle e.lt_hi
      lt_hi := middle_lt e.lt_hi
      hi_le_one := e.hi_le_one
      below := h.le
      above := e.above }
  else
    { lo := e.lo
      hi := e.t
      t := middle e.lo e.t
      lo_nonneg := e.lo_nonneg
      lo_lt := lt_middle e.lo_lt
      lt_hi := middle_lt e.lo_lt
      hi_le_one := e.lt_hi.le.trans e.hi_le_one
      below := e.below
      above := not_lt.mp h }

/-- Whether either side of the parameter is at most `w` wide. -/
def Reaches (e : Enclosure p q x) (w : K) : Prop := e.t - e.lo ≤ w ∧ e.hi - e.t ≤ w

/-- One side of the parameter is left after a turn. -/
theorem Reaches.width_next {e : Enclosure p q x} (h : e.Reaches w) : e.next.hi - e.next.lo ≤ w := by
  unfold next
  split
  · exact h.2
  · exact h.1

theorem t_next (e : Enclosure p q x) : e.next.t = middle e.next.lo e.next.hi := by
  unfold next
  split <;> rfl

/-- The parameter is in the middle after a turn, so that each turn halves what it reaches. -/
theorem Reaches.next {e : Enclosure p q x} (h : e.Reaches w) : e.next.Reaches (w / 2) := by
  have hwidth := h.width_next
  have hmiddle := e.t_next
  rw [middle_eq] at hmiddle
  constructor <;> linarith

/-! ## Turns -/

variable {N : Type} [Scalar N] [FieldScalar K N]

/-- The bracket as scalars. -/
def bracket (e : Enclosure p q x) : Bracket N := ⟨ofField e.lo, ofField e.hi, ofField e.t⟩

theorem bracket_next (e : Enclosure p q x) : (e.next.bracket : Bracket N) =
    e.bracket.next (.ofControls (ofField p) (ofField q)) (ofField x) := by
  have hmiddle (a b : K) : (ofField b - ofField a) * (Scalar.ofInt 1 / Scalar.ofInt 2) + ofField a =
      (ofField (middle a b) : N) := by
    rw [FieldScalar.ofInt_eq, FieldScalar.ofInt_eq, FieldScalar.div_eq _ (by norm_num),
      FieldScalar.sub_eq, FieldScalar.mul_eq, FieldScalar.add_eq]
    rfl
  unfold Bracket.next bracket
  dsimp only
  rw [Cubic.eval_ofField]
  by_cases h : Cubic.coordinate p q e.t < x
  · rw [FieldScalar.less_iff.mpr h, if_pos rfl, if_pos rfl, next, dif_pos h, hmiddle]
  · rw [if_neg (mt FieldScalar.less_iff.mp h), if_neg (mt FieldScalar.less_iff.mp h), next, dif_neg h,
      hmiddle]

theorem isOpen_bracket (e : Enclosure p q x) : (e.bracket : Bracket N).isOpen = true :=
  FieldScalar.less_iff.mpr (e.lo_lt.trans e.lt_hi)

theorem isNarrow_bracket (e : Enclosure p q x) :
    (e.bracket : Bracket N).isNarrow = true ↔ e.hi - e.lo < 1 / 2 ^ 52 := by
  have hnarrow : (Cubic.narrow : N) = ofField (1 / 2 ^ 52 : K) := by
    unfold Cubic.narrow
    rw [FieldScalar.ofInt_eq, FieldScalar.ofInt_eq, FieldScalar.div_eq _ (by norm_num)]
    norm_num
  unfold Bracket.isNarrow bracket
  rw [hnarrow, FieldScalar.sub_eq, FieldScalar.abs_eq, FieldScalar.less_iff,
    abs_of_pos (sub_pos.mpr (e.lo_lt.trans e.lt_hi))]

/-- A bisection that is allowed `n + 1` turns ends by itself, if halving `n` times makes the sides of
the parameter narrow. -/
theorem bisects_bisect (n : Nat) (e : Enclosure p q x) (hreach : e.Reaches w)
    (hw : w < 2 ^ n * (1 / 2 ^ 52)) :
    (Cubic.ofControls (ofField p : N) (ofField q)).Bisects (ofField x) (ofField ε) e.bracket
      ((Cubic.ofControls (ofField p) (ofField q)).bisect (ofField x) (ofField ε) (n + 1)
        e.bracket.lo e.bracket.hi e.bracket.t) := by
  induction n generalizing e w with
  | zero =>
    refine Cubic.bisects_bisect_succ fun hwide => ?_
    have hnarrow : (e.next.bracket : Bracket N).isNarrow = true := by
      rw [isNarrow_bracket]
      calc e.next.hi - e.next.lo ≤ w := hreach.width_next
        _ < 1 / 2 ^ 52 := by rwa [pow_zero, one_mul] at hw
    rw [← bracket_next, hnarrow] at hwide
    cases hwide
  | succ n ih =>
    refine Cubic.bisects_bisect_succ fun _ => ?_
    have hhalf : w / 2 < 2 ^ n * (1 / 2 ^ 52) := by
      rw [pow_succ] at hw
      linarith
    rw [← bracket_next]
    exact ih e.next hreach.next hhalf

end Enclosure

/-! ## What a bisection finds -/

namespace Cubic

variable {K : Type} [Field K] [LinearOrder K]

/-- Whether the coordinate is within `ε` of `x` at `t`, or else `t` lies in a bracket narrower than `w`
in the unit interval, at whose ends the coordinate is on either side of `x`. -/
def IsSolution (p q x ε w t : K) : Prop :=
  |coordinate p q t - x| < ε ∨
    ∃ lo hi, 0 ≤ lo ∧ lo ≤ t ∧ t ≤ hi ∧ hi ≤ 1 ∧ hi - lo < w ∧
      coordinate p q lo ≤ x ∧ x ≤ coordinate p q hi

variable [IsStrictOrderedRing K] {N : Type} [Scalar N] [FieldScalar K N] {p q x ε : K}

/-- Where a bisection ends it has found a solution, however many turns it takes. -/
theorem Bisects.sound {r : N} (e : Enclosure p q x)
    (h : (ofControls (ofField p) (ofField q)).Bisects (ofField x) (ofField ε) e.bracket r) :
    ∃ t, r = ofField t ∧ IsSolution p q x ε (1 / 2 ^ 52) t := by
  generalize hb : (e.bracket : Bracket N) = b at h
  induction h generalizing e with
  | empty hopen =>
    rw [← hb, e.isOpen_bracket] at hopen
    cases hopen
  | near _ hnear =>
    subst hb
    exact ⟨e.t, rfl, .inl (isNear_ofField.mp hnear)⟩
  | narrow _ _ hnarrow =>
    subst hb
    rw [← e.bracket_next] at hnarrow ⊢
    exact ⟨e.next.t, rfl, .inr ⟨e.next.lo, e.next.hi, e.next.lo_nonneg, e.next.lo_lt.le,
      e.next.lt_hi.le, e.next.hi_le_one, e.next.isNarrow_bracket.mp hnarrow, e.next.below,
      e.next.above⟩⟩
  | turn _ _ _ _ ih =>
    subst hb
    exact ih e.next e.bracket_next

end Cubic

end MapStyle
