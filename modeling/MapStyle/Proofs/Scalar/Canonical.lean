import MapStyle.Json.Basic

/-!
# Numbers written as JSON and read again

A number that is a small enough integer is written as one, so that minus zero comes back as zero.
`Scalar.canonical x` is what comes back. It equals `x`, and is written in the same way.

`LawfulEq` lists what this asks of the equality of numbers.
-/

namespace MapStyle

/-- Equality of numbers that the tests on numbers respect. -/
class LawfulEq (N : Type) [Scalar N] : Prop where
  symm {x y : N} : (x == y) = true → (y == x) = true
  self_of_isFinite {x : N} : Scalar.isFinite x = true → (x == x) = true
  isFinite_of_isSafe {x : N} : Scalar.isSafe x = true → Scalar.isFinite x = true
  beq_left_congr {x y z : N} : (x == y) = true → (x == z) = (y == z)
  beq_right_congr {x y z : N} : (x == y) = true → (z == x) = (z == y)
  atMost_left_congr {x y z : N} : (x == y) = true → Scalar.atMost x z = Scalar.atMost y z
  atMost_right_congr {x y z : N} : (x == y) = true → Scalar.atMost z x = Scalar.atMost z y
  isFinite_congr {x y : N} : (x == y) = true → Scalar.isFinite x = Scalar.isFinite y
  isSafe_congr {x y : N} : (x == y) = true → Scalar.isSafe x = Scalar.isSafe y
  isWhole_congr {x y : N} : (x == y) = true → Scalar.isWhole x = Scalar.isWhole y
  toInt?_congr {x y : N} : (x == y) = true → Scalar.toInt? x = Scalar.toInt? y

namespace Scalar

variable {N : Type} [Scalar N] {x y : N}

/-- What a number is after it has been written as JSON and read again. -/
def canonical (x : N) : N :=
  match toInt? x with
  | some n => ofInt n
  | none => x

theorem ofInt_beq_of_toInt? {n : Int} (h : toInt? x = some n) : (ofInt n == x) = true := by
  unfold toInt? at h
  dsimp only at h
  split at h
  · next hx =>
    rw [Bool.and_eq_true] at hx
    rw [← Option.some.inj h]
    exact hx.1
  · cases h

theorem canonical_of_none (h : toInt? x = none) : canonical x = x := by
  unfold canonical
  rw [h]

theorem canonical_of_some {n : Int} (h : toInt? x = some n) : canonical x = ofInt n := by
  unfold canonical
  rw [h]

variable [LawfulEq N]

/-- The canonical form of a finite number equals it. -/
theorem beq_canonical (hx : isFinite x = true) : (x == canonical x) = true := by
  cases h : toInt? x with
  | none =>
    rw [canonical_of_none h]
    exact LawfulEq.self_of_isFinite hx
  | some n =>
    rw [canonical_of_some h]
    exact LawfulEq.symm (ofInt_beq_of_toInt? h)

theorem toInt?_canonical (x : N) : toInt? (canonical x) = toInt? x := by
  cases h : toInt? x with
  | none => rw [canonical_of_none h, h]
  | some n => rw [canonical_of_some h, LawfulEq.toInt?_congr (ofInt_beq_of_toInt? h), h]

theorem isFinite_canonical (hx : isFinite x = true) : isFinite (canonical x) = true := by
  rw [← LawfulEq.isFinite_congr (beq_canonical hx), hx]

end Scalar

namespace Json

open Scalar

variable {N : Type} [Scalar N] {x : N}

/-- A finite number is written as the number that its canonical form is. -/
theorem ofNumber_cases (hx : isFinite x = true) :
    (∃ n, ofNumber x = .integer n ∧ canonical x = ofInt n) ∨
      ofNumber x = .real x ∧ canonical x = x := by
  unfold ofNumber
  cases h : toInt? x with
  | none => exact .inr ⟨if_pos hx, canonical_of_none h⟩
  | some n => exact .inl ⟨n, rfl, canonical_of_some h⟩

theorem ofNumber_canonical [LawfulEq N] (x : N) : ofNumber (canonical x) = ofNumber x := by
  unfold ofNumber
  rw [toInt?_canonical]
  cases h : toInt? x with
  | none => rw [canonical_of_none h]
  | some n => rfl

/-- A finite number is read back as its canonical form. -/
theorem number?_ofNumber [LawfulEq N] (hx : isFinite x = true) :
    (ofNumber x).number? = some (canonical x) := by
  have hcanonical := isFinite_canonical hx
  obtain ⟨n, hn, hvalue⟩ | ⟨hn, hvalue⟩ := ofNumber_cases hx
  · rw [hvalue] at hcanonical ⊢
    rw [hn]
    exact if_pos hcanonical
  · rw [hn, hvalue]
    exact if_pos hx

end Json

end MapStyle
