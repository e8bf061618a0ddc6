import MapStyle.Curve.Stops
import MapStyle.Proofs.Scalar.Order

/-!
# The stop found

Where the input lies between two neighbours of an ascending list of stops, the search finds the lower
one (`findStop_eq_of_between`). The stops are compared with the input one at a time, so this holds of
every order of the numbers that is linear. The search is followed by its `Target`, the stop that it
cannot pass: it keeps that stop between its bounds (`searchStops_eq_of_target`).
-/

namespace MapStyle

variable {N : Type} [Scalar N] {stops : List N} {x : N} {index i : Nat} {stop : N}

theorem Ascending.less (h : Ascending stops) {j : Nat} {a b : N} (ha : stops[i]? = some a)
    (hb : stops[j]? = some b) (hlt : i < j) : Scalar.less a b = true := by
  obtain ⟨hi, rfl⟩ := List.getElem?_eq_some_iff.mp ha
  obtain ⟨hj, rfl⟩ := List.getElem?_eq_some_iff.mp hb
  exact List.pairwise_iff_getElem.mp h i j hi hj hlt

namespace Curve

/-- Whether `x` lies from the stop at `index` on, and below the next. -/
def Between (stops : List N) (x : N) (index : Nat) : Prop :=
  ∃ lower upper, stops[index]? = some lower ∧ stops[index + 1]? = some upper ∧
    Scalar.atMost lower x = true ∧ Scalar.less x upper = true

variable [LawfulOrder N]

/-- The stops before the lower one are below the input. -/
theorem Between.less_of_lt (h : Between stops x index) (hstops : Ascending stops)
    (hi : stops[i]? = some stop) (hlt : i < index) : Scalar.less stop x = true := by
  obtain ⟨lower, upper, hlower, -, hatMost, hless⟩ := h
  exact Scalar.less_of_less_of_atMost (hstops.less hi hlower hlt) hatMost
    (LawfulOrder.self_of_less hless).1

/-- The stops from the upper one on are above the input. -/
theorem Between.less_of_gt (h : Between stops x index) (hstops : Ascending stops)
    (hi : stops[i]? = some stop) (hgt : index < i) : Scalar.less x stop = true := by
  obtain ⟨lower, upper, -, hupper, -, hless⟩ := h
  obtain heq | hlt : i = index + 1 ∨ index + 1 < i := by omega
  · rw [heq, hupper] at hi
    exact Option.some.inj hi ▸ hless
  · exact Scalar.less_trans hless (hstops.less hupper hi hlt)

/-- An input from the first stop on lies from the last stop on, or between two neighbours. -/
theorem exists_between (hx : (x == x) = true) {lower : N} {rest : List N}
    (hstops : Ascending (lower :: rest)) (hlower : Scalar.atMost lower x = true) :
    (lower :: rest).getLast?.any (Scalar.atMost · x) = true ∨
      ∃ index, Between (lower :: rest) x index := by
  induction rest generalizing lower with
  | nil => exact .inl hlower
  | cons upper rest ih =>
    obtain ⟨habove, hrest⟩ := List.pairwise_cons.mp hstops
    have hupper := (LawfulOrder.self_of_less (habove upper List.mem_cons_self)).2
    cases hless : Scalar.less x upper with
    | true => exact .inr ⟨0, lower, upper, rfl, rfl, hlower, hless⟩
    | false =>
      rcases ih hrest (Scalar.atMost_of_not_less hx hupper hless) with hlast | ⟨i, a, b, hbetween⟩
      · rw [List.getLast?_cons_cons]
        exact .inl hlast
      · exact .inr ⟨i + 1, a, b, hbetween⟩

/-- An input up to the first stop is not at or above any other. -/
theorem index_eq_zero_of_head (hstops : Ascending stops)
    (hhead : stops.head?.any (Scalar.atMost x) = true) (hi : stops[i]? = some stop)
    (hle : Scalar.atMost stop x = true) : i = 0 := by
  by_contra hne
  cases stops with
  | nil => cases hi
  | cons first rest =>
    have hless := hstops.less (i := 0) rfl hi (Nat.pos_of_ne_zero hne)
    have hback := LawfulOrder.atMost_trans hle hhead
    rw [Scalar.not_atMost_of_less hless] at hback
    cases hback

omit [LawfulOrder N] in
theorem Between.lt (h : Between stops x index) : index + 1 < stops.length := by
  obtain ⟨lower, upper, -, hupper, -⟩ := h
  exact (List.getElem?_eq_some_iff.mp hupper).1

/-- Whether the search stops at a stop: the input equals it, or lies above it and below the next. -/
def found (stops : List N) (x stop : N) (i : Nat) : Bool :=
  x == stop || (Scalar.less stop x && match stops[i + 1]? with
    | some next => Scalar.less x next
    | none => false)

/-- Whether a search among ascending stops has to end at `index`: the stops before it are below the
input, those after it are above, and the search stops at it. -/
structure Target (stops : List N) (x : N) (index : Nat) : Prop where
  lt_length : index < stops.length
  less_of_lt {i : Nat} {stop : N} : stops[i]? = some stop → i < index → Scalar.less stop x = true
  less_of_gt {i : Nat} {stop : N} : stops[i]? = some stop → index < i → Scalar.less x stop = true
  found {stop : N} : stops[index]? = some stop → found stops x stop index = true

theorem Target.atMost (h : Target stops x index) (hi : stops[index]? = some stop) :
    Scalar.atMost stop x = true := by
  have hfound := h.found hi
  unfold Curve.found at hfound
  rw [Bool.or_eq_true, Bool.and_eq_true] at hfound
  rcases hfound with heq | ⟨hless, -⟩
  · rw [LawfulOrder.beq_eq, Bool.and_eq_true] at heq
    exact heq.2
  · exact Scalar.atMost_of_less hless

theorem Target.atMost_of_le (h : Target stops x index) (hi : stops[i]? = some stop)
    (hle : i ≤ index) : Scalar.atMost stop x = true := by
  obtain rfl | hlt : i = index ∨ i < index := by omega
  · exact h.atMost hi
  · exact Scalar.atMost_of_less (h.less_of_lt hi hlt)

/-- The search stops at its target and at no other stop. -/
theorem Target.found_iff (h : Target stops x index) (hi : stops[i]? = some stop) :
    Curve.found stops x stop i = true ↔ i = index := by
  constructor
  · intro hfound
    unfold Curve.found at hfound
    rcases Nat.lt_trichotomy i index with hlt | heq | hgt
    · have hbeq : (x == stop) = false := by
        rw [Scalar.beq_comm, Scalar.beq_eq_false_of_less (h.less_of_lt hi hlt)]
      have hsucc : i + 1 < stops.length := Nat.lt_of_le_of_lt hlt h.lt_length
      have hnext := List.getElem?_eq_getElem hsucc
      have hbelow := Scalar.not_less_of_atMost (h.atMost_of_le hnext hlt)
      rw [hbeq, hnext] at hfound
      dsimp only at hfound
      rw [hbelow, Bool.and_false] at hfound
      cases hfound
    · exact heq
    · have hless := h.less_of_gt hi hgt
      rw [Scalar.beq_eq_false_of_less hless,
        Scalar.not_less_of_atMost (Scalar.atMost_of_less hless)] at hfound
      cases hfound
  · rintro rfl
    exact h.found hi

theorem searchStops_eq_of_target (h : Target stops x index) {first width last : Nat}
    (hwidth : first + width ≤ stops.length) (hfirst : first ≤ index)
    (hindex : index < first + width) : searchStops stops x first width last = index := by
  fun_induction searchStops stops x first width last with
  | case1 first width last hpos middle hstop =>
    rw [List.getElem?_eq_none_iff] at hstop
    omega
  | case2 first width last hpos middle stop hstop belowNext heq =>
    exact (h.found_iff hstop).mp heq
  | case3 first width last hpos middle stop hstop belowNext heq hless ih =>
    have hne : middle ≠ index := fun hmiddle => heq ((h.found_iff hstop).mpr hmiddle)
    have hle : middle ≤ index := by
      refine Nat.le_of_not_lt fun hgt => ?_
      have habove := Scalar.atMost_of_less (h.less_of_gt hstop hgt)
      rw [Scalar.not_less_of_atMost habove] at hless
      cases hless
    exact ih (by omega) (by omega) (by omega)
  | case4 first width last hpos middle stop hstop belowNext heq hless hless' ih =>
    have hgt : index < middle := by
      refine Nat.lt_of_not_le fun hle => ?_
      rw [Scalar.not_less_of_atMost (h.atMost_of_le hstop hle)] at hless'
      cases hless'
    exact ih (by omega) (by omega) (by omega)
  | case5 first width last hpos middle stop hstop belowNext heq hless hless' =>
    rcases Nat.lt_trichotomy middle index with hlt | hmiddle | hgt
    · exact absurd (h.less_of_lt hstop hlt) hless
    · exact absurd ((h.found_iff hstop).mpr hmiddle) heq
    · exact absurd (h.less_of_gt hstop hgt) hless'
  | case6 => omega

theorem findStop_eq_of_target (h : Target stops x index) : findStop stops x = index :=
  searchStops_eq_of_target h (by omega) (Nat.zero_le _)
    (by rw [Nat.zero_add]; exact h.lt_length)

theorem Between.target (h : Between stops x index) (hstops : Ascending stops) :
    Target stops x index where
  lt_length := Nat.lt_of_succ_lt h.lt
  less_of_lt hi hlt := h.less_of_lt hstops hi hlt
  less_of_gt hi hgt := h.less_of_gt hstops hi hgt
  found {stop} hi := by
    obtain ⟨lower, upper, hlower, hupper, hatMost, hless⟩ := h
    rw [hi, Option.some_inj] at hlower
    subst hlower
    obtain ⟨hx, -⟩ := LawfulOrder.self_of_less hless
    obtain ⟨hstop, -⟩ := LawfulOrder.self_of_less (hstops.less hi hupper (Nat.lt_succ_self index))
    unfold Curve.found
    rcases Scalar.beq_or_less_of_atMost hstop hx hatMost with heq | hbelow
    · rw [Scalar.beq_comm, heq, Bool.true_or]
    · rw [hbelow, hupper]
      dsimp only
      rw [hless, Bool.true_and, Bool.or_true]

/-- Between two neighbours the search finds the lower one. -/
theorem findStop_eq_of_between (h : Between stops x index) (hstops : Ascending stops) :
    findStop stops x = index :=
  findStop_eq_of_target (h.target hstops)

end Curve

end MapStyle
