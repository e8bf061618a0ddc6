import MapStyle.Proofs.Binary64.Order
import MapStyle.Proofs.Curve.Search

/-!
# The last stop that is not above the input

`IsLastStop stops x index` says that `index` is that of the last stop that is not above `x`, or zero
where there is none. This is what `findStop` is for, and among ascending stops it does find that index,
for inputs up to the last stop. Beyond two or more stops it ends one index too low, and an input that is
not comparable ends it at the first stop that it looks at (`findStop_of_ascending`).
-/

namespace MapStyle.Curve

variable {N : Type} [Scalar N] {stops : List N} {x last : N} {index i j : Nat}

/-- Whether `index` is that of the last stop that is not above `x`, or zero where there is none. -/
def IsLastStop (stops : List N) (x : N) (index : Nat) : Prop :=
  (∃ stop, stops[index]? = some stop ∧ Scalar.atMost stop x = true ∧
    ∀ i later, stops[i]? = some later → index < i → Scalar.atMost later x = false) ∨
  (index = 0 ∧ ∀ stop ∈ stops, Scalar.atMost stop x = false)

theorem IsLastStop.unique (hi : IsLastStop stops x i) (hj : IsLastStop stops x j) : i = j := by
  rcases hi with ⟨a, ha, hax, hafter⟩ | ⟨rfl, hnone⟩
  · rcases hj with ⟨b, hb, hbx, hbfter⟩ | ⟨rfl, hnone⟩
    · rcases Nat.lt_trichotomy i j with hlt | heq | hgt
      · rw [hafter j b hb hlt] at hbx
        cases hbx
      · exact heq
      · rw [hbfter i a ha hgt] at hax
        cases hax
    · rw [hnone a (List.mem_of_getElem? ha)] at hax
      cases hax
  · rcases hj with ⟨b, hb, hbx, -⟩ | ⟨rfl, -⟩
    · rw [hnone b (List.mem_of_getElem? hb)] at hbx
      cases hbx
    · rfl

/-- An index is the one looked for exactly when it is a known one. -/
theorem IsLastStop.iff_eq (hi : IsLastStop stops x i) : IsLastStop stops x j ↔ j = i :=
  ⟨fun hj => hj.unique hi, fun heq => heq ▸ hi⟩

section

variable [LawfulOrder N]

/-! ## Inputs that have a target -/

theorem Target.isLastStop (h : Target stops x index) : IsLastStop stops x index := by
  have hindex := List.getElem?_eq_getElem h.lt_length
  exact .inl ⟨_, hindex, h.atMost hindex,
    fun i later hi hgt => Scalar.not_atMost_of_less (h.less_of_gt hi hgt)⟩

/-- A stop that equals the input is the target. -/
theorem target_of_beq {stop : N} (hstops : Ascending stops) (hindex : stops[index]? = some stop)
    (heq : (x == stop) = true) : Target stops x index where
  lt_length := (List.getElem?_eq_some_iff.mp hindex).1
  less_of_lt {i before} hi hlt := by
    have hatMost : Scalar.atMost stop x = true := by
      rw [LawfulOrder.beq_eq, Bool.and_eq_true] at heq
      exact heq.2
    exact Scalar.less_of_less_of_atMost (hstops.less hi hindex hlt) hatMost (Scalar.self_of_beq heq)
  less_of_gt {i later} hi hgt := by
    have hatMost : Scalar.atMost x stop = true := by
      rw [LawfulOrder.beq_eq, Bool.and_eq_true] at heq
      exact heq.1
    exact Scalar.less_of_atMost_of_less hatMost (hstops.less hindex hi hgt) (Scalar.self_of_beq heq)
  found {found} hfound := by
    rw [hindex, Option.some_inj] at hfound
    subst hfound
    unfold Curve.found
    rw [heq, Bool.true_or]

/-! ## Inputs without a target -/

section

variable {first width seen : Nat}

/-- Below all stops the search goes down to the first one. -/
theorem searchStops_eq_zero (hbelow : ∀ stop ∈ stops, Scalar.less x stop = true)
    (hwidth : width ≤ stops.length) (hseen : width = 0 → seen = 0) :
    searchStops stops x 0 width seen = 0 := by
  generalize hfirst : 0 = first
  fun_induction searchStops stops x first width seen with
  | case1 first width seen hpos middle hstop =>
    rw [List.getElem?_eq_none_iff] at hstop
    omega
  | case2 first width seen hpos middle stop hstop belowNext heq =>
    have hless := hbelow stop (List.mem_of_getElem? hstop)
    rw [Scalar.beq_eq_false_of_less hless,
      Scalar.not_less_of_atMost (Scalar.atMost_of_less hless)] at heq
    cases heq
  | case3 first width seen hpos middle stop hstop belowNext heq hless ih =>
    have hless' := hbelow stop (List.mem_of_getElem? hstop)
    rw [Scalar.not_less_of_atMost (Scalar.atMost_of_less hless')] at hless
    cases hless
  | case4 first width seen hpos middle stop hstop belowNext heq hless hless' ih =>
    exact ih (by omega) (by omega) hfirst
  | case5 first width seen hpos middle stop hstop belowNext heq hless hless' =>
    exact absurd (hbelow stop (List.mem_of_getElem? hstop)) hless'
  | case6 => omega

/-- Above all stops the search goes up to the last one, and ends at the index before. -/
theorem searchStops_eq_sub_two (habove : ∀ stop ∈ stops, Scalar.less stop x = true)
    (hwidth : first + width = stops.length) (hseen : width = 0 → seen = stops.length - 1) :
    searchStops stops x first width seen = stops.length - 2 := by
  fun_induction searchStops stops x first width seen with
  | case1 first width seen hpos middle hstop =>
    rw [List.getElem?_eq_none_iff] at hstop
    omega
  | case2 first width seen hpos middle stop hstop belowNext heq =>
    have hless := habove stop (List.mem_of_getElem? hstop)
    have hbeq : (x == stop) = false := by
      rw [Scalar.beq_comm, Scalar.beq_eq_false_of_less hless]
    have hnext : belowNext = false := by
      cases hget : stops[middle + 1]? with
      | none => simp only [belowNext, hget]
      | some next =>
        have hnext := habove next (List.mem_of_getElem? hget)
        simp only [belowNext, hget]
        exact Scalar.not_less_of_atMost (Scalar.atMost_of_less hnext)
    rw [hbeq, hnext, Bool.and_false] at heq
    cases heq
  | case3 first width seen hpos middle stop hstop belowNext heq hless ih =>
    exact ih (by omega) (by omega)
  | case4 first width seen hpos middle stop hstop belowNext heq hless hless' ih =>
    exact absurd (habove stop (List.mem_of_getElem? hstop)) hless
  | case5 first width seen hpos middle stop hstop belowNext heq hless hless' =>
    exact absurd (habove stop (List.mem_of_getElem? hstop)) hless
  | case6 => omega

end

theorem findStop_eq_zero (hbelow : ∀ stop ∈ stops, Scalar.less x stop = true) :
    findStop stops x = 0 :=
  searchStops_eq_zero hbelow (Nat.le_refl _) fun _ => rfl

theorem findStop_eq_sub_two (habove : ∀ stop ∈ stops, Scalar.less stop x = true) :
    findStop stops x = stops.length - 2 :=
  searchStops_eq_sub_two habove (Nat.zero_add _) (by omega)

/-- What is not a number is compared with the middle stop only. -/
theorem findStop_of_not_self (hx : (x == x) = false) :
    findStop stops x = (stops.length - 1) / 2 - 1 := by
  have hbeq (stop : N) : (x == stop) = false := by
    refine Bool.eq_false_iff.mpr fun h => ?_
    rw [Scalar.self_of_beq h] at hx
    cases hx
  have hbelow (stop : N) : Scalar.less x stop = false := by
    refine Bool.eq_false_iff.mpr fun h => ?_
    rw [(LawfulOrder.self_of_less h).1] at hx
    cases hx
  have habove (stop : N) : Scalar.less stop x = false := by
    refine Bool.eq_false_iff.mpr fun h => ?_
    rw [(LawfulOrder.self_of_less h).2] at hx
    cases hx
  rw [findStop, searchStops]
  by_cases hpos : 0 < stops.length
  · have hmiddle : (stops.length - 1) / 2 < stops.length := by omega
    rw [if_pos hpos, Nat.zero_add]
    dsimp only
    rw [List.getElem?_eq_getElem hmiddle]
    simp only [hbeq, hbelow, habove, Bool.false_and, Bool.or_false, Bool.false_eq_true, if_false]
  · rw [if_neg hpos]
    omega

/-! ## Ascending stops -/

/-- What is above the last stop is above all. -/
theorem less_of_getLast? (hstops : Ascending stops) (hlast : stops.getLast? = some last)
    (habove : Scalar.less last x = true) : ∀ stop ∈ stops, Scalar.less stop x = true := by
  intro stop hstop
  obtain ⟨i, hi⟩ := List.mem_iff_getElem?.mp hstop
  have hlt := (List.getElem?_eq_some_iff.mp hi).1
  rw [List.getLast?_eq_getElem?] at hlast
  by_cases hend : i = stops.length - 1
  · rw [hend, hlast, Option.some_inj] at hi
    rwa [← hi]
  · exact Scalar.less_trans (hstops.less hi hlast (by omega)) habove

/-- A number that is not above the last stop is below all stops, or the search has a target. -/
theorem less_or_target (hself : ∀ stop ∈ stops, (stop == stop) = true) (hstops : Ascending stops)
    (hlast : stops.getLast? = some last) (hx : (x == x) = true)
    (hle : Scalar.atMost x last = true) :
    (∀ stop ∈ stops, Scalar.less x stop = true) ∨ ∃ index, Target stops x index := by
  cases stops with
  | nil => cases hlast
  | cons first rest =>
    cases hless : Scalar.less x first with
    | true =>
      refine .inl (List.forall_mem_cons.mpr ⟨hless, fun stop hstop => ?_⟩)
      exact Scalar.less_trans hless ((List.pairwise_cons.mp hstops).1 stop hstop)
    | false =>
      have hatMost := Scalar.atMost_of_not_less hx (hself first List.mem_cons_self) hless
      rcases exists_between hx hstops hatMost with hend | ⟨index, hbetween⟩
      · rw [hlast, Option.any_some] at hend
        have heq : (x == last) = true := by rw [LawfulOrder.beq_eq, hle, hend, Bool.and_self]
        rw [List.getLast?_eq_getElem?] at hlast
        exact .inr ⟨_, target_of_beq hstops hlast heq⟩
      · exact .inr ⟨index, hbetween.target hstops⟩

theorem isLastStop_findStop (hself : ∀ stop ∈ stops, (stop == stop) = true)
    (hstops : Ascending stops) (hlast : stops.getLast? = some last) (hx : (x == x) = true)
    (hle : Scalar.atMost x last = true) : IsLastStop stops x (findStop stops x) := by
  rcases less_or_target hself hstops hlast hx hle with hbelow | ⟨index, htarget⟩
  · rw [findStop_eq_zero hbelow]
    exact .inr ⟨rfl, fun stop hstop => Scalar.not_atMost_of_less (hbelow stop hstop)⟩
  · rw [findStop_eq_of_target htarget]
    exact htarget.isLastStop

theorem isLastStop_of_above (hlast : stops.getLast? = some last)
    (habove : Scalar.less last x = true) : IsLastStop stops x (stops.length - 1) := by
  rw [List.getLast?_eq_getElem?] at hlast
  refine .inl ⟨last, hlast, Scalar.atMost_of_less habove, fun i later hi hgt => ?_⟩
  have hlt := (List.getElem?_eq_some_iff.mp hi).1
  omega

end

section

variable [LawfulComparison N]

theorem isLastStop_of_not_self (hx : (x == x) = false) : IsLastStop stops x 0 := by
  refine .inr ⟨rfl, fun stop _ => Bool.eq_false_iff.mpr fun hle => ?_⟩
  rw [(LawfulComparison.self_of_atMost hle).2] at hx
  cases hx

/-- Among ascending stops that are numbers, the search finds the last stop that is not above the input,
or zero where there is none, exactly when there is at most one stop, the input is not above the last
stop, or it is not a number and the stops are at most four. An input above the last of two or more stops
gets the index before the last one, and one that is not a number the index before the middle one. -/
theorem findStop_of_ascending (hself : ∀ stop ∈ stops, (stop == stop) = true)
    (hstops : Ascending stops) (x : N) :
    (IsLastStop stops x (findStop stops x) ↔
      stops.length ≤ 1 ∨ (∃ last, stops.getLast? = some last ∧ Scalar.atMost x last = true) ∨
        ((x == x) = false ∧ stops.length ≤ 4)) ∧
    (∀ last, stops.getLast? = some last → Scalar.less last x = true →
      findStop stops x = stops.length - 2) ∧
    ((x == x) = false → findStop stops x = (stops.length - 1) / 2 - 1) := by
  have habove {last : N} (hlast : stops.getLast? = some last) (hless : Scalar.less last x = true) :
      findStop stops x = stops.length - 2 :=
    findStop_eq_sub_two (less_of_getLast? hstops hlast hless)
  refine ⟨?_, fun last => habove, findStop_of_not_self⟩
  cases hx : x == x with
  | false =>
    have hnone : ¬∃ last, stops.getLast? = some last ∧ Scalar.atMost x last = true := by
      rintro ⟨last, -, hle⟩
      rw [(LawfulComparison.self_of_atMost hle).1] at hx
      cases hx
    rw [(isLastStop_of_not_self hx).iff_eq, findStop_of_not_self hx]
    simp only [hnone, false_or, true_and]
    omega
  | true =>
    cases hlast : stops.getLast? with
    | none =>
      obtain rfl := List.getLast?_eq_none_iff.mp hlast
      exact iff_of_true (.inr ⟨findStop_eq_zero nofun, nofun⟩) (.inl (Nat.zero_le 1))
    | some last =>
      cases hle : Scalar.atMost x last with
      | true =>
        exact iff_of_true (isLastStop_findStop hself hstops hlast hx hle)
          (.inr (.inl ⟨last, rfl, hle⟩))
      | false =>
        have hmem : last ∈ stops := List.mem_of_getLast? hlast
        have hless := Scalar.less_of_not_atMost (hself last hmem) hx hle
        have hpos := List.length_pos_of_mem hmem
        rw [(isLastStop_of_above hlast hless).iff_eq, habove hlast hless]
        simp only [Option.some_inj, exists_eq_left', hle, Bool.false_eq_true, Bool.true_eq_false,
          false_and, or_false]
        omega

end

/-- Four stops, and inputs between two of them, below all and above all. -/
theorem findStop_of_ascending_fourth :
    let stops : List Float :=
      [Scalar.ofInt 0, Scalar.ofInt 10, Scalar.ofInt 20, Scalar.ofInt 30]
    (∀ stop ∈ stops, (stop == stop) = true) ∧ Ascending stops ∧
      IsLastStop stops (Scalar.ofInt 25) (findStop stops (Scalar.ofInt 25)) ∧
      IsLastStop stops (Scalar.ofInt (-5)) (findStop stops (Scalar.ofInt (-5))) ∧
      findStop stops (Scalar.ofInt 35) = 2 := by
  intro stops
  have hself : ∀ stop ∈ stops, (stop == stop) = true := by decide +kernel
  have hstops : Ascending stops := by
    unfold Ascending
    decide +kernel
  have hlast : stops.getLast? = some (Scalar.ofInt 30) := rfl
  refine ⟨hself, hstops, ?_, ?_, ?_⟩
  · exact (findStop_of_ascending hself hstops _).1.mpr (.inr (.inl ⟨_, hlast, rfl⟩))
  · exact (findStop_of_ascending hself hstops _).1.mpr (.inr (.inl ⟨_, hlast, rfl⟩))
  · exact (findStop_of_ascending hself hstops _).2.1 _ hlast rfl

/-- Beyond the second of two stops the search finds the first. -/
theorem findStop_misses_last_stop :
    let stops : List Float := [Scalar.ofInt 0, Scalar.ofInt 10]
    (∀ stop ∈ stops, (stop == stop) = true) ∧ Ascending stops ∧
      IsLastStop stops (Scalar.ofInt 20) 1 ∧ findStop stops (Scalar.ofInt 20) = 0 ∧
      ¬IsLastStop stops (Scalar.ofInt 20) (findStop stops (Scalar.ofInt 20)) := by
  intro stops
  have hself : ∀ stop ∈ stops, (stop == stop) = true := by decide +kernel
  have hstops : Ascending stops := by
    unfold Ascending
    decide +kernel
  have hlast : IsLastStop stops (Scalar.ofInt 20) 1 := isLastStop_of_above rfl rfl
  have hfind : findStop stops (Scalar.ofInt 20) = 0 :=
    findStop_eq_sub_two (less_of_getLast? hstops rfl rfl)
  refine ⟨hself, hstops, hlast, hfind, ?_⟩
  rw [hlast.iff_eq, hfind]
  exact Nat.zero_ne_one

end MapStyle.Curve
