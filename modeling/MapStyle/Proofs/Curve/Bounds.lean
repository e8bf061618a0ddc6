import MapStyle.Proofs.Curve.Forcing

/-!
# Curves read no stop that is not there

Stops in any order, repeated or not comparable, and outputs in any number: `searchStops?`, `select?` and
`evaluate?` are the search, the selection and the evaluation of a curve in which a read outside of the
list leaves without a result. They always have the result that the curve has (`evaluate?_eq`).
`evaluate_bounded` adds which outputs are evaluated.
-/

namespace MapStyle.Curve

variable {N : Type} [Scalar N]

/-! ## Reads that have to succeed -/

/-- The search, without a result where it looks at a stop that is not there. -/
def searchStops? (stops : List N) (x : N) (first width last : Nat) : Option Nat :=
  if 0 < width then
    let middle := first + (width - 1) / 2
    match stops[middle]? with
    | none => none
    | some stop =>
      if found stops x stop middle then some middle
      else if Scalar.less stop x then
        searchStops? stops x (middle + 1) (first + width - (middle + 1)) middle
      else if Scalar.less x stop then searchStops? stops x first (middle - first) middle
      else some (middle - 1)
  else some (last - 1)
termination_by width
decreasing_by all_goals omega

/-- The stop found, without a result where the search looks at a stop that is not there. -/
def findStop? (stops : List N) (x : N) : Option Nat := searchStops? stops x 0 stops.length 0

/-- The outputs needed, without a result where a stop is looked at that is not there. -/
def select? (interpolation : Interpolation N) (stops : List N) (x : N) : Option (Selection N) := do
  let first ← stops[0]?
  if stops.length = 1 ∨ Scalar.atMost x first then return .only 0
  let last ← stops[stops.length - 1]?
  if Scalar.atMost last x then return .only (stops.length - 1)
  let index ← findStop? stops x
  if interpolation.isStep then return .only index
  let lower ← stops[index]?
  let upper ← stops[index + 1]?
  return .between index (interpolation.factor x lower upper)

/-- The evaluation of a curve, without a result where it asks for a stop or an output that is not
there. -/
def evaluate? {m : Type → Type} [Monad m] [MonadExceptOf (Failure N) m]
    (interpolation : Interpolation N) (kind : OutputKind) (stops : List N)
    (outputs : List (m (Value N))) (input : Value N) : Option (m (Value N)) :=
  match input with
  | .number x =>
    if stops.length = 0 ∨ stops.length ≠ outputs.length then some (throw .malformedStops)
    else do
      match ← select? interpolation stops x with
      | .only index => outputs[index]?
      | .between index factor => do
        let lower ← outputs[index]?
        let upper ← outputs[index + 1]?
        some do
          let a ← lower
          let b ← upper
          match blend kind a b factor with
          | .ok value => pure value
          | .error failure => throw failure
  | other => some (throw (.typeAssertion (some "curve input") .number other.type))

/-! ## The search -/

section

variable {stops : List N} {x : N} {first width last : Nat}

/-- The search looks at stops of the list only. -/
theorem searchStops?_eq (hwidth : first + width ≤ stops.length) :
    searchStops? stops x first width last = some (searchStops stops x first width last) := by
  fun_induction searchStops stops x first width last with
  | case1 first width last hpos middle hstop =>
    rw [List.getElem?_eq_none_iff] at hstop
    omega
  | case2 first width last hpos middle stop hstop belowNext heq =>
    rw [searchStops?, if_pos hpos]
    simp only [middle] at hstop ⊢
    rw [hstop]
    exact if_pos heq
  | case3 first width last hpos middle stop hstop belowNext heq hless ih =>
    rw [searchStops?, if_pos hpos, ← ih (by omega)]
    simp only [middle] at hstop ⊢
    rw [hstop]
    exact (if_neg heq).trans (if_pos hless)
  | case4 first width last hpos middle stop hstop belowNext heq hless hless' ih =>
    rw [searchStops?, if_pos hpos, ← ih (by omega)]
    simp only [middle] at hstop ⊢
    rw [hstop]
    exact (if_neg heq).trans ((if_neg hless).trans (if_pos hless'))
  | case5 first width last hpos middle stop hstop belowNext heq hless hless' =>
    rw [searchStops?, if_pos hpos]
    simp only [middle] at hstop ⊢
    rw [hstop]
    exact (if_neg heq).trans ((if_neg hless).trans (if_neg hless'))
  | case6 => rw [searchStops?, if_neg ‹_›]

theorem findStop_nil (x : N) : findStop [] x = 0 := by
  rw [findStop, searchStops]
  rfl

theorem findStop?_eq (stops : List N) (x : N) : findStop? stops x = some (findStop stops x) :=
  searchStops?_eq (Nat.zero_add _).le

/-- Below the last stop the search ends before it, if there are two stops at least: where it does not
stop at a stop of its own it ends one before the last one that it looked at. -/
theorem searchStops_succ_lt [LawfulOrder N] (htwo : 2 ≤ stops.length)
    (hbelow : ¬stops.getLast?.any (Scalar.atMost · x) = true)
    (hwidth : first + width ≤ stops.length) (hlast : last < stops.length) :
    searchStops stops x first width last + 1 < stops.length := by
  fun_induction searchStops stops x first width last with
  | case1 => omega
  | case2 first width last hpos middle stop hstop belowNext heq =>
    by_contra hend
    have hlt := (List.getElem?_eq_some_iff.mp hstop).1
    have hlast : stops.getLast? = some stop := by
      rw [List.getLast?_eq_getElem?, ← hstop]
      exact congrArg (stops[·]?) (by omega)
    have hnone : stops[middle + 1]? = none := List.getElem?_eq_none_iff.mpr (by omega)
    rw [hlast, Option.any_some] at hbelow
    have hbeq : (x == stop) = false := by
      rw [LawfulOrder.beq_eq, Bool.and_eq_false_iff]
      exact .inr (Bool.eq_false_iff.mpr hbelow)
    have hnext : belowNext = false := by
      simp only [belowNext, hnone]
    rw [hbeq, hnext, Bool.and_false] at heq
    cases heq
  | case3 first width last hpos middle stop hstop belowNext heq hless ih =>
    exact ih (by omega) (by omega)
  | case4 first width last hpos middle stop hstop belowNext heq hless hless' ih =>
    exact ih (by omega) (by omega)
  | case5 => omega
  | case6 => omega

theorem findStop_succ_lt [LawfulOrder N] (htwo : 2 ≤ stops.length)
    (hbelow : ¬stops.getLast?.any (Scalar.atMost · x) = true) :
    findStop stops x + 1 < stops.length :=
  searchStops_succ_lt htwo hbelow (Nat.zero_add _).le (by omega)

/-- The outputs needed are told by stops of the list only. -/
theorem select?_eq [LawfulOrder N] (interpolation : Interpolation N) (hne : stops ≠ []) :
    select? interpolation stops x = some (select interpolation stops x) := by
  have hpos : 0 < stops.length := List.length_pos_iff.mpr hne
  have hhead : stops[0]? = some (stops.head hne) := by
    rw [← List.head?_eq_getElem?, List.head?_eq_some_head hne]
  have hlast : stops[stops.length - 1]? = some (stops.getLast hne) := by
    rw [← List.getLast?_eq_getElem?, List.getLast?_eq_some_getLast hne]
  unfold select?
  rw [hhead, hlast, findStop?_eq]
  simp only [Option.bind_eq_bind, Option.bind_some]
  by_cases hfirst : stops.length = 1 ∨ Scalar.atMost x (stops.head hne) = true
  · rw [if_pos hfirst, select_eq_first (hfirst.imp_right fun h => by rwa [List.head?_eq_some_head hne])]
    rfl
  rw [if_neg hfirst]
  have hfirst' : ¬(stops.length = 1 ∨ stops.head?.any (Scalar.atMost x) = true) := by
    rwa [List.head?_eq_some_head hne]
  by_cases hend : Scalar.atMost (stops.getLast hne) x = true
  · rw [if_pos hend, select_eq_last hfirst' (by rwa [List.getLast?_eq_some_getLast hne])]
    rfl
  rw [if_neg hend]
  have hend' : ¬stops.getLast?.any (Scalar.atMost · x) = true := by
    rwa [List.getLast?_eq_some_getLast hne]
  have hnext := findStop_succ_lt (by omega) hend'
  unfold select
  dsimp only
  rw [if_neg hfirst', if_neg hend', List.getElem?_eq_getElem hnext,
    List.getElem?_eq_getElem (Nat.lt_of_succ_lt hnext)]
  cases interpolation <;> rfl

/-- A curve evaluates outputs of the list only. -/
theorem evaluate?_eq [LawfulOrder N] {m : Type → Type} [Monad m] [MonadExceptOf (Failure N) m]
    (interpolation : Interpolation N) (kind : OutputKind) (stops : List N)
    (outputs : List (m (Value N))) (input : Value N) :
    evaluate? interpolation kind stops outputs input =
      some (evaluate interpolation kind stops outputs input) := by
  cases input with
  | number x =>
    unfold evaluate?
    dsimp only
    split
    · next hshape =>
      unfold evaluate
      dsimp only
      rw [if_pos hshape]
    · next hshape =>
      obtain ⟨hne, hlen⟩ := not_or.mp hshape
      have hlen := (not_not.mp hlen).symm
      have hne : stops ≠ [] := mt List.length_eq_zero_iff.mpr hne
      rw [select?_eq interpolation hne]
      cases hselect : select interpolation stops x with
      | only index =>
        have hindex := List.getElem?_eq_getElem (hlen ▸ lt_of_select_only hne hselect)
        rw [evaluate_of_only kind hlen hselect hindex]
        exact hindex
      | between index factor =>
        have hlt := hlen ▸ (lt_of_select_between hselect).1
        have hlower := List.getElem?_eq_getElem (Nat.lt_of_succ_lt hlt)
        have hupper := List.getElem?_eq_getElem hlt
        rw [evaluate_of_between kind hlen hselect hlower hupper]
        dsimp only [Option.bind_eq_bind, Option.bind_some]
        rw [hlower, hupper]
        rfl
  | _ => rfl

end

/-! ## The outputs evaluated -/

section

variable {env : Env N} {interpolation : Interpolation N} {kind : OutputKind} {stops : List N}
  {outputs : List (Eval N (Value N))} {input : Value N}

/-- A curve without a number as its input, or with stops that are malformed, fails before it evaluates
an output. -/
theorem traceIn_of_malformed
    (h : (∀ x, input ≠ .number x) ∨ stops = [] ∨ stops.length ≠ outputs.length) :
    ∃ failure, traceIn env interpolation kind stops outputs input = (.error failure, []) := by
  cases input with
  | number x =>
    have hshape : stops.length = 0 ∨ stops.length ≠ (Traced.parts (outcomes env outputs)).length := by
      rw [Traced.length_parts, outcomes, List.length_map, List.length_eq_zero_iff]
      exact h.resolve_left fun hnumber => hnumber x rfl
    refine ⟨.malformedStops, ?_⟩
    unfold traceIn evaluate
    dsimp only
    rw [if_pos hshape]
    rfl
  | _ => exact ⟨_, rfl⟩

/-- Otherwise it evaluates the output of one stop, or that of the next one after it. -/
theorem traceIn_snd {x : N} (hne : stops ≠ []) (hlen : outputs.length = stops.length) :
    ∃ index < outputs.length,
      (traceIn env interpolation kind stops outputs (.number x)).2 = [index] ∨
      index + 1 < outputs.length ∧
        (traceIn env interpolation kind stops outputs (.number x)).2 = [index, index + 1] := by
  cases hselect : select interpolation stops x with
  | only index =>
    have hindex := hlen ▸ lt_of_select_only hne hselect
    refine ⟨index, hindex, .inl ?_⟩
    rw [traceIn_of_only hlen hselect (List.getElem?_eq_getElem hindex)]
  | between index factor =>
    have hlt := hlen ▸ (lt_of_select_between hselect).1
    have hindex := Nat.lt_of_succ_lt hlt
    refine ⟨index, hindex, ?_⟩
    rw [traceIn_of_between hlen hselect (List.getElem?_eq_getElem hindex)
      (List.getElem?_eq_getElem hlt)]
    cases outputs[index] env with
    | error failure => exact .inl rfl
    | ok a => exact .inr ⟨hlt, rfl⟩

end

/-- A curve with any stops and any outputs, at any input. The search and the evaluation have the results
of the search and the evaluation whose reads have to succeed, so none of their reads leaves the lists,
and the stop found is one of the list, or the index is zero where there are no stops. What is evaluated
is nothing, the output of one stop, or those of two neighbours, the lower one first. It is nothing, and
the curve fails, where the input is no number, there are no stops, or there are more or fewer outputs
than stops. -/
theorem evaluate_bounded [LawfulOrder N] (env : Env N) (interpolation : Interpolation N)
    (kind : OutputKind) (stops : List N) (outputs : List (Eval N (Value N))) (input : Value N) :
    (∀ x, findStop? stops x = some (findStop stops x) ∧
      (findStop stops x < stops.length ∨ stops = [] ∧ findStop stops x = 0)) ∧
    evaluate? interpolation kind stops outputs input =
      some (evaluate interpolation kind stops outputs input) ∧
    (traceIn env interpolation kind stops outputs input).1 =
      evaluate interpolation kind stops outputs input env ∧
    ((traceIn env interpolation kind stops outputs input).2 = [] ∨
      ∃ index < outputs.length,
        (traceIn env interpolation kind stops outputs input).2 = [index] ∨
        index + 1 < outputs.length ∧
          (traceIn env interpolation kind stops outputs input).2 = [index, index + 1]) ∧
    ((∀ x, input ≠ .number x) ∨ stops = [] ∨ stops.length ≠ outputs.length →
      ∃ failure, traceIn env interpolation kind stops outputs input = (.error failure, [])) := by
  refine ⟨fun x => ⟨findStop?_eq stops x, ?_⟩, evaluate?_eq .., traceIn_fst .., ?_,
    traceIn_of_malformed⟩
  · by_cases hne : stops = []
    · subst hne
      exact .inr ⟨rfl, findStop_nil x⟩
    · exact .inl (findStop_lt x hne)
  · by_cases hmalformed : (∀ x, input ≠ .number x) ∨ stops = [] ∨ stops.length ≠ outputs.length
    · obtain ⟨failure, htrace⟩ : ∃ failure, traceIn env interpolation kind stops outputs input =
          (.error failure, []) := traceIn_of_malformed hmalformed
      exact .inl (congrArg Prod.snd htrace)
    · simp only [not_or, not_forall, not_not] at hmalformed
      obtain ⟨⟨x, rfl⟩, hne, hlen⟩ := hmalformed
      exact .inr (traceIn_snd hne hlen.symm)

/-- The stop in the middle is not a number, so the search ends before it, and its output is asked for as
that of the next stop. -/
theorem evaluate_bounded_unordered :
    let env : Env Float := ⟨none, ⟨[], .null, .unknown⟩, []⟩
    let stops : List Float := [Scalar.ofInt 10, Scalar.ofInt 0 / Scalar.ofInt 0, Scalar.ofInt 20]
    let outputs : List (Eval Float (Value Float)) :=
      [pure (.number (Scalar.ofInt 1)), throw .zoomUnavailable, pure (.number (Scalar.ofInt 3))]
    evaluate? .linear .number stops outputs (.number (Scalar.ofInt 15)) =
        some (evaluate .linear .number stops outputs (.number (Scalar.ofInt 15))) ∧
      traceIn env .linear .number stops outputs (.number (Scalar.ofInt 15)) =
        (.error .zoomUnavailable, [0, 1]) := by
  intro env stops outputs
  have h := evaluate_bounded env .linear .number stops outputs (.number (Scalar.ofInt 15))
  refine ⟨h.2.1, ?_⟩
  have hfind : findStop stops (Scalar.ofInt 15) = 0 := by
    rw [findStop, searchStops]
    decide +kernel
  have hselect : ∃ t, select .linear stops (Scalar.ofInt 15) = .between 0 t := by
    unfold select
    rw [hfind]
    exact ⟨_, rfl⟩
  obtain ⟨t, hselect⟩ := hselect
  have hlen : outputs.length = stops.length := rfl
  have hlower : outputs[0]? = some (pure (.number (Scalar.ofInt 1))) := rfl
  have hupper : outputs[0 + 1]? = some (throw .zoomUnavailable) := rfl
  exact traceIn_of_between hlen hselect hlower hupper

end MapStyle.Curve
