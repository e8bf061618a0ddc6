import MapStyle.Proofs.Binary64.Order
import MapStyle.Proofs.Curve.Reading
import MapStyle.Proofs.Evaluation.Trace
import MapStyle.Proofs.Expr.Outcomes

/-!
# The outputs that a curve evaluates

`Curve.traceIn` is what a curve gives in an environment, together with the outputs that it evaluates
for it. For ascending stops `trace_of_ascending` tells it by the place of the input: up to the first
stop and from the last one on a single output is evaluated, in between at most those of the two
neighbours.
-/

namespace MapStyle.Curve

variable {N : Type} [Scalar N] {interpolation : Interpolation N} {kind : OutputKind} {stops : List N}
  {x t : N} {index : Nat}

/-! ## Runs -/

/-- The outcome of a curve in an environment, and the outputs that it evaluates, in order. -/
def traceIn (env : Env N) (interpolation : Interpolation N) (kind : OutputKind) (stops : List N)
    (outputs : List (Eval N (Value N))) (input : Value N) : Outcome N (Value N) × List Nat :=
  (evaluate interpolation kind stops (Traced.parts (outcomes env outputs)) input).trace

/-- What two neighbouring outputs give that are blended. The upper one is evaluated only where the
lower one has a value. -/
def blendTrace (kind : OutputKind) (index : Nat) (t : N) (lower upper : Outcome N (Value N)) :
    Outcome N (Value N) × List Nat :=
  match lower with
  | .error failure => (.error failure, [index])
  | .ok a => (upper.bind fun b => blend kind a b t, [index, index + 1])

omit [Scalar N] in
theorem gives_output (outcomes : List (Outcome N (Value N))) (index : Nat) :
    (output (Traced.parts outcomes) index).Gives (output outcomes index) := by
  cases h : outcomes[index]? with
  | some o =>
    rw [output_eq h, output_eq (Traced.getElem?_parts h)]
    exact Traced.gives_part index o
  | none =>
    have hparts : (Traced.parts outcomes)[index]? = none := by
      rw [List.getElem?_eq_none_iff] at h ⊢
      rwa [Traced.length_parts]
    unfold output
    rw [h, hparts]
    exact fun _ => rfl

/-- What is evaluated is noted beside the outcome and does not change it. -/
theorem traceIn_fst (env : Env N) (interpolation : Interpolation N) (kind : OutputKind)
    (stops : List N) (outputs : List (Eval N (Value N))) (input : Value N) :
    (traceIn env interpolation kind stops outputs input).1 =
      evaluate interpolation kind stops outputs input env := by
  rw [evaluate_inEnv]
  unfold traceIn Traced.trace
  generalize outcomes env outputs = os
  cases input with
  | number x =>
    unfold evaluate
    dsimp only
    rw [Traced.length_parts]
    split
    · rfl
    cases select interpolation stops x with
    | only index => exact gives_output os index []
    | between index factor =>
      refine (gives_output os index).bind (fun lower => ?_) []
      refine (gives_output os (index + 1)).bind fun upper seen => ?_
      cases blend kind lower upper factor <;> rfl
  | _ => rfl

section

variable {env : Env N} {outputs : List (Eval N (Value N))} {lower upper : Eval N (Value N)}

omit [Scalar N] in
theorem getElem?_traced (h : outputs[index]? = some lower) :
    (Traced.parts (outcomes env outputs))[index]? = some (Traced.part index (lower env)) :=
  Traced.getElem?_parts (by rw [outcomes, List.getElem?_map, h]; rfl)

omit [Scalar N] in
theorem length_traced (hlen : outputs.length = stops.length) :
    (Traced.parts (outcomes env outputs)).length = stops.length := by
  rw [Traced.length_parts, outcomes, List.length_map, hlen]

theorem traceIn_of_only (hlen : outputs.length = stops.length)
    (hselect : select interpolation stops x = .only index) (hlower : outputs[index]? = some lower) :
    traceIn env interpolation kind stops outputs (.number x) = (lower env, [index]) := by
  unfold traceIn
  rw [evaluate_of_only kind (length_traced hlen) hselect (getElem?_traced hlower), Traced.trace_part]

theorem traceIn_of_between (hlen : outputs.length = stops.length)
    (hselect : select interpolation stops x = .between index t)
    (hlower : outputs[index]? = some lower) (hupper : outputs[index + 1]? = some upper) :
    traceIn env interpolation kind stops outputs (.number x) =
      blendTrace kind index t (lower env) (upper env) := by
  unfold traceIn
  rw [evaluate_of_between kind (length_traced hlen) hselect (getElem?_traced hlower)
    (getElem?_traced hupper)]
  cases lower env with
  | error failure => rfl
  | ok a =>
    cases upper env with
    | error failure => rfl
    | ok b =>
      have hblended : blendTrace kind index t (.ok a) (.ok b) = (blend kind a b t, [index, index + 1]) :=
        rfl
      unfold Traced.trace
      rw [hblended, Traced.run_part_bind, Traced.run_part_bind]
      cases blend kind a b t <;> rfl

end

/-! ## Ascending stops -/

section

variable [LawfulOrder N]

/-- An input above the first stop and below the last one lies between two neighbours, and between no
others. -/
theorem exists_between_iff (hne : stops ≠ []) (hstops : Ascending stops) (hx : (x == x) = true)
    (hlength : stops.length ≠ 1) (hfirst : Scalar.atMost x (stops.head hne) = false)
    (hlast : Scalar.atMost (stops.getLast hne) x = false) :
    ∃ i, ∀ j, Between stops x j ↔ j = i := by
  obtain ⟨first, rest, rfl⟩ := List.exists_cons_of_ne_nil hne
  have hself : (first == first) = true := by
    cases rest with
    | nil => exact absurd rfl hlength
    | cons second others =>
      have hless := (List.pairwise_cons.mp hstops).1 second List.mem_cons_self
      exact (LawfulOrder.self_of_less hless).1
  have habove : Scalar.atMost first x = true :=
    Scalar.atMost_of_less (Scalar.less_of_not_atMost hself hx hfirst)
  obtain hend | ⟨i, hi⟩ := exists_between hx hstops habove
  · rw [List.getLast?_eq_some_getLast hne, Option.any_some, hlast] at hend
    cases hend
  · refine ⟨i, fun j => ⟨fun hj => ?_, fun heq => heq ▸ hi⟩⟩
    rw [← findStop_eq_of_between hj hstops, findStop_eq_of_between hi hstops]

omit [LawfulOrder N] in
theorem trace_of_first {env : Env N} {outputs : List (Eval N (Value N))} (hne : stops ≠ [])
    (hlen : outputs.length = stops.length)
    (hfirst : stops.length = 1 ∨ Scalar.atMost x (stops.head hne) = true) :
    ∃ first, outputs.head? = some first ∧
      traceIn env interpolation kind stops outputs (.number x) = (first env, [0]) := by
  have hselect : select interpolation stops x = .only 0 := by
    refine select_eq_first (hfirst.imp_right fun h => ?_)
    rwa [List.head?_eq_some_head hne]
  obtain ⟨first, rest, rfl⟩ := List.exists_cons_of_ne_nil (ne_nil_of_length_eq hne hlen)
  exact ⟨first, rfl, traceIn_of_only hlen hselect rfl⟩

theorem trace_of_last {env : Env N} {outputs : List (Eval N (Value N))} (hne : stops ≠ [])
    (hstops : Ascending stops) (hlen : outputs.length = stops.length)
    (hlast : Scalar.atMost (stops.getLast hne) x = true) :
    ∃ last, outputs.getLast? = some last ∧
      traceIn env interpolation kind stops outputs (.number x) =
        (last env, [stops.length - 1]) := by
  have hend : stops[stops.length - 1]? = some (stops.getLast hne) := by
    rw [← List.getLast?_eq_getElem?, List.getLast?_eq_some_getLast hne]
  have hselect : select interpolation stops x = .only (stops.length - 1) := by
    by_cases hfirst : stops.length = 1 ∨ stops.head?.any (Scalar.atMost x) = true
    · -- The first stop is the last one.
      have hzero : stops.length - 1 = 0 := by
        rcases hfirst with hlength | hhead
        · omega
        · exact index_eq_zero_of_head hstops hhead hend hlast
      rw [select_eq_first hfirst, hzero]
    · exact select_eq_last hfirst (by rwa [List.getLast?_eq_some_getLast hne])
  have houtputs := ne_nil_of_length_eq hne hlen
  refine ⟨outputs.getLast houtputs, List.getLast?_eq_some_getLast houtputs,
    traceIn_of_only hlen hselect ?_⟩
  rw [← hlen, ← List.getLast?_eq_getElem?, List.getLast?_eq_some_getLast houtputs]

theorem trace_of_between {env : Env N} {outputs : List (Eval N (Value N))}
    {lower upper : Eval N (Value N)} {a b : N} (hstops : Ascending stops)
    (hlen : outputs.length = stops.length)
    (hfirst : ¬(stops.length = 1 ∨ stops.head?.any (Scalar.atMost x) = true))
    (hbetween : Between stops x index) (ha : stops[index]? = some a) (hb : stops[index + 1]? = some b)
    (hlower : outputs[index]? = some lower) (hupper : outputs[index + 1]? = some upper) :
    traceIn env interpolation kind stops outputs (.number x) =
      if interpolation.isStep then (lower env, [index])
      else blendTrace kind index (interpolation.factor x a b) (lower env) (upper env) := by
  cases hstep : interpolation.isStep with
  | true =>
    have hselect : select interpolation stops x = .only index := by
      cases interpolation with
      | step => exact select_step_eq hbetween hstops hfirst
      | _ => cases hstep
    rw [if_pos rfl, traceIn_of_only hlen hselect hlower]
  | false =>
    have hne : interpolation ≠ .step := by
      rintro rfl
      cases hstep
    have hselect := select_eq_between hbetween hstops hfirst hne ha hb
    rw [if_neg Bool.false_ne_true, traceIn_of_between hlen hselect hlower hupper]

/-- A curve with ascending stops, at an input that is a number. With a single stop, or up to the first
one, it gives the first output and evaluates nothing else; from the last stop on it gives the last
output and evaluates nothing else. Otherwise the input lies between two neighbouring stops, which are
told by it: a step curve gives the lower output and evaluates nothing else, and any other curve
evaluates the lower output, then, if that has a value, the upper one, fails with the first failure met,
and blends the two values by the factor of the input. -/
theorem trace_of_ascending (env : Env N) (interpolation : Interpolation N) (kind : OutputKind)
    {outputs : List (Eval N (Value N))} (hne : stops ≠ []) (hstops : Ascending stops)
    (hlen : outputs.length = stops.length) (hx : (x == x) = true) :
    (traceIn env interpolation kind stops outputs (.number x)).1 =
      evaluate interpolation kind stops outputs (.number x) env ∧
    (stops.length = 1 ∨ Scalar.atMost x (stops.head hne) = true →
      ∃ first, outputs.head? = some first ∧
        traceIn env interpolation kind stops outputs (.number x) = (first env, [0])) ∧
    (Scalar.atMost (stops.getLast hne) x = true →
      ∃ last, outputs.getLast? = some last ∧
        traceIn env interpolation kind stops outputs (.number x) =
          (last env, [stops.length - 1])) ∧
    (¬(stops.length = 1 ∨ Scalar.atMost x (stops.head hne) = true) →
      ¬Scalar.atMost (stops.getLast hne) x = true →
      ∃ i a b lower upper, (∀ j, Between stops x j ↔ j = i) ∧ stops[i]? = some a ∧
        stops[i + 1]? = some b ∧ outputs[i]? = some lower ∧ outputs[i + 1]? = some upper ∧
        traceIn env interpolation kind stops outputs (.number x) =
          if interpolation.isStep then (lower env, [i])
          else blendTrace kind i (interpolation.factor x a b) (lower env) (upper env)) := by
  refine ⟨traceIn_fst .., trace_of_first hne hlen, trace_of_last hne hstops hlen, ?_⟩
  intro hfirst hlast
  obtain ⟨hlength, hhead⟩ := not_or.mp hfirst
  rw [Bool.not_eq_true] at hhead hlast
  obtain ⟨i, hi⟩ := exists_between_iff hne hstops hx hlength hhead hlast
  have hbetween := (hi i).mpr rfl
  obtain ⟨a, b, ha, hb, -⟩ := id hbetween
  have hupper : i + 1 < outputs.length := hlen ▸ hbetween.lt
  refine ⟨i, a, b, outputs[i], outputs[i + 1], hi, ha, hb, List.getElem?_eq_getElem _,
    List.getElem?_eq_getElem _, ?_⟩
  refine trace_of_between hstops hlen ?_ hbetween ha hb (List.getElem?_eq_getElem _)
    (List.getElem?_eq_getElem _)
  rwa [List.head?_eq_some_head hne]

end

/-- The upper neighbour fails after the lower one has been evaluated; the last output is left alone. -/
theorem trace_of_ascending_failing :
    traceIn (⟨none, ⟨[], .null, .unknown⟩, []⟩ : Env Float) .linear .number
      [Scalar.ofInt 0, Scalar.ofInt 5, Scalar.ofInt 10]
      [pure (.number (Scalar.ofInt 1)), throw .zoomUnavailable, pure (.number (Scalar.ofInt 3))]
      (.number (Scalar.ofInt 2)) = (.error .zoomUnavailable, [0, 1]) := by
  have hstops : Ascending [(Scalar.ofInt 0 : Float), Scalar.ofInt 5, Scalar.ofInt 10] :=
    .cons (List.forall_mem_cons.mpr ⟨rfl, List.forall_mem_singleton.mpr rfl⟩)
      (.cons (List.forall_mem_singleton.mpr rfl) (.cons nofun .nil))
  have hlen : ([pure (.number (Scalar.ofInt 1)), throw .zoomUnavailable,
      pure (.number (Scalar.ofInt 3))] : List (Eval Float (Value Float))).length =
        [(Scalar.ofInt 0 : Float), Scalar.ofInt 5, Scalar.ofInt 10].length := rfl
  have hx : ((Scalar.ofInt 2 : Float) == Scalar.ofInt 2) = true := rfl
  obtain ⟨-, -, -, hbetween⟩ := trace_of_ascending ⟨none, ⟨[], .null, .unknown⟩, []⟩ .linear .number
    (List.cons_ne_nil _ _) hstops hlen hx
  obtain ⟨i, a, b, lower, upper, hi, -, -, hlower, hupper, htrace⟩ := hbetween (by decide) (by decide)
  obtain rfl : 0 = i := (hi 0).mp ⟨_, _, rfl, rfl, rfl, rfl⟩
  cases hlower
  cases hupper
  exact htrace

end MapStyle.Curve
