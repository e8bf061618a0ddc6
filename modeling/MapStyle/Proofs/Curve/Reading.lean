import MapStyle.Proofs.Curve.Blending
import MapStyle.Proofs.Curve.Search
import MapStyle.Proofs.Evaluation.Answer

/-!
# Reading stops

`readStops` says what a list of stops with answers means at an input: the first answer up to the first
stop, the last one from the last stop on, and in between what the two neighbours give, which is looked
for from the first on. A curve answers with what its stops read (`answer_evaluate`).
-/

namespace MapStyle.Curve

variable {N : Type} [Scalar N]

/-! ## Readings -/

section

variable (base : Option N) (kind : OutputKind) (x : N)

/-- What two neighbouring stops give at an input between them: with a base the blend of both answers,
each unit of the way counting `base` times the one before, and without one the lower answer. -/
def readBetween (lower upper : N × Option (Value N)) : Option (Value N) :=
  match base with
  | none => lower.2
  | some base => match lower.2, upper.2 with
    | some a, some b =>
      (blend kind a b (Interpolation.exponentialFactor base x lower.1 upper.1)).toOption
    | _, _ => none

/-- What stops give at an input that lies above the first of them. -/
def readAbove (lower : N × Option (Value N)) : List (N × Option (Value N)) → Option (Value N)
  | [] => lower.2
  | upper :: rest =>
    if Scalar.less x upper.1 then readBetween base kind x lower upper else readAbove upper rest

/-- What stops give at an input. -/
def readStops : List (N × Option (Value N)) → Option (Value N)
  | [] => none
  | first :: rest => if Scalar.atMost x first.1 then first.2 else readAbove base kind x first rest

end

/-- Whether an interpolation blends by powers of the base, or is a step where there is none. -/
def BlendsBy (interpolation : Interpolation N) : Option N → Prop
  | none => interpolation = .step
  | some base => interpolation ≠ .step ∧ ∀ x lower upper : N,
      interpolation.factor x lower upper = Interpolation.exponentialFactor base x lower upper

/-! ## The outputs selected -/

section

variable {interpolation : Interpolation N} {stops : List N} {x : N} {index : Nat}

theorem select_eq_first (h : stops.length = 1 ∨ stops.head?.any (Scalar.atMost x) = true) :
    select interpolation stops x = .only 0 := if_pos h

theorem select_eq_last (hfirst : ¬(stops.length = 1 ∨ stops.head?.any (Scalar.atMost x) = true))
    (hlast : stops.getLast?.any (Scalar.atMost · x) = true) :
    select interpolation stops x = .only (stops.length - 1) := by
  unfold select
  dsimp only
  rw [if_neg hfirst, if_pos hlast]

variable [LawfulOrder N]

theorem Between.not_last (h : Between stops x index) (hstops : Ascending stops) :
    ¬stops.getLast?.any (Scalar.atMost · x) = true := by
  intro hlast
  have hlt := h.lt
  have hlength : stops.length - 1 < stops.length := by omega
  have hless := h.less_of_gt hstops (List.getElem?_eq_getElem hlength) (by omega)
  rw [List.getLast?_eq_getElem?, List.getElem?_eq_getElem hlength, Option.any_some,
    Scalar.not_atMost_of_less hless] at hlast
  cases hlast

/-- Between two neighbours a step curve selects the lower output. -/
theorem select_step_eq (h : Between stops x index) (hstops : Ascending stops)
    (hfirst : ¬(stops.length = 1 ∨ stops.head?.any (Scalar.atMost x) = true)) :
    select .step stops x = .only index := by
  unfold select
  dsimp only
  rw [if_neg hfirst, if_neg (h.not_last hstops), findStop_eq_of_between h hstops]

/-- Between two neighbours a curve that interpolates selects the outputs of both. -/
theorem select_eq_between (h : Between stops x index) (hstops : Ascending stops)
    (hfirst : ¬(stops.length = 1 ∨ stops.head?.any (Scalar.atMost x) = true))
    (hstep : interpolation ≠ .step) {lower upper : N} (hlower : stops[index]? = some lower)
    (hupper : stops[index + 1]? = some upper) :
    select interpolation stops x = .between index (interpolation.factor x lower upper) := by
  unfold select
  dsimp only
  rw [if_neg hfirst, if_neg (h.not_last hstops), findStop_eq_of_between h hstops, hlower, hupper]
  cases interpolation with
  | step => exact absurd rfl hstep
  | _ => rfl

end

/-! ## The outputs evaluated -/

section

variable {m : Type → Type} [Monad m] [MonadExceptOf (Failure N) m] {interpolation : Interpolation N}
  {stops : List N} {x t : N} {outputs : List (m (Value N))} {index : Nat} {lower upper : m (Value N)}

omit [Scalar N] [Monad m] in
theorem output_eq (h : outputs[index]? = some lower) : output outputs index = lower := by
  unfold output
  rw [h]
  rfl

/-- A curve that selects one output evaluates this output and nothing else. -/
theorem evaluate_of_only (kind : OutputKind) (hlen : outputs.length = stops.length)
    (hselect : select interpolation stops x = .only index) (hlower : outputs[index]? = some lower) :
    evaluate interpolation kind stops outputs (.number x) = lower := by
  have hshape : ¬(stops.length = 0 ∨ stops.length ≠ outputs.length) := by
    have hlt := (List.getElem?_eq_some_iff.mp hlower).1
    omega
  unfold evaluate
  dsimp only
  rw [if_neg hshape, hselect]
  exact output_eq hlower

/-- A curve that selects two outputs evaluates both, the lower one first, and blends their values. -/
theorem evaluate_of_between (kind : OutputKind) (hlen : outputs.length = stops.length)
    (hselect : select interpolation stops x = .between index t)
    (hlower : outputs[index]? = some lower) (hupper : outputs[index + 1]? = some upper) :
    evaluate interpolation kind stops outputs (.number x) = (do
      let a ← lower
      let b ← upper
      match blend kind a b t with
      | .ok v => pure v
      | .error failure => throw failure) := by
  have hshape : ¬(stops.length = 0 ∨ stops.length ≠ outputs.length) := by
    have hlt := (List.getElem?_eq_some_iff.mp hlower).1
    omega
  unfold evaluate
  dsimp only
  rw [if_neg hshape, hselect]
  refine (congrArg (· >>= _) (output_eq hlower)).trans (congrArg (lower >>= ·) (funext fun a => ?_))
  exact congrArg (· >>= _) (output_eq hupper)

end

/-! ## The answer of a curve -/

theorem isNull_of_blend {kind : OutputKind} {a b v : Value N} {t : N}
    (h : blend kind a b t = .ok v) : v.isNull = false := by
  unfold blend at h
  split at h
  · cases h
    rfl
  · cases h
    rfl
  · obtain ⟨items, -, h⟩ := Outcome.bind_eq_ok h
    cases h
    rfl
  · cases h

theorem blend_of_isNull (kind : OutputKind) {a b : Value N} (t : N)
    (h : a.isNull = true ∨ b.isNull = true) : ∃ failure, blend kind a b t = .error failure := by
  rcases h with h | h
  · cases a with
    | null => exact ⟨.notBlendable .null b, by cases kind <;> rfl⟩
    | _ => cases h
  · cases b with
    | null => exact ⟨.notBlendable a .null, by cases kind <;> cases a <;> rfl⟩
    | _ => cases h

/-- Two outputs give a blend where both have an answer and these can be blended. -/
theorem answer_blend (kind : OutputKind) (lower upper : Outcome N (Value N)) (t : N) :
    answer (do
      let a ← lower
      let b ← upper
      match blend kind a b t with
      | .ok v => pure v
      | .error failure => throw failure) =
    match answer lower, answer upper with
    | some a, some b => (blend kind a b t).toOption
    | _, _ => none := by
  cases lower with
  | error failure => rfl
  | ok a =>
    cases upper with
    | error failure => cases answer (.ok a) <;> rfl
    | ok b =>
      show answer (match blend kind a b t with
        | .ok v => .ok v
        | .error failure => .error failure) = _
      by_cases h : a.isNull = true ∨ b.isNull = true
      · obtain ⟨failure, hfailure⟩ := blend_of_isNull kind t h
        rw [hfailure]
        rcases h with h | h
        · rw [answer_ok_of_isNull h]
          rfl
        · rw [answer_ok_of_isNull h]
          cases answer (.ok a) <;> rfl
      · rw [not_or, Bool.not_eq_true, Bool.not_eq_true] at h
        rw [answer_ok h.1, answer_ok h.2]
        show _ = (blend kind a b t).toOption
        cases hblend : blend kind a b t with
        | error failure => rfl
        | ok v => exact answer_ok (isNull_of_blend hblend)

/-- A stop with the answer of its output. -/
def answered (stop : N × Outcome N (Value N)) : N × Option (Value N) := (stop.1, answer stop.2)

/-- A curve that selects one output answers with it. -/
theorem answer_evaluate_only {interpolation : Interpolation N} {kind : OutputKind} {x : N}
    {rows : List (N × Outcome N (Value N))} {index : Nat} {row : N × Outcome N (Value N)}
    (hselect : select interpolation (rows.map (·.1)) x = .only index)
    (hrow : rows[index]? = some row) :
    answer (evaluate interpolation kind (rows.map (·.1)) (rows.map (·.2)) (.number x)) =
      answer row.2 := by
  rw [evaluate_of_only kind (by simp only [List.length_map]) hselect
    (by rw [List.getElem?_map, hrow]; rfl)]

/-- A curve that selects two outputs answers with their blend. -/
theorem answer_evaluate_between {interpolation : Interpolation N} {kind : OutputKind} {x t : N}
    {rows : List (N × Outcome N (Value N))} {index : Nat} {lower upper : N × Outcome N (Value N)}
    (hselect : select interpolation (rows.map (·.1)) x = .between index t)
    (hlower : rows[index]? = some lower) (hupper : rows[index + 1]? = some upper) :
    answer (evaluate interpolation kind (rows.map (·.1)) (rows.map (·.2)) (.number x)) =
      match answer lower.2, answer upper.2 with
      | some a, some b => (blend kind a b t).toOption
      | _, _ => none := by
  rw [evaluate_of_between kind (by simp only [List.length_map]) hselect
    (by rw [List.getElem?_map, hlower]; rfl) (by rw [List.getElem?_map, hupper]; rfl)]
  exact answer_blend ..

variable [LawfulOrder N]

/-- At an input above the first stop, either it lies above all stops and the last answer is read, or
it lies between two neighbours. -/
theorem readAbove_cases (base : Option N) (kind : OutputKind) {x : N} (hx : (x == x) = true)
    (lower : N × Outcome N (Value N)) (rest : List (N × Outcome N (Value N)))
    (hstops : Ascending ((lower :: rest).map (·.1))) (hlower : Scalar.atMost lower.1 x = true) :
    (∃ last, (lower :: rest).getLast? = some last ∧ Scalar.atMost last.1 x = true ∧
      readAbove base kind x (answered lower) (rest.map answered) = answer last.2) ∨
    ∃ (i : Nat) (a b : N × Outcome N (Value N)), (lower :: rest)[i]? = some a ∧
      (lower :: rest)[i + 1]? = some b ∧ Scalar.atMost a.1 x = true ∧
      Scalar.less x b.1 = true ∧ readAbove base kind x (answered lower) (rest.map answered) =
        readBetween base kind x (answered a) (answered b) := by
  induction rest generalizing lower with
  | nil => exact .inl ⟨lower, rfl, hlower, rfl⟩
  | cons upper rest ih =>
    have hread : readAbove base kind x (answered lower) ((upper :: rest).map answered) =
        if Scalar.less x upper.1 = true then readBetween base kind x (answered lower) (answered upper)
        else readAbove base kind x (answered upper) (rest.map answered) := rfl
    rw [hread]
    cases hless : Scalar.less x upper.1 with
    | true => exact .inr ⟨0, lower, upper, rfl, rfl, hlower, hless, if_pos rfl⟩
    | false =>
      obtain ⟨habove, hrest⟩ := List.pairwise_cons.mp hstops
      have hupper : (upper.1 == upper.1) = true :=
        (LawfulOrder.self_of_less (habove upper.1 List.mem_cons_self)).2
      have hatMost := Scalar.atMost_of_not_less hx hupper hless
      rw [if_neg Bool.false_ne_true]
      obtain ⟨last, hlast, hle, hread⟩ | ⟨i, a, b, ha, hb, hread⟩ := ih upper hrest hatMost
      · exact .inl ⟨last, by rw [List.getLast?_cons_cons]; exact hlast, hle, hread⟩
      · exact .inr ⟨i + 1, a, b, ha, hb, hread⟩

/-- A curve with ascending stops answers with what they read at its input. -/
theorem answer_evaluate {interpolation : Interpolation N} {base : Option N} (kind : OutputKind)
    {x : N} (hbase : BlendsBy interpolation base) (hx : (x == x) = true)
    (rows : List (N × Outcome N (Value N))) (hstops : Ascending (rows.map (·.1))) :
    answer (evaluate interpolation kind (rows.map (·.1)) (rows.map (·.2)) (.number x)) =
      readStops base kind x (rows.map answered) := by
  cases rows with
  | nil => rfl
  | cons first rest =>
    have hread : readStops base kind x ((first :: rest).map answered) =
        if Scalar.atMost x first.1 = true then answer first.2
        else readAbove base kind x (answered first) (rest.map answered) := rfl
    rw [hread]
    by_cases hclamp : Scalar.atMost x first.1 = true
    · rw [if_pos hclamp]
      exact answer_evaluate_only (select_eq_first (.inr hclamp)) rfl
    rw [if_neg hclamp]
    cases rest with
    | nil => exact answer_evaluate_only (select_eq_first (.inl rfl)) rfl
    | cons second others =>
      have hless := (List.pairwise_cons.mp hstops).1 second.1 List.mem_cons_self
      have hlower : Scalar.atMost first.1 x = true :=
        Scalar.atMost_of_less (Scalar.less_of_not_atMost (LawfulOrder.self_of_less hless).1 hx
          (Bool.eq_false_iff.mpr hclamp))
      have hfirst : ¬(((first :: second :: others).map (·.1)).length = 1 ∨
          ((first :: second :: others).map (·.1)).head?.any (Scalar.atMost x) = true) := by
        rintro (hlength | hhead)
        · cases hlength
        · exact hclamp hhead
      obtain ⟨last, hlast, hle, hread⟩ | ⟨i, a, b, ha, hb, hle, hlt, hread⟩ :=
        readAbove_cases base kind hx first (second :: others) hstops hlower
      · rw [hread]
        refine answer_evaluate_only (select_eq_last hfirst ?_) ?_
        · rw [List.getLast?_map, hlast]
          exact hle
        · rw [List.length_map, ← List.getLast?_eq_getElem?]
          exact hlast
      · have hstop {i : Nat} {r : N × Outcome N (Value N)}
            (hr : (first :: second :: others)[i]? = some r) :
            ((first :: second :: others).map (·.1))[i]? = some r.1 := by
          rw [List.getElem?_map, hr]
          rfl
        have hbetween : Between ((first :: second :: others).map (·.1)) x i :=
          ⟨a.1, b.1, hstop ha, hstop hb, hle, hlt⟩
        rw [hread]
        cases base with
        | none =>
          obtain rfl : interpolation = .step := hbase
          exact answer_evaluate_only (select_step_eq hbetween hstops hfirst) ha
        | some base =>
          obtain ⟨hstep, hfactor⟩ := hbase
          have hselect := select_eq_between hbetween hstops hfirst hstep (hstop ha) (hstop hb)
          rw [hfactor] at hselect
          exact answer_evaluate_between hselect ha hb

end MapStyle.Curve
