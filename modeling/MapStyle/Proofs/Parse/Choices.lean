import MapStyle.Proofs.Parse.Arguments
import MapStyle.Proofs.Parse.Labels

/-!
# What the choices make of their arguments

For `coalesce`, `case` and `match` two lemmas each: `…_shape` gives the arguments that an expression
can come from, and `…_result_iff` the expression that comes from arguments of that shape, in terms of
what the arguments give.
-/

namespace MapStyle

variable {N : Type}

namespace Parse

/-! ## Choices -/

section

variable {c : Context} {e : Expr N}

theorem coalesce_shape {args : List (Argument N)} (h : (coalesce c args).result = some e) :
    args ≠ [] := by
  rintro rfl
  cases h

theorem coalesce_result_iff {args : List (Argument N)} (hne : args ≠ []) :
    (coalesce c args).result = some e ↔ ∃ es, es.length = args.length ∧
      (∀ (i : Nat) a e, args[i]? = some a → es[i]? = some e →
        (a.parse (c.child (i + 1) (settle c.outputHint (es.take i)))).result = some e) ∧
      e = .coalesce c.key ((settle c.outputHint es).getD .error) es := by
  have hnext : ∀ s a b, (coalesceStep (N := N) c s a).2.result = some b →
      (coalesceStep c s a).1 = unifyOutput s (some b) := by
    intro s a b h
    exact congrArg (unifyOutput s) h
  have hargs : ∀ es, (Checked.sweep (coalesceStep c) c.outputHint (args.zipIdx 1)).2.result =
      some es ↔ es.length = args.length ∧
        ∀ (i : Nat) a e, args[i]? = some a → es[i]? = some e →
          (a.parse (c.child (i + 1) (settle c.outputHint (es.take i)))).result = some e := by
    intro es
    rw [Checked.sweep_result_iff hnext, List.length_zipIdx]
    refine and_congr_right fun _ => forall_congr' fun i => ?_
    simp only [List.getElem?_zipIdx, Option.map_eq_some_iff, Nat.add_comm 1 i]
    constructor
    · exact fun h a e ha he => h _ e ⟨a, ha, rfl⟩ he
    · rintro h _ e ⟨a, ha, rfl⟩ he
      exact h a e ha he
  have hempty : args.isEmpty = false := by simpa using hne
  unfold coalesce
  simp only [hempty, Bool.false_eq_true, if_false, Checked.map_result_eq_some]
  constructor
  · rintro ⟨es, hes, rfl⟩
    obtain ⟨hlen, hitems⟩ := (hargs es).mp hes
    refine ⟨es, hlen, hitems, ?_⟩
    rw [Checked.sweep_state hnext hes]
    rfl
  · rintro ⟨es, hlen, hitems, rfl⟩
    have hes := (hargs es).mpr ⟨hlen, hitems⟩
    refine ⟨es, hes, ?_⟩
    rw [Checked.sweep_state hnext hes]
    rfl

theorem conditional_shape {args : List (Argument N)} (h : (conditional c args).result = some e) :
    ∃ pairs last, pairs ≠ [] ∧ args = alternate pairs ++ [last] := by
  unfold conditional at h
  split at h
  · cases h
  · split at h
    · cases h
    · exact exists_alternate_last _ ‹_› ‹_›

theorem conditionalStep_next (s : Option Ty) (a : Nat × Argument N × Argument N)
    (b : Expr N × Expr N) (h : (conditionalStep c s a).2.result = some b) :
    (conditionalStep c s a).1 = unifyOutput s (some b.2) := unifyOutput_result h

theorem conditionalStep_result_iff {branches : List (Expr N × Expr N)} {i : Nat}
    {p : Argument N × Argument N} {b : Expr N × Expr N} :
    (conditionalStep c ((branches.take i).foldl (fun s b => unifyOutput s (some b.2)) c.outputHint)
        (1 + 2 * i, p)).2.result = some b ↔
      (p.1.parse (c.child (2 * i + 1) (some .boolean))).result = some b.1 ∧
        (p.2.parse (c.child (2 * i + 2)
          (settle c.outputHint ((branches.take i).map (·.2))))).result = some b.2 := by
  rw [foldl_unifyOutput, Nat.add_comm 1]
  exact Checked.zip_result_eq_some

theorem conditional_result_iff {pairs : List (Argument N × Argument N)} {last : Argument N}
    (hne : pairs ≠ []) :
    (conditional c (alternate pairs ++ [last])).result = some e ↔
      ∃ branches otherwise, branches.length = pairs.length ∧
        (∀ (i : Nat) p b, pairs[i]? = some p → branches[i]? = some b →
          (p.1.parse (c.child (2 * i + 1) (some .boolean))).result = some b.1 ∧
            (p.2.parse (c.child (2 * i + 2)
              (settle c.outputHint ((branches.take i).map (·.2))))).result = some b.2) ∧
        (last.parse (c.child (2 * pairs.length + 1)
          (settle c.outputHint (branches.map (·.2))))).result = some otherwise ∧
        e = .conditional c.key
          ((settle c.outputHint (branches.map (·.2) ++ [otherwise])).getD .error) branches
          otherwise := by
  have hpos : 0 < pairs.length := List.length_pos_iff.mpr hne
  have hlen : (alternate pairs ++ [last]).length = 2 * pairs.length + 1 := by
    rw [List.length_append, length_alternate, List.length_singleton]
  unfold conditional
  rw [hlen, if_neg (by omega), if_neg (by omega), List.getLast?_concat, List.dropLast_concat]
  simp only [Checked.map_result_eq_some, Prod.exists, Checked.zip_result_eq_some]
  constructor
  · rintro ⟨branches, otherwise, ⟨hbranches, hotherwise⟩, rfl⟩
    have hstate := Checked.sweep_state conditionalStep_next hbranches
    rw [foldl_unifyOutput] at hstate
    obtain ⟨hcount, hitems⟩ := (sweep_pairs_result_iff conditionalStep_next).mp hbranches
    rw [hstate] at hotherwise
    refine ⟨branches, otherwise, hcount, fun i p b hp hb => ?_, hotherwise, ?_⟩
    · exact conditionalStep_result_iff.mp (hitems i p b hp hb)
    · rw [hstate, hotherwise, settle_concat]
  · rintro ⟨branches, otherwise, hcount, hitems, hotherwise, rfl⟩
    have hbranches := (sweep_pairs_result_iff conditionalStep_next).mpr
      ⟨hcount, fun i p b hp hb => conditionalStep_result_iff.mpr (hitems i p b hp hb)⟩
    have hstate := Checked.sweep_state conditionalStep_next hbranches
    rw [foldl_unifyOutput] at hstate
    refine ⟨branches, otherwise, ⟨hbranches, ?_⟩, ?_⟩
    · rw [hstate]
      exact hotherwise
    · rw [hstate, hotherwise, settle_concat]

/-! ## Match -/

variable [Scalar N]

theorem matching_shape {args : List (Argument N)} (h : (matching c args).result = some e) :
    ∃ first pairs last, pairs ≠ [] ∧ args = first :: alternate pairs ++ [last] := by
  unfold matching at h
  split at h
  · cases h
  · split at h
    · cases h
    · exact exists_first_alternate_last ‹_› ‹_›

/-- What labels and outputs settle once those of one more branch have been parsed. -/
def afterBranch (state : Labels N × Option Ty) (b : List (Label N) × Expr N) :
    Labels N × Option Ty :=
  (b.1.foldl Labels.push state.1, unifyOutput state.2 (some b.2))

theorem matchingStep_next (s : Labels N × Option Ty) (a : Nat × Argument N × Argument N)
    (b : List (Label N) × Expr N) (h : (matchingStep c s a).2.result = some b) :
    (matchingStep c s a).1 = afterBranch s b := by
  have hlabels := (Checked.zip_result_eq_some.mp h).1
  exact Prod.ext (labelsAt_state hlabels) (unifyOutput_result h)

omit [Scalar N] in
theorem foldl_afterBranch (s : Labels N × Option Ty) (branches : List (List (Label N) × Expr N)) :
    branches.foldl afterBranch s = ((branches.flatMap (·.1)).foldl Labels.push s.1,
      settle s.2 (branches.map (·.2))) := by
  induction branches generalizing s with
  | nil => rfl
  | cons b rest ih =>
    rw [List.foldl_cons, ih, List.flatMap_cons, List.foldl_append]
    rfl

theorem matchingStep_result_iff {branches : List (List (Label N) × Expr N)} {i : Nat}
    {p : Argument N × Argument N} {b : List (Label N) × Expr N} :
    (matchingStep c ((branches.take i).foldl afterBranch (⟨none, []⟩, c.outputHint))
        (2 + 2 * i, p)).2.result = some b ↔
      (SpellsLabels p.1.raw b.1 ∧
        (((branches.take i).flatMap (·.1)).foldl Labels.push ⟨none, []⟩).Addable b.1) ∧
      (p.2.parse (c.child (2 * i + 3)
        (settle c.outputHint ((branches.take i).map (·.2))))).result = some b.2 := by
  rw [foldl_afterBranch, Nat.add_comm 2]
  exact Checked.zip_result_eq_some.trans (and_congr_left' labelsAt_result_iff)

theorem matching_eq {first : Argument N} {pairs : List (Argument N × Argument N)}
    {last : Argument N} (hne : pairs ≠ []) :
    matching c (first :: alternate pairs ++ [last]) =
      let swept := Checked.sweep (matchingStep c) (⟨none, []⟩, c.outputHint)
        (pairsFrom 2 (alternate pairs))
      let otherwise := last.parse (c.child (2 * pairs.length + 2) swept.1.2)
      let type := (unifyOutput swept.1.2 otherwise.result).getD .error
      (fun ((branches, input), otherwise) => .matching c.key type input branches otherwise) <$>
        (swept.2.zip (first.parse (c.child 1 swept.1.1.type))).zip otherwise := by
  have hpos : 0 < pairs.length := List.length_pos_iff.mpr hne
  have hlen : (first :: alternate pairs ++ [last]).length = 2 * pairs.length + 2 := by
    rw [List.length_append, List.length_cons, length_alternate, List.length_singleton]
  unfold matching
  rw [hlen, if_neg (by omega), if_neg (by omega), List.getLast?_concat]
  dsimp only [List.cons_append]
  rw [List.dropLast_concat]

theorem matching_result_iff {first : Argument N} {pairs : List (Argument N × Argument N)}
    {last : Argument N} (hne : pairs ≠ []) :
    (matching c (first :: alternate pairs ++ [last])).result = some e ↔
      ∃ branches input otherwise, branches.length = pairs.length ∧
        (∀ (i : Nat) p b, pairs[i]? = some p → branches[i]? = some b →
          SpellsLabels p.1.raw b.1 ∧ (p.2.parse (c.child (2 * i + 3)
            (settle c.outputHint ((branches.take i).map (·.2))))).result = some b.2) ∧
        Distinct (branches.flatMap (·.1)) ∧
        (first.parse (c.child 1 ((branches.flatMap (·.1)).head?.map Label.type))).result =
          some input ∧
        (last.parse (c.child (2 * pairs.length + 2)
          (settle c.outputHint (branches.map (·.2))))).result = some otherwise ∧
        e = .matching c.key
          ((settle c.outputHint (branches.map (·.2) ++ [otherwise])).getD .error) input branches
          otherwise := by
  have hsweep : ∀ branches : List (List (Label N) × Expr N),
      (Checked.sweep (matchingStep c) (⟨none, []⟩, c.outputHint)
        (pairsFrom 2 (alternate pairs))).2.result = some branches ↔
      branches.length = pairs.length ∧
        (∀ (i : Nat) p b, pairs[i]? = some p → branches[i]? = some b →
          SpellsLabels p.1.raw b.1 ∧ (p.2.parse (c.child (2 * i + 3)
            (settle c.outputHint ((branches.take i).map (·.2))))).result = some b.2) ∧
        Distinct (branches.flatMap (·.1)) := by
    intro branches
    rw [sweep_pairs_result_iff matchingStep_next, ← addable_iff_distinct, addable_flatMap_iff]
    refine and_congr_right fun hcount => ?_
    constructor
    · intro h
      have hstep := fun i p b hp hb => matchingStep_result_iff.mp (h i p b hp hb)
      refine ⟨fun i p b hp hb => ⟨(hstep i p b hp hb).1.1, (hstep i p b hp hb).2⟩, ?_⟩
      intro i b hb
      have hi : i < pairs.length := hcount ▸ (List.getElem?_eq_some_iff.mp hb).1
      exact (hstep i _ b (List.getElem?_eq_getElem hi) hb).1.2
    · rintro ⟨hparts, hadd⟩ i p b hp hb
      exact matchingStep_result_iff.mpr
        ⟨⟨(hparts i p b hp hb).1, hadd i b hb⟩, (hparts i p b hp hb).2⟩
  rw [matching_eq hne]
  simp only [Checked.map_result_eq_some, Prod.exists, Checked.zip_result_eq_some, hsweep]
  constructor
  · rintro ⟨branches, input, otherwise, ⟨⟨hbranches, hinput⟩, hotherwise⟩, rfl⟩
    have hstate := Checked.sweep_state matchingStep_next ((hsweep branches).mpr hbranches)
    rw [foldl_afterBranch] at hstate
    obtain ⟨hcount, hparts, hdistinct⟩ := hbranches
    rw [hstate] at hinput hotherwise
    rw [settled_type hdistinct] at hinput
    refine ⟨branches, input, otherwise, hcount, hparts, hdistinct, hinput, hotherwise, ?_⟩
    rw [hstate, hotherwise, settle_concat]
  · rintro ⟨branches, input, otherwise, hcount, hparts, hdistinct, hinput, hotherwise, rfl⟩
    have hstate := Checked.sweep_state matchingStep_next
      ((hsweep branches).mpr ⟨hcount, hparts, hdistinct⟩)
    rw [foldl_afterBranch] at hstate
    refine ⟨branches, input, otherwise, ⟨⟨⟨hcount, hparts, hdistinct⟩, ?_⟩, ?_⟩, ?_⟩
    · rw [hstate, settled_type hdistinct]
      exact hinput
    · rw [hstate]
      exact hotherwise
    · rw [hstate, hotherwise, settle_concat]

end

end Parse

end MapStyle
