import MapStyle.Proofs.Parse.Results
import MapStyle.Proofs.Parse.Spelling

/-!
# Labels of a match

The labels of all outputs are read one after the other, each against those before it.
`labelsAt_result_iff` says when the labels of one output are in order after others, and
`addable_iff_distinct` that this comes down to `Distinct` for all labels of a match.
-/

namespace MapStyle.Parse

variable {N : Type} [Scalar N]

/-- What labels have settled once one more has been added. -/
def Labels.push (labels : Labels N) (l : Label N) : Labels N := ⟨some l.type, l :: labels.seen⟩

/-- Whether a label is of the type of those before and none of them. -/
def Labels.Takes (labels : Labels N) (l : Label N) : Prop :=
  ∀ type, labels.type = some type → l.type = type ∧ labels.seen.contains l = false

/-- Whether labels can be added one after the other. -/
def Labels.Addable (labels : Labels N) : List (Label N) → Prop
  | [] => True
  | l :: rest => labels.Takes l ∧ (labels.push l).Addable rest

theorem Labels.add_eq_ok_iff {labels labels' : Labels N} {l : Label N} :
    labels.add l = .ok labels' ↔ labels.Takes l ∧ labels' = labels.push l := by
  unfold add Takes
  cases htype : labels.type with
  | none =>
    dsimp only
    rw [Except.ok.injEq, eq_comm]
    exact (and_iff_right fun _ h => by cases h).symm
  | some type =>
    dsimp only
    by_cases hl : type = l.type
    · cases hseen : labels.seen.contains l with
      | true =>
        rw [if_pos hl, if_pos rfl]
        constructor
        · rintro ⟨⟩
        · exact fun h => absurd (h.1 type rfl).2 (by decide)
      | false =>
        rw [if_pos hl, if_neg (by decide), Except.ok.injEq, eq_comm]
        refine (and_iff_right ?_).symm
        rintro _ ⟨⟩
        exact ⟨hl.symm, rfl⟩
    · rw [if_neg hl]
      constructor
      · rintro ⟨⟩
      · exact fun h => absurd (h.1 type rfl).1.symm hl

theorem Labels.addable_append {labels : Labels N} {xs ys : List (Label N)} :
    labels.Addable (xs ++ ys) ↔ labels.Addable xs ∧ (xs.foldl push labels).Addable ys := by
  induction xs generalizing labels with
  | nil => simp [Addable]
  | cons x xs ih => simp [Addable, ih, and_assoc]

/-- Reading labels goes on past one that is in order and stops at any other. -/
theorem labelList_cons (c : Context) (i : Nat) (labels : Labels N) (raw : Json N)
    (rest : List (Json N)) :
    (∃ l, label raw = .ok l ∧ labels.Takes l ∧ labelList c i labels (raw :: rest) =
      ((labelList c i (labels.push l) rest).1,
        (l :: ·) <$> (labelList c i (labels.push l) rest).2)) ∨
    ((∀ l, label raw = .ok l → ¬labels.Takes l) ∧
      (labelList c i labels (raw :: rest)).2.result = none) := by
  rw [labelList]
  cases hlabel : label raw with
  | error problem => exact .inr ⟨(fun _ h => by cases h), rfl⟩
  | ok l =>
    cases hadd : labels.add l with
    | error problem =>
      refine .inr ⟨?_, by dsimp only; rw [hadd]; rfl⟩
      rintro _ ⟨⟩ htakes
      rw [Labels.add_eq_ok_iff.mpr ⟨htakes, rfl⟩] at hadd
      cases hadd
    | ok labels' =>
      obtain ⟨htakes, rfl⟩ := Labels.add_eq_ok_iff.mp hadd
      exact .inl ⟨l, rfl, htakes, by dsimp only; rw [hadd]⟩

theorem labelList_result_iff {c : Context} {i : Nat} {labels : Labels N} {raws : List (Json N)}
    {ls : List (Label N)} :
    (labelList c i labels raws).2.result = some ls ↔
      List.Forall₂ (fun raw l => label raw = .ok l) raws ls ∧ labels.Addable ls := by
  induction raws generalizing labels ls with
  | nil =>
    rw [List.forall₂_nil_left_iff]
    constructor
    · rintro ⟨⟩
      exact ⟨rfl, trivial⟩
    · rintro ⟨rfl, -⟩
      rfl
  | cons raw rest ih =>
    rw [List.forall₂_cons_left_iff]
    obtain ⟨l, hlabel, htakes, heq⟩ | ⟨hbad, hnone⟩ := labelList_cons c i labels raw rest
    · rw [heq, Checked.map_result_eq_some, hlabel]
      constructor
      · rintro ⟨others, hothers, rfl⟩
        obtain ⟨hrest, haddable⟩ := ih.mp hothers
        exact ⟨⟨l, others, rfl, hrest, rfl⟩, htakes, haddable⟩
      · rintro ⟨⟨_, others, ⟨⟩, hrest, rfl⟩, -, haddable⟩
        exact ⟨others, ih.mpr ⟨hrest, haddable⟩, rfl⟩
    · rw [hnone]
      constructor
      · rintro ⟨⟩
      · rintro ⟨⟨l, others, hlabel, -, rfl⟩, htakes, -⟩
        exact absurd htakes (hbad l hlabel)

theorem labelList_state {c : Context} {i : Nat} {labels : Labels N} {raws : List (Json N)}
    {ls : List (Label N)} (h : (labelList c i labels raws).2.result = some ls) :
    (labelList c i labels raws).1 = ls.foldl Labels.push labels := by
  induction raws generalizing labels ls with
  | nil =>
    cases h
    rfl
  | cons raw rest ih =>
    obtain ⟨l, -, -, heq⟩ | ⟨-, hnone⟩ := labelList_cons c i labels raw rest
    · rw [heq] at h ⊢
      obtain ⟨others, hothers, rfl⟩ := Checked.map_result_eq_some.mp h
      exact ih hothers
    · rw [hnone] at h
      cases h

theorem labelsAt_result_iff {c : Context} {i : Nat} {labels : Labels N} {raw : Json N}
    {ls : List (Label N)} :
    (labelsAt c i labels raw).2.result = some ls ↔ SpellsLabels raw ls ∧ labels.Addable ls := by
  have hsingle : ∀ raw : Json N, (labelList c i labels [raw]).2.result = some ls ↔
      (∃ l, label raw = .ok l ∧ ls = [l]) ∧ labels.Addable ls := by
    intro raw
    rw [labelList_result_iff, List.forall₂_cons_left_iff]
    simp only [List.forall₂_nil_left_iff, exists_and_left, exists_eq_left]
  unfold labelsAt SpellsLabels
  cases raw with
  | array items =>
    cases items with
    | nil =>
      constructor
      · rintro ⟨⟩
      · exact fun h => absurd rfl h.1.1
    | cons item rest =>
      show (labelList c i labels (item :: rest)).2.result = some ls ↔ _
      rw [labelList_result_iff]
      simp
  | _ => exact hsingle _

theorem labelsAt_state {c : Context} {i : Nat} {labels : Labels N} {raw : Json N}
    {ls : List (Label N)} (h : (labelsAt c i labels raw).2.result = some ls) :
    (labelsAt c i labels raw).1 = ls.foldl Labels.push labels := by
  unfold labelsAt at h ⊢
  cases raw with
  | array items =>
    cases items with
    | nil => cases h
    | cons item rest => exact labelList_state h
  | _ => exact labelList_state h

/-- The state before the labels of each output comes from those of the outputs before it. -/
theorem addable_flatMap_iff {α : Type} {f : α → List (Label N)} {labels : Labels N}
    {branches : List α} :
    labels.Addable (branches.flatMap f) ↔ ∀ (i : Nat) b, branches[i]? = some b →
      (((branches.take i).flatMap f).foldl Labels.push labels).Addable (f b) := by
  induction branches generalizing labels with
  | nil => simp [Labels.Addable]
  | cons b rest ih =>
    rw [List.flatMap_cons, Labels.addable_append, ih]
    constructor
    · rintro ⟨hb, hrest⟩ i b' hb'
      cases i with
      | zero =>
        obtain rfl := Option.some.inj hb'
        exact hb
      | succ i =>
        rw [List.take_succ_cons, List.flatMap_cons, List.foldl_append]
        exact hrest i b' hb'
    · intro h
      refine ⟨h 0 b rfl, fun i b' hb' => ?_⟩
      have := h (i + 1) b' hb'
      rwa [List.take_succ_cons, List.flatMap_cons, List.foldl_append] at this

theorem Labels.push_takes_iff {labels : Labels N} (hnone : labels.type = none → labels.seen = [])
    {l l' : Label N} (hl : labels.Takes l) :
    (labels.push l).Takes l' ↔ (l'.type = l.type ∧ (l' == l) = false) ∧ labels.Takes l' := by
  have hpush : (labels.push l).Takes l' ↔
      l'.type = l.type ∧ (l' == l || labels.seen.contains l') = false := by
    rw [← List.contains_cons]
    constructor
    · exact fun h => h l.type rfl
    · rintro h _ ⟨⟩
      exact h
  rw [hpush, Bool.or_eq_false_iff]
  constructor
  · rintro ⟨htype, hne, hseen⟩
    exact ⟨⟨htype, hne⟩, fun type h => ⟨htype.trans (hl type h).1, hseen⟩⟩
  · rintro ⟨⟨htype, hne⟩, htakes⟩
    refine ⟨htype, hne, ?_⟩
    cases h : labels.type with
    | none =>
      rw [hnone h]
      rfl
    | some type => exact (htakes type h).2

theorem Labels.addable_iff {labels : Labels N} (hnone : labels.type = none → labels.seen = [])
    {ls : List (Label N)} :
    labels.Addable ls ↔ Distinct ls ∧ ∀ l ∈ ls, labels.Takes l := by
  induction ls generalizing labels with
  | nil => simp [Addable, Distinct]
  | cons l rest ih =>
    have hrest : (labels.push l).Addable rest ↔ _ := ih (by rintro ⟨⟩)
    rw [Addable, hrest, Distinct, Distinct, List.pairwise_cons, List.forall_mem_cons]
    constructor
    · rintro ⟨hl, hdistinct, htakes⟩
      have htakes := fun l' hl' => (push_takes_iff hnone hl).mp (htakes l' hl')
      exact ⟨⟨fun l' hl' => (htakes l' hl').1, hdistinct⟩, hl, fun l' hl' => (htakes l' hl').2⟩
    · rintro ⟨⟨hfirst, hdistinct⟩, hl, htakes⟩
      refine ⟨hl, hdistinct, fun l' hl' => ?_⟩
      exact (push_takes_iff hnone hl).mpr ⟨hfirst l' hl', htakes l' hl'⟩

theorem addable_iff_distinct {ls : List (Label N)} :
    (⟨none, []⟩ : Labels N).Addable ls ↔ Distinct ls := by
  rw [Labels.addable_iff fun _ => rfl]
  exact and_iff_left fun l _ type h => by cases h

omit [Scalar N] in
theorem foldl_push_type {labels : Labels N} {type : Ty} {ls : List (Label N)}
    (hlabels : labels.type = some type) (h : ∀ l ∈ ls, l.type = type) :
    (ls.foldl Labels.push labels).type = some type := by
  induction ls generalizing labels with
  | nil => exact hlabels
  | cons l rest ih =>
    rw [List.forall_mem_cons] at h
    exact ih (congrArg some h.1) h.2

/-- The type that labels in order have settled is that of the first. -/
theorem settled_type {ls : List (Label N)} (h : Distinct ls) :
    (ls.foldl Labels.push ⟨none, []⟩).type = ls.head?.map Label.type := by
  cases ls with
  | nil => rfl
  | cons l rest =>
    rw [List.foldl_cons]
    exact foldl_push_type rfl fun l' hl' => ((List.pairwise_cons.mp h).1 l' hl').1

end MapStyle.Parse
