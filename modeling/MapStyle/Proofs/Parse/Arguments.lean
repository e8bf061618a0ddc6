import MapStyle.Proofs.Parse.Results
import MapStyle.Proofs.Parse.Spelling

/-!
# Arguments of forms

Forms take arguments in pairs, between single ones. `exists_alternate`, `exists_alternate_last` and
`exists_first_alternate_last` find the pairs by the number of arguments, and `sweep_pairs_result_iff`
says what a sweep over them gives.
-/

namespace MapStyle

variable {N : Type}

namespace Parse

/-! ## Arguments in pairs -/

section

variable {α β : Type}

theorem alternate_eq_flatMap (pairs : List (α × α)) :
    alternate pairs = pairs.flatMap fun p => [p.1, p.2] :=
  eq_flatMap_of_cons rfl (fun _ _ => rfl) pairs

theorem length_alternate (pairs : List (α × α)) : (alternate pairs).length = 2 * pairs.length := by
  induction pairs with
  | nil => rfl
  | cons p rest ih =>
    show (alternate rest).length + 1 + 1 = 2 * (rest.length + 1)
    omega

theorem map_alternate (f : α → β) (pairs : List (α × α)) :
    (alternate pairs).map f = alternate (pairs.map fun p => (f p.1, f p.2)) := by
  induction pairs with
  | nil => rfl
  | cons p rest ih => exact congrArg (f p.1 :: f p.2 :: ·) ih

theorem mem_alternate {a : α} {pairs : List (α × α)} :
    a ∈ alternate pairs ↔ ∃ p ∈ pairs, a = p.1 ∨ a = p.2 := by
  induction pairs with
  | nil => simp [alternate]
  | cons p rest ih => simp [alternate, ih, or_assoc]

theorem alternate_inj {pairs pairs' : List (α × α)} (h : alternate pairs = alternate pairs') :
    pairs = pairs' := by
  induction pairs generalizing pairs' with
  | nil =>
    cases pairs' with
    | nil => rfl
    | cons => cases h
  | cons p rest ih =>
    cases pairs' with
    | nil => cases h
    | cons p' rest' =>
      obtain ⟨hfirst, hothers⟩ := List.cons.inj h
      obtain ⟨hsecond, hrest⟩ := List.cons.inj hothers
      rw [ih hrest, Prod.ext hfirst hsecond]

theorem alternate_concat_inj {pairs pairs' : List (α × α)} {last last' : α}
    (h : alternate pairs ++ [last] = alternate pairs' ++ [last']) :
    pairs = pairs' ∧ last = last' := by
  obtain ⟨hpairs, hlast⟩ := List.append_inj' h rfl
  exact ⟨alternate_inj hpairs, (List.cons.inj hlast).1⟩

theorem exists_alternate :
    ∀ items : List α, items.length % 2 = 0 → ∃ pairs, items = alternate pairs
  | [], _ => ⟨[], rfl⟩
  | [_], h => by cases h
  | a :: b :: rest, h => by
    obtain ⟨pairs, hrest⟩ := exists_alternate rest (by simp only [List.length_cons] at h; omega)
    exact ⟨(a, b) :: pairs, by rw [hrest]; rfl⟩

/-- Three or more items, odd in number, are some pairs and a last item. -/
theorem exists_alternate_last (items : List α) (h3 : ¬items.length < 3)
    (hodd : ¬items.length % 2 = 0) :
    ∃ pairs last, pairs ≠ [] ∧ items = alternate pairs ++ [last] := by
  have hne : items ≠ [] := by
    rintro rfl
    exact h3 (Nat.succ_pos 2)
  obtain ⟨pairs, hpairs⟩ := exists_alternate items.dropLast (by rw [List.length_dropLast]; omega)
  refine ⟨pairs, items.getLast hne, ?_, ?_⟩
  · rintro rfl
    have := congrArg List.length hpairs
    rw [List.length_dropLast] at this
    simp only [alternate, List.length_nil] at this
    omega
  · rw [← hpairs, List.dropLast_append_getLast]

theorem length_pairsFrom (i : Nat) (pairs : List (α × α)) :
    (pairsFrom i (alternate pairs)).length = pairs.length := by
  induction pairs generalizing i with
  | nil => rfl
  | cons p rest ih => exact congrArg (· + 1) (ih (i + 2))

theorem getElem?_pairsFrom (i : Nat) (pairs : List (α × α)) (k : Nat) :
    (pairsFrom i (alternate pairs))[k]? = pairs[k]?.map fun p => (i + 2 * k, p) := by
  induction pairs generalizing i k with
  | nil => rfl
  | cons p rest ih =>
    cases k with
    | zero => rfl
    | succ k =>
      show (pairsFrom (i + 2) (alternate rest))[k]? = _
      rw [ih, List.getElem?_cons_succ, show i + 2 + 2 * k = i + 2 * (k + 1) by omega]

/-- The items of a list of pairs, told by index. -/
theorem forall_pairsFrom {i : Nat} {pairs : List (α × α)} {bs : List β}
    {P : Nat → Nat × α × α → β → Prop} :
    (∀ k a b, (pairsFrom i (alternate pairs))[k]? = some a → bs[k]? = some b → P k a b) ↔
      ∀ k p b, pairs[k]? = some p → bs[k]? = some b → P k (i + 2 * k, p) b := by
  constructor
  · intro h k p b hp hb
    exact h k _ b (by rw [getElem?_pairsFrom, hp]; rfl) hb
  · intro h k a b ha hb
    rw [getElem?_pairsFrom, Option.map_eq_some_iff] at ha
    obtain ⟨p, hp, rfl⟩ := ha
    exact h k p b hp hb

/-- Four or more items, even in number, are a first item, some pairs and a last item. -/
theorem exists_first_alternate_last {items : List α} (h4 : ¬items.length < 4)
    (heven : ¬items.length % 2 = 1) :
    ∃ first pairs last, pairs ≠ [] ∧ items = first :: alternate pairs ++ [last] := by
  cases items with
  | nil => exact absurd (Nat.succ_pos 3) h4
  | cons first rest =>
    rw [List.length_cons] at h4 heven
    obtain ⟨pairs, last, hne, rfl⟩ := exists_alternate_last rest (by omega) (by omega)
    exact ⟨first, pairs, last, hne, rfl⟩

end

theorem sweep_pairs_result_iff {α β σ : Type} {step : σ → Nat × α × α → σ × Checked N β}
    {next : σ → β → σ} (hnext : ∀ s a b, (step s a).2.result = some b → (step s a).1 = next s b)
    {s : σ} {i : Nat} {pairs : List (α × α)} {bs : List β} :
    (Checked.sweep step s (pairsFrom i (alternate pairs))).2.result = some bs ↔
      bs.length = pairs.length ∧ ∀ (k : Nat) p b, pairs[k]? = some p → bs[k]? = some b →
        (step ((bs.take k).foldl next s) (i + 2 * k, p)).2.result = some b := by
  rw [Checked.sweep_result_iff hnext, length_pairsFrom, forall_pairsFrom]

/-! ## Shared types -/

theorem foldl_unifyOutput {α : Type} (f : α → Expr N) (hint : Option Ty) (items : List α) :
    items.foldl (fun shared a => unifyOutput shared (some (f a))) hint =
      settle hint (items.map f) := by
  rw [settle, List.foldl_map]

/-- Where an output has been parsed, the type that outputs share is settled by it. -/
theorem unifyOutput_result {α : Type} {a : Checked N α} {shared : Option Ty} {f : α → Expr N} {x : α}
    (h : a.result = some x) :
    unifyOutput shared (a.result.map f) = unifyOutput shared (some (f x)) := by
  rw [h]
  rfl

end Parse

end MapStyle
