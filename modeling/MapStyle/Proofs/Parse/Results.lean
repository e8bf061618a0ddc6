import MapStyle.Parse.Checked
import MapStyle.Proofs.Lists

/-!
# Results of combined parses

What the combinators of `Checked` yield, in terms of the results of their parts.

* `sweep_result_iff`, `sweep_state`: a sweep has results when every step has one, and its state is
  then a function of the results alone.
* `Reports own a` says that `a` has errors exactly when it has no result, and which errors it can
  have. All combinators keep it.
-/

namespace MapStyle.Checked

variable {N α β σ : Type}

/-! ## Results -/

@[simp] theorem pure_result (a : α) : (pure a : Checked N α).result = some a := rfl

@[simp] theorem fail_result (key : Path) (problem : Problem N) :
    (fail key problem : Checked N α).result = none := rfl

theorem bind_result (a : Checked N α) (f : α → Checked N β) :
    (a >>= f).result = a.result.bind fun x => (f x).result := by
  show (Checked.bind a f).result = _
  unfold Checked.bind
  cases a.result <;> rfl

theorem bind_result_eq_some {a : Checked N α} {f : α → Checked N β} {y : β} :
    (a >>= f).result = some y ↔ ∃ x, a.result = some x ∧ (f x).result = some y := by
  rw [bind_result, Option.bind_eq_some_iff]

theorem map_result (f : α → β) (a : Checked N α) : (f <$> a).result = a.result.map f := by
  show (Checked.bind a (Checked.pure ∘ f)).result = _
  unfold Checked.bind
  cases a.result <;> rfl

theorem map_result_eq_some {f : α → β} {a : Checked N α} {y : β} :
    (f <$> a).result = some y ↔ ∃ x, a.result = some x ∧ f x = y := by
  rw [map_result, Option.map_eq_some_iff]

theorem zip_result_eq_some {a : Checked N α} {b : Checked N β} {p : α × β} :
    (a.zip b).result = some p ↔ a.result = some p.1 ∧ b.result = some p.2 := by
  obtain ⟨x, y⟩ := p
  unfold zip
  cases a.result <;> cases b.result <;> simp

theorem collect_result_eq_some {as : List (Checked N α)} {xs : List α} :
    (collect as).result = some xs ↔ List.Forall₂ (fun a x => a.result = some x) as xs := by
  induction as generalizing xs with
  | nil =>
    show some [] = some xs ↔ _
    rw [List.forall₂_nil_left_iff, Option.some_inj, eq_comm]
  | cons a rest ih =>
    rw [collect, map_result_eq_some, List.forall₂_cons_left_iff]
    constructor
    · rintro ⟨⟨x, ys⟩, h, rfl⟩
      rw [zip_result_eq_some] at h
      exact ⟨x, ys, h.1, ih.mp h.2, rfl⟩
    · rintro ⟨x, ys, hx, hys, rfl⟩
      exact ⟨(x, ys), zip_result_eq_some.mpr ⟨hx, ih.mpr hys⟩, rfl⟩

theorem collect_map_result_iff {γ : Type} {f : γ → Checked N α} {items : List γ} {xs : List α} :
    (collect (items.map f)).result = some xs ↔ xs.length = items.length ∧
      ∀ (i : Nat) item x, items[i]? = some item → xs[i]? = some x → (f item).result = some x := by
  rw [collect_result_eq_some, List.forall₂_map_left_iff, forall₂_iff_getElem?]

/-! ## Sweeps -/

section

variable {step : σ → α → σ × Checked N β} {next : σ → β → σ}

theorem sweep_cons (s : σ) (a : α) (rest : List α) :
    sweep step s (a :: rest) =
      ((sweep step (step s a).1 rest).1,
        (fun p => p.1 :: p.2) <$> (step s a).2.zip (sweep step (step s a).1 rest).2) := rfl

/-- Whether step by step the results `bs` come out for `as`, when each step leaves the state that
`next` makes of its result. -/
def Swept (step : σ → α → σ × Checked N β) (next : σ → β → σ) : σ → List α → List β → Prop
  | _, [], [] => True
  | s, a :: as, b :: bs => (step s a).2.result = some b ∧ Swept step next (next s b) as bs
  | _, _, _ => False

theorem sweep_eq_some_iff
    (hnext : ∀ s a b, (step s a).2.result = some b → (step s a).1 = next s b) {s : σ}
    {as : List α} {bs : List β} :
    (sweep step s as).2.result = some bs ↔ Swept step next s as bs := by
  induction as generalizing s bs with
  | nil =>
    show some [] = some bs ↔ _
    cases bs <;> simp [Swept]
  | cons a rest ih =>
    rw [sweep_cons, map_result_eq_some]
    constructor
    · rintro ⟨⟨b, bs'⟩, h, rfl⟩
      rw [zip_result_eq_some] at h
      refine ⟨h.1, ?_⟩
      rw [← hnext s a b h.1]
      exact ih.mp h.2
    · intro h
      cases bs with
      | nil => exact h.elim
      | cons b bs =>
        refine ⟨(b, bs), zip_result_eq_some.mpr ⟨h.1, ?_⟩, rfl⟩
        rw [hnext s a b h.1]
        exact ih.mpr h.2

/-- The last state of a sweep that has results. -/
theorem sweep_state
    (hnext : ∀ s a b, (step s a).2.result = some b → (step s a).1 = next s b) {s : σ}
    {as : List α} {bs : List β} (h : (sweep step s as).2.result = some bs) :
    (sweep step s as).1 = bs.foldl next s := by
  rw [sweep_eq_some_iff hnext] at h
  induction as generalizing s bs with
  | nil =>
    cases bs with
    | nil => rfl
    | cons => exact h.elim
  | cons a rest ih =>
    cases bs with
    | nil => exact h.elim
    | cons b bs =>
      rw [sweep_cons]
      show (sweep step (step s a).1 rest).1 = _
      rw [hnext s a b h.1]
      exact ih h.2

/-- Steps one by one, told by index: the state before a step comes from the results before it. -/
theorem swept_iff {s : σ} {as : List α} {bs : List β} :
    Swept step next s as bs ↔ bs.length = as.length ∧
      ∀ (i : Nat) a b, as[i]? = some a → bs[i]? = some b →
      (step ((bs.take i).foldl next s) a).2.result = some b := by
  induction as generalizing s bs with
  | nil => cases bs <;> simp [Swept]
  | cons a as ih =>
    cases bs with
    | nil => simp [Swept]
    | cons b bs =>
      rw [Swept, ih]
      constructor
      · rintro ⟨hb, hlen, hrest⟩
        refine ⟨by simp [hlen], fun i a' b' ha hb' => ?_⟩
        cases i with
        | zero =>
          obtain rfl := Option.some.inj ha
          obtain rfl := Option.some.inj hb'
          exact hb
        | succ i => exact hrest i a' b' ha hb'
      · rintro ⟨hlen, h⟩
        exact ⟨h 0 a b rfl rfl, by simpa using hlen, fun i a' b' ha hb' => h (i + 1) a' b' ha hb'⟩

theorem sweep_result_iff
    (hnext : ∀ s a b, (step s a).2.result = some b → (step s a).1 = next s b) {s : σ}
    {as : List α} {bs : List β} :
    (sweep step s as).2.result = some bs ↔ bs.length = as.length ∧
      ∀ (i : Nat) a b, as[i]? = some a → bs[i]? = some b →
        (step ((bs.take i).foldl next s) a).2.result = some b := by
  rw [sweep_eq_some_iff hnext, swept_iff]

end

/-! ## Errors -/

/-- Whether a result is missing exactly when there are errors, and all errors are of the kind
`own`. -/
structure Reports (own : ParseError N → Prop) (a : Checked N α) : Prop where
  accounts : a.result.isSome = true ↔ a.errors = []
  kind : ∀ err ∈ a.errors, own err

section

variable {own : ParseError N → Prop}

theorem reports_pure (a : α) : Reports own (pure a : Checked N α) :=
  ⟨⟨fun _ => rfl, fun _ => rfl⟩, fun _ h => absurd h List.not_mem_nil⟩

theorem reports_fail {key : Path} {problem : Problem N} (h : own ⟨key, problem⟩) :
    Reports own (fail key problem : Checked N α) := by
  refine ⟨by simp [fail], fun err herr => ?_⟩
  rwa [List.mem_singleton.mp herr]

theorem Reports.bind {a : Checked N α} {f : α → Checked N β} (ha : a.Reports own)
    (hf : ∀ x, (f x).Reports own) : (a >>= f).Reports own := by
  show Reports own (Checked.bind a f)
  unfold Checked.bind
  cases hx : a.result with
  | none => exact ⟨by simpa [hx] using ha.accounts, ha.kind⟩
  | some x =>
    have hnil : a.errors = [] := ha.accounts.mp (by rw [hx]; rfl)
    dsimp only
    rw [hnil, List.nil_append]
    exact ⟨(hf x).accounts, (hf x).kind⟩

theorem Reports.map {a : Checked N α} (ha : a.Reports own) (f : α → β) : (f <$> a).Reports own :=
  ha.bind fun x => reports_pure (f x)

theorem Reports.zip {a : Checked N α} {b : Checked N β} (ha : a.Reports own) (hb : b.Reports own) :
    (a.zip b).Reports own := by
  refine ⟨?_, fun err herr => ?_⟩
  · unfold Checked.zip
    rw [List.append_eq_nil_iff, ← ha.accounts, ← hb.accounts]
    cases a.result <;> cases b.result <;> simp
  · rcases List.mem_append.mp herr with herr | herr
    · exact ha.kind err herr
    · exact hb.kind err herr

theorem Reports.collect {as : List (Checked N α)} (h : ∀ a ∈ as, a.Reports own) :
    (collect as).Reports own := by
  induction as with
  | nil => exact reports_pure []
  | cons a rest ih =>
    rw [List.forall_mem_cons] at h
    exact (h.1.zip (ih h.2)).map _

theorem Reports.sweep {step : σ → α → σ × Checked N β} {as : List α}
    (h : ∀ a ∈ as, ∀ s, (step s a).2.Reports own) (s : σ) : (sweep step s as).2.Reports own := by
  induction as generalizing s with
  | nil => exact reports_pure []
  | cons a rest ih =>
    rw [List.forall_mem_cons] at h
    rw [sweep_cons]
    exact ((h.1 s).zip (ih h.2 _)).map _

end

end MapStyle.Checked
