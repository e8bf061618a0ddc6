import Mathlib.Data.List.Forall2
import Mathlib.Data.List.TakeDrop

/-!
# Lists that correspond item by item

The parts of a form and what they spell, or operands and their types, are lists of one length that
correspond item by item. `forall₂_iff_getElem?` tells this by index, as the places of parts are told.
-/

namespace MapStyle

variable {α β γ : Type}

/-- What holds of items at one index holds of the first ones, and of those that follow at the next
index. -/
theorem forall_getElem?_cons {P : Nat → α → β → Prop} {a : α} {b : β} {as : List α} {bs : List β} :
    (∀ (i : Nat) a' b', (a :: as)[i]? = some a' → (b :: bs)[i]? = some b' → P i a' b') ↔
      P 0 a b ∧ ∀ (i : Nat) a' b', as[i]? = some a' → bs[i]? = some b' → P (i + 1) a' b' := by
  constructor
  · exact fun h => ⟨h 0 a b rfl rfl, fun i a' b' ha hb => h (i + 1) a' b' ha hb⟩
  · rintro ⟨hfirst, hrest⟩ i a' b' ha hb
    cases i with
    | zero =>
      obtain rfl := Option.some.inj ha
      obtain rfl := Option.some.inj hb
      exact hfirst
    | succ i => exact hrest i a' b' ha hb

theorem forall₂_iff_getElem? {R : α → β → Prop} {as : List α} {bs : List β} :
    List.Forall₂ R as bs ↔ bs.length = as.length ∧
      ∀ (i : Nat) a b, as[i]? = some a → bs[i]? = some b → R a b := by
  induction as generalizing bs with
  | nil =>
    rw [List.forall₂_nil_left_iff]
    simp
  | cons a as ih =>
    rw [List.forall₂_cons_left_iff]
    constructor
    · rintro ⟨b, bs, hR, hrest, rfl⟩
      obtain ⟨hlen, hat⟩ := ih.mp hrest
      exact ⟨congrArg (· + 1) hlen, forall_getElem?_cons.mpr ⟨hR, hat⟩⟩
    · rintro ⟨hlen, hat⟩
      cases bs with
      | nil => cases hlen
      | cons b bs =>
        obtain ⟨hfirst, hrest⟩ := forall_getElem?_cons.mp hat
        exact ⟨b, bs, hfirst, ih.mpr ⟨Nat.succ.inj hlen, hrest⟩, rfl⟩

theorem forall₂_comp {R : α → β → Prop} {S : β → γ → Prop} {T : α → γ → Prop}
    {as : List α} {bs : List β} {cs : List γ} (hR : List.Forall₂ R as bs)
    (hS : List.Forall₂ S bs cs) (h : ∀ a b c, R a b → S b c → T a c) : List.Forall₂ T as cs := by
  induction hR generalizing cs with
  | nil =>
    cases hS
    exact .nil
  | cons hr _ ih =>
    cases hS with
    | cons hs hrest => exact .cons (h _ _ _ hr hs) (ih hrest)

theorem exists_forall₂_comp {R : α → γ → Prop} {S : α → β → Prop} {T : β → γ → Prop} {as : List α}
    {cs : List γ} (hR : List.Forall₂ R as cs) (h : ∀ a c, R a c → ∃ b, S a b ∧ T b c) :
    ∃ bs, List.Forall₂ S as bs ∧ List.Forall₂ T bs cs := by
  induction hR with
  | nil => exact ⟨[], .nil, .nil⟩
  | cons hr _ ih =>
    obtain ⟨b, hs, ht⟩ := h _ _ hr
    obtain ⟨bs, hS, hT⟩ := ih
    exact ⟨b :: bs, .cons hs hS, .cons ht hT⟩

theorem forall₂_and_right {R : α → β → Prop} {p : β → Prop} {as : List α} {bs : List β}
    (hR : List.Forall₂ R as bs) (hp : ∀ b ∈ bs, p b) :
    List.Forall₂ (fun a b => R a b ∧ p b) as bs := by
  induction hR with
  | nil => exact .nil
  | cons hr _ ih =>
    rw [List.forall_mem_cons] at hp
    exact .cons ⟨hr, hp.1⟩ (ih hp.2)

theorem forall_left_of_forall₂ {R : α → β → Prop} {p : α → Prop} {as : List α} {bs : List β}
    (hR : List.Forall₂ R as bs) (h : ∀ a b, R a b → p a) : ∀ a ∈ as, p a := by
  induction hR with
  | nil => exact fun a ha => absurd ha List.not_mem_nil
  | cons hr _ ih => exact List.forall_mem_cons.mpr ⟨h _ _ hr, ih⟩

theorem mapM_bind_eq {ε : Type} {f : α → Except ε β} {g : List β → Except ε γ} {as : List α}
    {bs : List β} (h : List.Forall₂ (fun a b => f a = .ok b) as bs) : as.mapM f >>= g = g bs := by
  have hmap : as.mapM f = .ok bs := by
    induction h with
    | nil => rfl
    | cons hr _ ih =>
      rw [List.mapM_cons, hr, ih]
      rfl
  rw [hmap]
  rfl

theorem mapM_eq_some_iff {f : α → Option β} {as : List α} {bs : List β} :
    as.mapM f = some bs ↔ List.Forall₂ (fun a b => f a = some b) as bs := by
  induction as generalizing bs with
  | nil => simp [eq_comm]
  | cons a rest ih =>
    rw [List.mapM_cons, List.forall₂_cons_left_iff]
    constructor
    · intro h
      obtain ⟨b, hb, h⟩ := Option.bind_eq_some_iff.mp h
      obtain ⟨others, hothers, h⟩ := Option.bind_eq_some_iff.mp h
      cases h
      exact ⟨b, others, hb, ih.mp hothers, rfl⟩
    · rintro ⟨b, others, hb, hothers, rfl⟩
      rw [hb, ih.mpr hothers]
      rfl

/-- What holds of every item that the function gives holds of the items of a list that it gives. -/
theorem forall_of_mapM_eq_some {f : α → Option β} {p : β → Prop} (hf : ∀ a b, f a = some b → p b)
    {as : List α} {bs : List β} (h : as.mapM f = some bs) : ∀ b ∈ bs, p b :=
  forall_left_of_forall₂ (mapM_eq_some_iff.mp h).flip fun b a => hf a b

theorem mapM_isSome_iff {f : α → Option β} {as : List α} :
    (as.mapM f).isSome = true ↔ ∀ a ∈ as, (f a).isSome = true := by
  constructor
  · intro h
    obtain ⟨bs, hbs⟩ := Option.isSome_iff_exists.mp h
    refine forall_left_of_forall₂ (mapM_eq_some_iff.mp hbs) fun a b hb => ?_
    rw [hb]
    rfl
  · intro h
    refine Option.isSome_iff_exists.mpr ⟨as.filterMap f, mapM_eq_some_iff.mpr ?_⟩
    induction as with
    | nil => exact .nil
    | cons a rest ih =>
      rw [List.forall_mem_cons] at h
      obtain ⟨b, hb⟩ := Option.isSome_iff_exists.mp h.1
      rw [List.filterMap_cons_some hb]
      exact .cons hb (ih h.2)

theorem mem_of_lookup_eq_some [BEq α] [LawfulBEq α] {entries : List (α × β)} {a : α} {b : β}
    (h : entries.lookup a = some b) : (a, b) ∈ entries := by
  obtain ⟨before, after, rfl, -⟩ := List.lookup_eq_some_iff.mp h
  exact List.mem_append_right _ List.mem_cons_self

/-- Parameters that are all the same ask the same of all operands. -/
theorem forall_of_forall₂_replicate {R : α → β → Prop} {as : List α} {n : Nat} {b : β}
    (h : List.Forall₂ R as (List.replicate n b)) : ∀ a ∈ as, R a b := by
  refine forall_left_of_forall₂ (forall₂_and_right h fun b' => List.eq_of_mem_replicate) ?_
  rintro a b' ⟨hr, rfl⟩
  exact hr

theorem map_eq_map_of_forall₂ {R : α → β → Prop} {f : α → γ} {g : β → γ} {as : List α} {bs : List β}
    (h : List.Forall₂ R as bs) (heq : ∀ a b, R a b → f a = g b) : as.map f = bs.map g := by
  induction h with
  | nil => rfl
  | cons hr _ ih => rw [List.map_cons, List.map_cons, heq _ _ hr, ih]

theorem span_append {p : α → Bool} {before after : List α} (hbefore : ∀ a ∈ before, p a = true)
    (hafter : ∀ a ∈ after.head?, p a = false) : (before ++ after).span p = (before, after) := by
  have hparts : after.takeWhile p = [] ∧ after.dropWhile p = after := by
    cases after with
    | nil => exact ⟨rfl, rfl⟩
    | cons a rest =>
      have ha : ¬p a = true := by simp [hafter a rfl]
      exact ⟨List.takeWhile_cons_of_neg ha, List.dropWhile_cons_of_neg ha⟩
  rw [List.span_eq_takeWhile_dropWhile, List.takeWhile_append_of_pos hbefore,
    List.dropWhile_append_of_pos hbefore, hparts.1, hparts.2, List.append_nil]

/-! ## Functions that take a list item by item -/

theorem eq_map_of_cons {f : List α → List β} {g : α → β} (hnil : f [] = [])
    (hcons : ∀ a rest, f (a :: rest) = g a :: f rest) (as : List α) : f as = as.map g := by
  induction as with
  | nil => exact hnil
  | cons a rest ih => rw [hcons, ih, List.map_cons]

theorem eq_flatMap_of_cons {f : List α → List β} {g : α → List β} (hnil : f [] = [])
    (hcons : ∀ a rest, f (a :: rest) = g a ++ f rest) (as : List α) : f as = as.flatMap g := by
  induction as with
  | nil => exact hnil
  | cons a rest ih => rw [hcons, ih, List.flatMap_cons]

/-! ## Items by index -/

theorem exists_getElem?_of_mem {as : List α} {bs : List β}
    (hlen : bs.length = as.length) {b : β} (hb : b ∈ bs) :
    ∃ (i : Nat) (a : α), as[i]? = some a ∧ bs[i]? = some b := by
  obtain ⟨i, hi, rfl⟩ := List.mem_iff_getElem.mp hb
  exact ⟨i, as[i], List.getElem?_eq_getElem (hlen ▸ hi), List.getElem?_eq_getElem hi⟩

theorem exists_getElem?_of_getElem? {as : List α} {bs : List β}
    (hlen : bs.length = as.length) {i : Nat} {b : β} (hb : bs[i]? = some b) :
    ∃ a, as[i]? = some a := by
  obtain ⟨hi, -⟩ := List.getElem?_eq_some_iff.mp hb
  exact ⟨_, List.getElem?_eq_getElem (hlen ▸ hi)⟩

theorem exists_of_forall_getElem? {P : Nat → α → β → Prop} {as : List α}
    (h : ∀ (i : Nat) a, as[i]? = some a → ∃ b, P i a b) :
    ∃ bs : List β, bs.length = as.length ∧
      ∀ (i : Nat) a b, as[i]? = some a → bs[i]? = some b → P i a b := by
  induction as generalizing P with
  | nil => exact ⟨[], rfl, fun i a b ha => by cases ha⟩
  | cons a rest ih =>
    obtain ⟨b, hb⟩ := h 0 a rfl
    obtain ⟨bs, hlen, hbs⟩ := ih (P := fun i => P (i + 1)) fun i a' ha' => h (i + 1) a' ha'
    exact ⟨b :: bs, congrArg (· + 1) hlen, forall_getElem?_cons.mpr ⟨hb, hbs⟩⟩

/-- Items that can be found for each pair of items that correspond: each is told by its index and the
item on the left, and corresponds to that on the right. -/
theorem exists_forall₂_getElem? {R : α → γ → Prop} {P : Nat → α → β → Prop} {Q : β → γ → Prop}
    {as : List α} {cs : List γ} (hR : List.Forall₂ R as cs)
    (h : ∀ (i : Nat) a c, R a c → ∃ b, P i a b ∧ Q b c) :
    ∃ bs : List β, bs.length = as.length ∧
      (∀ (i : Nat) a b, as[i]? = some a → bs[i]? = some b → P i a b) ∧ List.Forall₂ Q bs cs := by
  induction hR generalizing P with
  | nil => exact ⟨[], rfl, fun i a b ha => (by cases ha), .nil⟩
  | cons hr _ ih =>
    obtain ⟨b, hP, hQ⟩ := h 0 _ _ hr
    obtain ⟨bs, hlen, hbs, hrest⟩ := ih (P := fun i => P (i + 1)) fun i => h (i + 1)
    exact ⟨b :: bs, congrArg (· + 1) hlen, forall_getElem?_cons.mpr ⟨hP, hbs⟩, .cons hQ hrest⟩

theorem forall₂_of_getElem? {P : Nat → α → β → Prop} {Q : Nat → α → γ → Prop}
    {as : List α} {bs : List β} {cs : List γ} (hlen : bs.length = as.length)
    (hP : ∀ (i : Nat) a b, as[i]? = some a → bs[i]? = some b → P i a b)
    (hlen' : cs.length = as.length)
    (hQ : ∀ (i : Nat) a c, as[i]? = some a → cs[i]? = some c → Q i a c) :
    List.Forall₂ (fun b c => ∃ i a, P i a b ∧ Q i a c) bs cs := by
  refine forall₂_iff_getElem?.mpr ⟨hlen'.trans hlen.symm, fun i b c hb hc => ?_⟩
  obtain ⟨a, ha⟩ := exists_getElem?_of_getElem? hlen hb
  exact ⟨i, a, hP i a b ha hb, hQ i a c ha hc⟩

theorem forall_getElem?_map_left {f : α → β} {as : List α} {cs : List γ}
    {P : Nat → β → γ → Prop} :
    (∀ (i : Nat) b c, (as.map f)[i]? = some b → cs[i]? = some c → P i b c) ↔
      ∀ (i : Nat) a c, as[i]? = some a → cs[i]? = some c → P i (f a) c := by
  constructor
  · exact fun h i a c ha hc => h i _ c (by rw [List.getElem?_map, ha]; rfl) hc
  · intro h i b c hb hc
    rw [List.getElem?_map, Option.map_eq_some_iff] at hb
    obtain ⟨a, ha, rfl⟩ := hb
    exact h i a c ha hc

theorem forall_getElem?_map_right {f : β → γ} {as : List α} {bs : List β}
    {P : Nat → α → γ → Prop} :
    (∀ (i : Nat) a c, as[i]? = some a → (bs.map f)[i]? = some c → P i a c) ↔
      ∀ (i : Nat) a b, as[i]? = some a → bs[i]? = some b → P i a (f b) := by
  constructor
  · exact fun h i a b ha hb => h i a _ ha (by rw [List.getElem?_map, hb]; rfl)
  · intro h i a c ha hc
    rw [List.getElem?_map, Option.map_eq_some_iff] at hc
    obtain ⟨b, hb, rfl⟩ := hc
    exact h i a b ha hb

theorem forall_getElem?_map₂ {f : α → β} {g : α → γ} {as : List α}
    {P : Nat → β → γ → Prop} (h : ∀ (i : Nat) a, as[i]? = some a → P i (f a) (g a)) (i : Nat) (b : β)
    (c : γ) (hb : (as.map f)[i]? = some b) (hc : (as.map g)[i]? = some c) : P i b c := by
  rw [List.getElem?_map, Option.map_eq_some_iff] at hb hc
  obtain ⟨a, ha, rfl⟩ := hb
  obtain ⟨a', ha', rfl⟩ := hc
  rw [ha] at ha'
  cases ha'
  exact h i a ha

theorem ne_nil_of_length_eq {as : List α} {bs : List β} (hne : as ≠ [])
    (hlen : bs.length = as.length) : bs ≠ [] := by
  rintro rfl
  exact hne (List.eq_nil_of_length_eq_zero hlen.symm)

/-! ## Equal items -/

theorem any_eq_any_of_forall {p q : α → Bool} {as : List α} (h : ∀ a ∈ as, p a = q a) :
    as.any p = as.any q := by
  induction as with
  | nil => rfl
  | cons a rest ih =>
    rw [List.forall_mem_cons] at h
    rw [List.any_cons, List.any_cons, h.1, ih h.2]

theorem beq_map_of_forall [BEq β] {f g : α → β} {as : List α}
    (h : ∀ a ∈ as, (f a == g a) = true) : (as.map f == as.map g) = true := by
  induction as with
  | nil => rfl
  | cons a rest ih =>
    rw [List.forall_mem_cons] at h
    exact Bool.and_eq_true_iff.mpr ⟨h.1, ih h.2⟩

theorem beq_map_right_of_forall [BEq α] {g : α → α} {as : List α}
    (h : ∀ a ∈ as, (a == g a) = true) : (as == as.map g) = true := by
  have := beq_map_of_forall (f := id) h
  rwa [List.map_id] at this

end MapStyle
