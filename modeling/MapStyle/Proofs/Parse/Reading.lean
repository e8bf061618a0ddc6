import Mathlib.Data.List.Chain
import MapStyle.Proofs.Expr.Canonical
import MapStyle.Proofs.Parse.Spelling

/-!
# Parts of expressions read back

What labels, interpolations, inputs of stops and array checks are written as is read as the same with
numbers in canonical form. `Label.ReadsBack` and `Interpolation.ReadsBack` collect this for what has
been parsed.
-/

namespace MapStyle

variable {N : Type} [Scalar N]

theorem Json.isFinite_of_number? {raw : Json N} {x : N} (h : raw.number? = some x) :
    Scalar.isFinite x = true := by
  have hfinite : ∀ y : N, Json.finite? y = some x → Scalar.isFinite x = true := by
    intro y hy
    unfold Json.finite? at hy
    split at hy
    · next hy' => rwa [← Option.some.inj hy]
    · cases hy
  cases raw with
  | integer n => exact hfinite _ h
  | real y => exact hfinite _ h
  | _ => cases h

theorem Json.isFinite_of_mapM_number? {raws : List (Json N)} {xs : List N}
    (h : raws.mapM Json.number? = some xs) : ∀ x ∈ xs, Scalar.isFinite x = true :=
  forall_of_mapM_eq_some (fun _ _ => Json.isFinite_of_number?) h

namespace Parse

/-! ## Literals -/

theorem isArray_ofNumber (x : N) : (Json.ofNumber x).isArray = false := by
  unfold Json.ofNumber
  split
  · rfl
  · split <;> rfl

theorem isObject_ofNumber (x : N) : (Json.ofNumber x).isObject = false := by
  unfold Json.ofNumber
  split
  · rfl
  · split <;> rfl

theorem literalType_canonical (v : Value N) (expected : Option Ty) :
    literalType v.canonical expected = literalType v expected := by
  have htype := v.type_canonical
  cases v with
  | array items =>
    cases items with
    | nil => rfl
    | cons item rest => exact htype
  | _ => exact htype

/-- A literal is written as one. -/
theorem spells_literalToJson {c : Context} {v : Value N} (hv : v.ReadsBack)
    (hcolor : v.isColor = false) (hc : c.Accepts (literalType v c.expected)) :
    Spells c (Expr.literalToJson v) (.literal c.key (literalType v c.expected) v.canonical) := by
  rw [← literalType_canonical] at hc ⊢
  rw [← hv.read] at hc ⊢
  have hsafe := hv.safe
  cases v with
  | color => cases hcolor
  | array items => exact .literal hsafe hc
  | object fields => exact .literal hsafe hc
  | number x => exact .bare (isArray_ofNumber x) (isObject_ofNumber x) hsafe hc
  | null | boolean | string => exact .bare rfl rfl hsafe hc

theorem isColor_ofJson (raw : Json N) : (Value.ofJson raw).isColor = false := by
  cases raw <;> rfl

end Parse

/-! ## Labels -/

/-- Whether a label is read back, as an equal one, from what it is written as. -/
structure Label.ReadsBack (l : Label N) : Prop where
  read : Parse.label l.toJson = .ok l.canonical
  same : (l == l.canonical) = true

/-- Whether an interpolation is read back, as one alike, from what it is written as. -/
structure Interpolation.ReadsBack (kind : Interpolation N) : Prop where
  read : Parse.readInterpolation kind.toJson = .ok kind.canonical
  alike : kind.Alike kind.canonical

namespace Parse

variable [LawfulEq N]

theorem readsBack_of_numberLabel {x : N} {l : Label N} (h : numberLabel x = .ok l) :
    l.ReadsBack := by
  unfold numberLabel at h
  split at h
  · cases h
  · split at h
    · cases h
    · next hsafe hwhole =>
      cases h
      rw [Bool.not_eq_true', Bool.not_eq_false] at hsafe hwhole
      have hfinite := LawfulEq.isFinite_of_isSafe hsafe
      have hbeq := Scalar.beq_canonical hfinite
      have hcanonical : numberLabel (Scalar.canonical x) = .ok (.number (Scalar.canonical x)) := by
        unfold numberLabel
        rw [← LawfulEq.isSafe_congr hbeq, ← LawfulEq.isWhole_congr hbeq, hsafe, hwhole]
        rfl
      refine ⟨?_, hbeq⟩
      show label (Json.ofNumber x) = .ok (.number (Scalar.canonical x))
      obtain ⟨n, hn, hvalue⟩ | ⟨hn, hvalue⟩ := Json.ofNumber_cases hfinite
      · rw [hvalue] at hcanonical ⊢
        rw [hn]
        exact hcanonical
      · rw [hvalue] at hcanonical ⊢
        rw [hn]
        exact hcanonical

theorem readsBack_of_label {raw : Json N} {l : Label N} (h : label raw = .ok l) : l.ReadsBack := by
  cases raw with
  | string s =>
    cases h
    exact ⟨rfl, beq_self_eq_true s⟩
  | integer n => exact readsBack_of_numberLabel h
  | real x => exact readsBack_of_numberLabel h
  | _ => cases h

theorem readsBack_of_spellsLabels {raw : Json N} {labels : List (Label N)}
    (h : SpellsLabels raw labels) : labels ≠ [] ∧ ∀ l ∈ labels, l.ReadsBack := by
  have hsingle : (∃ l, label raw = .ok l ∧ labels = [l]) →
      labels ≠ [] ∧ ∀ l ∈ labels, l.ReadsBack := by
    rintro ⟨l, hl, rfl⟩
    exact ⟨List.cons_ne_nil _ _, List.forall_mem_singleton.mpr (readsBack_of_label hl)⟩
  cases raw with
  | array items =>
    obtain ⟨hne, hlabels⟩ := h
    refine ⟨?_, ?_⟩
    · rintro rfl
      exact hne (List.forall₂_nil_right_iff.mp hlabels)
    · clear hne hsingle
      induction hlabels with
      | nil => exact fun l hl => absurd hl List.not_mem_nil
      | cons hl _ ih => exact List.forall_mem_cons.mpr ⟨readsBack_of_label hl, ih⟩
  | _ => exact hsingle h

omit [LawfulEq N] in
/-- Labels are written as one label or a list of several. -/
theorem spellsLabels_labelsToJson {labels : List (Label N)} (hne : labels ≠ [])
    (h : ∀ l ∈ labels, l.ReadsBack) :
    SpellsLabels (Expr.labelsToJson labels) (labels.map Label.canonical) := by
  match labels with
  | [] => exact absurd rfl hne
  | [l] =>
    have hl := (List.forall_mem_singleton.mp h).read
    have hsingle : ∃ l', label l.toJson = .ok l' ∧ [l.canonical] = [l'] := ⟨_, hl, rfl⟩
    show SpellsLabels l.toJson [l.canonical]
    cases hraw : l.toJson with
    | array => rw [hraw] at hl; cases hl
    | _ => rwa [hraw] at hsingle
  | first :: second :: rest =>
    refine ⟨by simp, ?_⟩
    rw [List.forall₂_map_left_iff, List.forall₂_map_right_iff, List.forall₂_same]
    exact fun l hl => (h l hl).read

theorem beq_label_canonical {l l' : Label N} (hl : l.ReadsBack) (hl' : l'.ReadsBack) :
    (l.canonical == l'.canonical) = (l == l') := by
  cases l with
  | number x =>
    cases l' with
    | number y =>
      have hleft : (x == y) = (Scalar.canonical x == y) := LawfulEq.beq_left_congr hl.same
      have hright : (Scalar.canonical x == y) = (Scalar.canonical x == Scalar.canonical y) :=
        LawfulEq.beq_right_congr hl'.same
      exact (hleft.trans hright).symm
    | string => rfl
  | string => cases l' <;> rfl

theorem distinct_canonical {labels : List (Label N)} (h : ∀ l ∈ labels, l.ReadsBack)
    (hdistinct : Distinct labels) : Distinct (labels.map Label.canonical) := by
  unfold Distinct at *
  rw [List.pairwise_map]
  refine hdistinct.imp_of_mem fun hearlier hlater ⟨htype, hne⟩ => ⟨?_, ?_⟩
  · rw [Label.type_canonical, Label.type_canonical, htype]
  · rw [beq_label_canonical (h _ hlater) (h _ hearlier), hne]

/-! ## Interpolations and stops -/

theorem mapM_number?_ofNumber {xs : List N} (h : ∀ x ∈ xs, Scalar.isFinite x = true) :
    (xs.map Json.ofNumber).mapM Json.number? = some (xs.map Scalar.canonical) := by
  induction xs with
  | nil => rfl
  | cons x rest ih =>
    rw [List.forall_mem_cons] at h
    rw [List.map_cons, List.mapM_cons, Json.number?_ofNumber h.1, ih h.2]
    rfl

omit [LawfulEq N] in
theorem easing?_eq_some {xs : List N} {b : UnitBezier N} (h : easing? xs = some b) :
    xs = b.controls ∧ Scalar.within (Scalar.ofInt 0) (Scalar.ofInt 1) b.x1 = true ∧
      Scalar.within (Scalar.ofInt 0) (Scalar.ofInt 1) b.x2 = true := by
  unfold easing? at h
  split at h
  · dsimp only at h
    split at h
    · next hrange =>
      cases h
      rw [Bool.and_eq_true] at hrange
      exact ⟨rfl, hrange.1, hrange.2⟩
    · cases h
  · cases h

omit [LawfulEq N] in
/-- The parameters of an interpolation that has been read are finite. -/
theorem isFinite_of_readInterpolation {raw : Json N} {kind : Interpolation N}
    (h : readInterpolation raw = .ok kind) : ∀ x ∈ kind.parameters, Scalar.isFinite x = true := by
  unfold readInterpolation at h
  split at h
  · cases h
    exact fun x hx => absurd hx List.not_mem_nil
  · cases h
    exact fun x hx => absurd hx List.not_mem_nil
  · split at h
    · next base hbase =>
      cases h
      exact Json.isFinite_of_mapM_number? hbase
    · cases h
  · split at h
    · next easing heasing =>
      cases h
      obtain ⟨xs, hxs, heasing⟩ := Option.bind_eq_some_iff.mp heasing
      obtain ⟨rfl, -⟩ := easing?_eq_some heasing
      exact Json.isFinite_of_mapM_number? hxs
    · cases h
  · cases h
  · cases h

omit [LawfulEq N] in
/-- The inputs of stops that have been read are finite. -/
theorem isFinite_of_stops {pairs : List (Json N × Json N)} {stops : List (N × Expr N)}
    (hlen : stops.length = pairs.length)
    (hstops : ∀ (i : Nat) (p : Json N × Json N) (s : N × Expr N),
      pairs[i]? = some p → stops[i]? = some s → p.1.number? = some s.1) :
    ∀ s ∈ stops, Scalar.isFinite s.1 = true := by
  intro s hs
  obtain ⟨i, p, hp, hs⟩ := exists_getElem?_of_mem hlen hs
  exact Json.isFinite_of_number? (hstops i p s hp hs)

theorem within_canonical {lo hi x : N} (hx : Scalar.isFinite x = true) :
    Scalar.within lo hi (Scalar.canonical x) = Scalar.within lo hi x := by
  have hbeq := Scalar.beq_canonical hx
  unfold Scalar.within
  rw [LawfulEq.atMost_right_congr hbeq, LawfulEq.atMost_left_congr hbeq]

omit [LawfulEq N] in
theorem readInterpolation_exponential {raws : List (Json N)} {base : N}
    (h : raws.mapM Json.number? = some [base]) :
    readInterpolation (.call "exponential" raws) = .ok (.exponential base) := by
  simp only [Json.call, readInterpolation, h]

omit [LawfulEq N] in
theorem readInterpolation_cubicBezier {raws : List (Json N)} {b : UnitBezier N}
    (h : (raws.mapM Json.number?).bind easing? = some b) :
    readInterpolation (.call "cubic-bezier" raws) = .ok (.cubicBezier b) := by
  simp only [Json.call, readInterpolation, h]

theorem readsBack_exponential {base : N} (hbase : Scalar.isFinite base = true) :
    (Interpolation.exponential base).ReadsBack := by
  have hread := mapM_number?_ofNumber (List.forall_mem_singleton.mpr hbase)
  exact ⟨readInterpolation_exponential hread, Scalar.beq_canonical hbase⟩

theorem readsBack_cubicBezier {b : UnitBezier N}
    (hfinite : ∀ x ∈ b.controls, Scalar.isFinite x = true)
    (hx1 : Scalar.within (Scalar.ofInt 0) (Scalar.ofInt 1) b.x1 = true)
    (hx2 : Scalar.within (Scalar.ofInt 0) (Scalar.ofInt 1) b.x2 = true) :
    (Interpolation.cubicBezier b).ReadsBack := by
  have hread := mapM_number?_ofNumber hfinite
  refine ⟨?_, ?_⟩
  · have hx1' : Scalar.within (Scalar.ofInt 0) (Scalar.ofInt 1) (Scalar.canonical b.x1) = true := by
      rw [within_canonical (hfinite b.x1 (by simp [UnitBezier.controls])), hx1]
    have hx2' : Scalar.within (Scalar.ofInt 0) (Scalar.ofInt 1) (Scalar.canonical b.x2) = true := by
      rw [within_canonical (hfinite b.x2 (by simp [UnitBezier.controls])), hx2]
    have heasing : easing? (b.controls.map Scalar.canonical) = some ⟨Scalar.canonical b.x1,
        Scalar.canonical b.y1, Scalar.canonical b.x2, Scalar.canonical b.y2⟩ :=
      if_pos (Bool.and_eq_true_iff.mpr ⟨hx1', hx2'⟩)
    exact readInterpolation_cubicBezier (by rw [hread, Option.bind_some, heasing])
  · exact beq_map_right_of_forall fun x hx => Scalar.beq_canonical (hfinite x hx)

theorem readsBack_of_readInterpolation {raw : Json N} {kind : Interpolation N}
    (h : readInterpolation raw = .ok kind) : kind.ReadsBack := by
  unfold readInterpolation at h
  split at h
  · cases h
    exact ⟨rfl, trivial⟩
  · cases h
    exact ⟨rfl, trivial⟩
  · split at h
    · next base hbase =>
      cases h
      exact readsBack_exponential (Json.isFinite_of_mapM_number? hbase base List.mem_cons_self)
    · cases h
  · split at h
    · next b hb =>
      cases h
      obtain ⟨xs, hxs, hb⟩ := Option.bind_eq_some_iff.mp hb
      obtain ⟨rfl, hx1, hx2⟩ := easing?_eq_some hb
      exact readsBack_cubicBezier (Json.isFinite_of_mapM_number? hxs) hx1 hx2
    · cases h
  · cases h
  · cases h

/-- Inputs of stops in canonical form stay in order. -/
theorem ascending_canonical {xs : List N} (hfinite : ∀ x ∈ xs, Scalar.isFinite x = true)
    (h : xs.IsChain fun x y => Scalar.atMost y x = false) :
    (xs.map Scalar.canonical).IsChain fun x y => Scalar.atMost y x = false := by
  rw [List.isChain_map]
  refine h.imp_of_mem_imp fun x y hx hy hxy => ?_
  rw [← LawfulEq.atMost_left_congr (Scalar.beq_canonical (hfinite y hy)),
    ← LawfulEq.atMost_right_congr (Scalar.beq_canonical (hfinite x hx)), hxy]

/-! ## Array checks -/

omit [Scalar N] [LawfulEq N] in
theorem itemType?_text {raw : Json N} {item : Ty} (h : itemType? raw = some item) :
    item ≠ .value ∧ itemType? (.string item.text : Json N) = some item := by
  unfold itemType? at h
  split at h
  · cases h
    exact ⟨by decide, rfl⟩
  · cases h
    exact ⟨by decide, rfl⟩
  · cases h
    exact ⟨by decide, rfl⟩
  · cases h

omit [Scalar N] [LawfulEq N] in
/-- A check is written with as many arguments as it was read from. -/
theorem arrayCheck?_arrayArguments {raws : List (Json N)} {item : Ty} {length : Option Nat}
    (h : arrayCheck? raws = some (item, length)) :
    arrayCheck? (Expr.arrayArguments item length : List (Json N)) = some (item, length) ∧
      (Expr.arrayArguments item length : List (Json N)).length = raws.length := by
  match raws with
  | [] =>
    cases h
    exact ⟨rfl, rfl⟩
  | [raw] =>
    obtain ⟨item', hitem, h⟩ := Option.map_eq_some_iff.mp h
    cases h
    obtain ⟨hvalue, htext⟩ := itemType?_text hitem
    unfold Expr.arrayArguments
    dsimp only
    rw [if_neg hvalue]
    refine ⟨?_, rfl⟩
    unfold arrayCheck?
    dsimp only
    rw [htext]
    rfl
  | [raw, rawLength] =>
    obtain ⟨item', hitem, h⟩ := Option.bind_eq_some_iff.mp h
    obtain ⟨n, -, h⟩ := Option.map_eq_some_iff.mp h
    cases h
    obtain ⟨-, htext⟩ := itemType?_text hitem
    refine ⟨?_, rfl⟩
    unfold Expr.arrayArguments arrayCheck?
    dsimp only
    rw [htext]
    rfl
  | _ :: _ :: _ :: _ => cases h

end Parse

namespace Expr

open Parse

/-! ## Pairs as written -/

theorem argsToJson_eq_map (args : List (Expr N)) : argsToJson args = args.map toJson :=
  eq_map_of_cons rfl (fun _ _ => rfl) args

theorem bindingsToJson_eq (bindings : List (String × Expr N)) :
    bindingsToJson bindings = alternate (bindings.map fun b => (.string b.1, b.2.toJson)) :=
  eq_alternate_of_cons rfl (fun _ _ => rfl) bindings

theorem branchesToJson_eq (branches : List (Expr N × Expr N)) :
    branchesToJson branches = alternate (branches.map fun b => (b.1.toJson, b.2.toJson)) :=
  eq_alternate_of_cons rfl (fun _ _ => rfl) branches

theorem labelledToJson_eq (branches : List (List (Label N) × Expr N)) :
    labelledToJson branches =
      alternate (branches.map fun b => (labelsToJson b.1, b.2.toJson)) :=
  eq_alternate_of_cons rfl (fun _ _ => rfl) branches

theorem stopsToJson_eq (stops : List (N × Expr N)) :
    stopsToJson stops = alternate (stops.map fun s => (Json.ofNumber s.1, s.2.toJson)) :=
  eq_alternate_of_cons rfl (fun _ _ => rfl) stops

end Expr

end MapStyle
