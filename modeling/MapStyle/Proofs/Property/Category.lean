import MapStyle.Proofs.Property.Lowering

/-!
# Choices by keys

`readKeys` is the reply that outputs with keys give for a property: that of the key which the property
equals, or another one where it is of the kind of the keys and equals none. The choice that categories
are lowered to, a `match` or for booleans a `case`, has this reply (`stands_choice`). What it replies
where no key is equal is the reply of its last output, so a missing property and one of another kind
get no reply from it.
-/

namespace MapStyle

open Parse

variable {N : Type} [Scalar N]

/-! ## Keys -/

/-- Whether a raw value is a key of a kind: a string, a boolean, or a whole number that is small enough
to be exact. -/
def IsKey : AssertedKind → Json N → Prop
  | .string, raw => ∃ s, raw = .string s
  | .boolean, raw => ∃ b, raw = .boolean b
  | .number, raw => ∃ x, Value.ofJson raw = .number x ∧ Scalar.isWhole x = true ∧
    Scalar.isSafe x = true
  | .object, _ => False

/-- The reply for a property by keys. -/
def readKeys (name : String) (kind : AssertedKind) (rows : List (Json N × Reply N))
    (other : Reply N) : Reply N := fun zoom properties =>
  (properties.lookup name).bind fun v =>
    if v.type = kind.type then
      (rows.find? fun row => Value.ofJson row.1 == v).elim (other zoom properties) fun row =>
        row.2 zoom properties
    else none

/-- The label of a key that is no boolean. -/
def keyLabel (raw : Json N) : Label N :=
  match Value.ofJson raw with
  | .number x => .number x
  | .string s => .string s
  | _ => .string ""

namespace IsKey

variable {kind : AssertedKind} {raw raw' : Json N}

theorem type_ofJson (h : IsKey kind raw) : (Value.ofJson raw).type = kind.type := by
  cases kind with
  | string =>
    obtain ⟨s, rfl⟩ := h
    rfl
  | boolean =>
    obtain ⟨b, rfl⟩ := h
    rfl
  | number =>
    obtain ⟨x, hx, -⟩ := h
    rw [hx]
    rfl
  | object => exact h.elim

/-- A key of numbers is an integer or a real. -/
theorem number_cases (h : IsKey .number raw) :
    (∃ n, raw = .integer n ∧ numberLabel (Scalar.ofInt n : N) = .ok (keyLabel raw)) ∨
      ∃ x, raw = .real x ∧ numberLabel x = .ok (keyLabel raw) := by
  obtain ⟨x, hx, hwhole, hsafe⟩ := h
  have hlabel : numberLabel x = .ok (.number x) := by
    unfold numberLabel
    rw [hsafe, hwhole]
    rfl
  have hkey : keyLabel raw = .number x := by
    unfold keyLabel
    rw [hx]
  cases raw with
  | integer n =>
    cases hx
    exact .inl ⟨n, rfl, hkey ▸ hlabel⟩
  | real y =>
    cases hx
    exact .inr ⟨x, rfl, hkey ▸ hlabel⟩
  | _ => cases hx

theorem kind_eq (h : IsKey kind raw) : raw.kind = (Operator.assertion kind).symbol := by
  cases kind with
  | string =>
    obtain ⟨s, rfl⟩ := h
    rfl
  | boolean =>
    obtain ⟨b, rfl⟩ := h
    rfl
  | number => obtain ⟨n, rfl, -⟩ | ⟨x, rfl, -⟩ := h.number_cases <;> rfl
  | object => exact h.elim

theorem isObject_eq (h : IsKey kind raw) : raw.isObject = false := by
  cases raw with
  | object =>
    cases kind with
    | object => exact h.elim
    | _ => cases h.type_ofJson
  | _ => rfl

variable (hkind : kind ≠ .boolean)

include hkind

theorem label_eq (h : IsKey kind raw) : label raw = .ok (keyLabel raw) := by
  cases kind with
  | string =>
    obtain ⟨s, rfl⟩ := h
    rfl
  | boolean => exact absurd rfl hkind
  | number =>
    obtain ⟨n, rfl, hlabel⟩ | ⟨x, rfl, hlabel⟩ := h.number_cases
    · exact hlabel
    · exact hlabel
  | object => exact h.elim

theorem spellsLabels (h : IsKey kind raw) : SpellsLabels raw [keyLabel raw] := by
  have hlabel := h.label_eq hkind
  cases raw with
  | array => cases hlabel
  | _ => exact ⟨_, hlabel, rfl⟩

theorem type_keyLabel (h : IsKey kind raw) : (keyLabel raw).type = kind.type := by
  cases kind with
  | string =>
    obtain ⟨s, rfl⟩ := h
    rfl
  | boolean => exact absurd rfl hkind
  | number => obtain ⟨n, rfl, -⟩ | ⟨x, rfl, -⟩ := h.number_cases <;> rfl
  | object => exact h.elim

theorem holds_keyLabel (h : IsKey kind raw) (v : Value N) :
    (keyLabel raw).holds v = (Value.ofJson raw == v) := by
  cases kind with
  | string =>
    obtain ⟨s, rfl⟩ := h
    cases v <;> rfl
  | boolean => exact absurd rfl hkind
  | number => obtain ⟨n, rfl, -⟩ | ⟨x, rfl, -⟩ := h.number_cases <;> cases v <;> rfl
  | object => exact h.elim

theorem beq_keyLabel (h : IsKey kind raw) (h' : IsKey kind raw') :
    (keyLabel raw == keyLabel raw') = (Value.ofJson raw == Value.ofJson raw') := by
  rw [← h.holds_keyLabel hkind]
  cases kind with
  | string =>
    obtain ⟨s, rfl⟩ := h'
    cases keyLabel raw <;> rfl
  | boolean => exact absurd rfl hkind
  | number =>
    obtain ⟨n, rfl, -⟩ | ⟨x, rfl, -⟩ := h'.number_cases <;> cases keyLabel raw <;> rfl
  | object => exact h'.elim

end IsKey

/-- Whether raw outputs with keys of a kind, one or more and no two equal, stand with the replies to
the calls. -/
structure KeysStand (calls : Calls N) (type : Ty) (kind : AssertedKind)
    (pairs : List (Json N × Json N)) (rows : List (Json N × Reply N)) : Prop where
  ne_nil : rows ≠ []
  keys : ∀ row ∈ rows, IsKey kind row.1
  distinct : rows.Pairwise fun earlier later =>
    (Value.ofJson later.1 == Value.ofJson earlier.1) = false
  stand : List.Forall₂ (fun pair row => pair.1 = row.1 ∧ Stands calls type pair.2 row.2) pairs rows

/-! ## Choices evaluated -/

/-- A reply by keys is what a choice answers which fails where the property is missing or of another
kind, and else takes the output of the key that is equal. -/
theorem answer_bind_assertedProperty {kind : AssertedKind} (hkind : kind ≠ .object) (name : String)
    {rows : List (Json N × Reply N)} {other : Reply N} {zoom : Option N} {properties : Properties N}
    {f : Value N → Outcome N (Value N)}
    (hf : ∀ v, assertedProperty kind name properties = .ok v → answer (f v) =
      (rows.find? fun row => Value.ofJson row.1 == v).elim (other zoom properties) fun row =>
        row.2 zoom properties) :
    answer ((assertedProperty kind name properties).bind f) =
      readKeys name kind rows other zoom properties := by
  unfold readKeys
  cases hlookup : properties.lookup name with
  | none =>
    unfold assertedProperty Value.property
    rw [hlookup]
    rfl
  | some v =>
    have hasserted : assertedProperty kind name properties =
        if v.type = kind.type then .ok v else .error (.typeAssertion none kind.type v.type) := by
      rw [← Value.assertType_eq hkind]
      unfold assertedProperty Value.property
      rw [hlookup]
      rfl
    rw [Option.bind_some]
    by_cases htype : v.type = kind.type
    · rw [if_pos htype] at hasserted ⊢
      rw [hasserted]
      exact hf v hasserted
    · rw [if_neg htype] at hasserted ⊢
      rw [hasserted]
      rfl

section

variable {zoom : Option N} {properties : Properties N} {calls : Calls N} {v : Value N}

/-- A choice that takes the output of its first branch where the key of its row equals the value, and
else is that of the other branches, takes the output of the first row whose key does. -/
theorem answer_choice {β : Type} {f : List β → Outcome N (Value N)} {branches : List β}
    {rows : List (Json N × Reply N)}
    (h : List.Forall₂ (fun b row => ∀ rest, answer (f (b :: rest)) =
      if Value.ofJson row.1 == v then row.2 zoom properties else answer (f rest)) branches rows) :
    answer (f branches) = (rows.find? fun row => Value.ofJson row.1 == v).elim (answer (f []))
      fun row => row.2 zoom properties := by
  induction h with
  | nil => rfl
  | @cons b row branches rows hb _ ih =>
    rw [hb, List.find?_cons, ih]
    cases Value.ofJson row.1 == v <;> rfl

/-- A choice by one label each takes the output of the first that holds. -/
theorem answer_byLabel (hcall : calls zoom properties)
    {branches : List (List (Label N) × Expr N)} {rows : List (Json N × Reply N)}
    (h : List.Forall₂ (fun b row => (b.1.any (·.holds v) = (Value.ofJson row.1 == v)) ∧
      b.2.HasReply calls row.2) branches rows) (otherwise : Outcome N (Value N)) :
    answer (byLabel v (branches.map fun b =>
        (b.1, (b.2.eval (StyleFunction.environment zoom properties) : Outcome N (Value N)))) otherwise) =
      (rows.find? fun row => Value.ofJson row.1 == v).elim (answer otherwise) fun row =>
        row.2 zoom properties := by
  refine answer_choice (f := fun bs => byLabel v (bs.map _) otherwise) (h.imp fun b row hb rest => ?_)
  rw [List.map_cons, byLabel, hb.1, ← hb.2 zoom properties hcall, apply_ite answer]

/-- A choice by conditions takes the output of the first that holds. -/
theorem answer_firstTrue (hcall : calls zoom properties) {branches : List (Expr N × Expr N)}
    {rows : List (Json N × Reply N)}
    (h : List.Forall₂ (fun b row => b.1.eval (StyleFunction.environment zoom properties) =
      .ok (.boolean (Value.ofJson row.1 == v)) ∧ b.2.HasReply calls row.2) branches rows)
    (otherwise : Outcome N (Value N)) :
    answer (firstTrue (branches.map fun b =>
        ((b.1.eval (StyleFunction.environment zoom properties) : Outcome N (Value N)),
          (b.2.eval (StyleFunction.environment zoom properties) : Outcome N (Value N)))) otherwise) =
      (rows.find? fun row => Value.ofJson row.1 == v).elim (answer otherwise) fun row =>
        row.2 zoom properties := by
  refine answer_choice (f := fun bs => firstTrue (bs.map _) otherwise) (h.imp fun b row hb rest => ?_)
  rw [List.map_cons, hb.1, ← hb.2 zoom properties hcall]
  cases Value.ofJson row.1 == v <;> rfl

end

/-! ## Choices over a property -/

/-- The property, asserted to be of a kind. -/
def keyInput (name : String) (kind : AssertedKind) : Json N :=
  .call (Operator.assertion kind).symbol [.call "get" [.string name]]

section

variable {calls : Calls N} {type : Ty} {kind : AssertedKind} {pairs : List (Json N × Json N)}
  {rows : List (Json N × Reply N)} {fallback : Json N} {other : Reply N}

theorem KeysStand.kind_ne_object (h : KeysStand calls type kind pairs rows) : kind ≠ .object := by
  rintro rfl
  obtain ⟨row, hrow⟩ := List.exists_mem_of_ne_nil rows h.ne_nil
  exact h.keys row hrow

theorem KeysStand.pairs_ne_nil (h : KeysStand calls type kind pairs rows) : pairs ≠ [] := by
  rintro rfl
  cases h.stand
  exact h.ne_nil rfl

/-- The labels of keys are distinct. -/
theorem KeysStand.distinct_labels (h : KeysStand calls type kind pairs rows)
    (hkind : kind ≠ .boolean) : Distinct (rows.map fun row => keyLabel row.1) := by
  unfold Distinct
  rw [List.pairwise_map]
  refine h.distinct.imp_of_mem fun {earlier later} hearlier hlater hne => ?_
  have hfirst := h.keys earlier hearlier
  have hsecond := h.keys later hlater
  rw [hfirst.type_keyLabel hkind, hsecond.type_keyLabel hkind, hsecond.beq_keyLabel hkind hfirst]
  exact ⟨rfl, hne⟩

/-- A match of a property with keys stands with the reply by keys. -/
theorem stands_matching (htype : type ≠ .value) (hkind : kind ≠ .boolean)
    (h : KeysStand calls type kind pairs rows) (hother : Stands calls type fallback other)
    (name : String) :
    Stands calls type (.call "match" (keyInput name kind :: alternate pairs ++ [fallback]))
      (readKeys name kind rows other) := by
  intro key
  have hkeys : List.Forall₂ (fun pair row => (pair.1 = row.1 ∧ Stands calls type pair.2 row.2) ∧
      IsKey kind row.1) pairs rows := forall₂_and_right h.stand h.keys
  obtain ⟨branches, hlen, hbranches, hrows⟩ := exists_forall₂_getElem?
    (P := fun i pair (b : List (Label N) × Expr N) => SpellsLabels pair.1 b.1 ∧
      Spells ⟨key ++ [2 * i + 3], some type, []⟩ pair.2 b.2)
    (Q := fun b row => b.1 = [keyLabel row.1] ∧ IsKey kind row.1 ∧ b.2.isZoomConstant = true ∧
      b.2.HasReply calls row.2)
    hkeys (by
      rintro i ⟨raw, output⟩ row ⟨⟨rfl, houtput⟩, hkey⟩
      obtain ⟨e, hspells, hconstant, hreply⟩ := houtput (key ++ [2 * i + 3])
      exact ⟨([keyLabel row.1], e), ⟨hkey.spellsLabels hkind, hspells⟩, rfl, hkey, hconstant, hreply⟩)
  obtain ⟨otherwise, hotherwise, hconstant, hreply⟩ := hother (key ++ [2 * pairs.length + 2])
  obtain ⟨input, hinput, -, hinputConstant, heval⟩ := exists_assertedProperty (N := N) kind name
    (c := ⟨key ++ [1], some kind.type, []⟩) (Context.accepts_expected rfl)
  have hlabels : branches.flatMap (·.1) = rows.map fun row => keyLabel row.1 := by
    rw [List.flatMap_def, map_eq_map_of_forall₂ hrows fun _ _ hb => hb.1, ← List.flatMap_def]
    exact List.map_eq_flatMap.symm
  have hsettle : ∀ outputs : List (Expr N),
      settle (⟨key, some type, []⟩ : Context).outputHint outputs = some type :=
    settle_outputHint rfl htype
  refine ⟨.matching key type input branches otherwise, .matching h.pairs_ne_nil hlen
    (fun i p b hp hb => (hbranches i p b hp hb).1) ?_ (fun i p b hp hb => ?_) ?_ ?_ ?_
    (Context.accepts_expected rfl), ?_, fun zoom properties hcall => ?_⟩
  · rw [hlabels]
    exact h.distinct_labels hkind
  · rw [hsettle]
    exact (hbranches i p b hp hb).2
  · obtain ⟨first, rest, hfirst⟩ := List.exists_cons_of_ne_nil h.ne_nil
    have hkey := h.keys first (hfirst ▸ List.mem_cons_self)
    rw [hlabels, hfirst, List.map_cons, List.head?_cons, Option.map_some, hkey.type_keyLabel hkind]
    exact hinput
  · rw [hsettle]
    exact hotherwise
  · rw [hsettle]
    rfl
  · refine Expr.isZoomConstant_iff.mpr ⟨nofun, ?_⟩
    show ∀ e ∈ input :: branches.map (·.2) ++ [otherwise], _
    rw [List.forall_mem_append, List.forall_mem_cons, List.forall_mem_map, List.forall_mem_singleton]
    exact ⟨⟨hinputConstant, forall_left_of_forall₂ hrows fun _ _ hb => hb.2.2.1⟩, hconstant⟩
  · rw [Expr.eval_matching, heval]
    refine answer_bind_assertedProperty h.kind_ne_object name fun v _ => ?_
    rw [← hreply zoom properties hcall]
    refine answer_byLabel hcall (hrows.imp fun b row ⟨hlabel, hkey, _, hreply⟩ => ⟨?_, hreply⟩) _
    rw [hlabel, List.any_cons, List.any_nil, Bool.or_false, hkey.holds_keyLabel hkind]

/-! ### Booleans -/

theorem eval_equal {key : Path} {type : Ty} {left right : Expr N} {env : Env N} {v : Value N}
    (hright : right.eval env = .ok v) : (Expr.apply key type .equal [left, right]).eval env =
      (left.eval env).bind fun u => .ok (.boolean (u == v)) := by
  rw [Expr.eval_binary rfl, hright]
  rfl

/-- The test that a property is a boolean, for a place where a boolean is asked for. -/
theorem exists_keyTest (name : String) {raw : Json N} (h : IsKey .boolean raw) (key : Path) :
    ∃ e : Expr N, Spells ⟨key, some .boolean, []⟩
        (.call "==" [keyInput name .boolean, raw]) e ∧ e.isZoomConstant = true ∧
      ∀ zoom properties, e.eval (StyleFunction.environment zoom properties) =
        (assertedProperty .boolean name properties).bind fun v =>
          .ok (.boolean (Value.ofJson raw == v)) := by
  obtain ⟨b, rfl⟩ := h
  obtain ⟨input, hinput, htype, hconstant, heval⟩ := exists_assertedProperty (N := N) .boolean name
    (c := ⟨key ++ [1], none, []⟩) nofun
  have hkey : Spells (N := N) ⟨key ++ [2], none, []⟩ (.boolean b)
      (.literal (key ++ [2]) .boolean (.boolean b)) := .bare rfl rfl rfl nofun
  refine ⟨_, .binary .equal hinput hkey (by rw [htype]; rfl) (Context.accepts_expected rfl), ?_,
    fun zoom properties => ?_⟩
  · refine Expr.isZoomConstant_iff.mpr ⟨nofun, List.forall_mem_cons.mpr ⟨hconstant, ?_⟩⟩
    exact List.forall_mem_singleton.mpr rfl
  · rw [eval_equal rfl, heval]
    refine congrArg _ (funext fun v => ?_)
    cases v with
    | boolean b' =>
      show (Except.ok (.boolean (b' == b)) : Outcome N (Value N)) = .ok (.boolean (b == b'))
      rw [Bool.beq_comm]
    | _ => rfl

/-- A case of comparisons of a property with keys stands with the reply by keys. -/
theorem stands_conditional (htype : type ≠ .value) (h : KeysStand calls type .boolean pairs rows)
    (hother : Stands calls type fallback other) (name : String) :
    Stands calls type (.call "case" (alternate (pairs.map fun pair =>
        (.call "==" [keyInput name .boolean, pair.1], pair.2)) ++ [fallback]))
      (readKeys name .boolean rows other) := by
  intro key
  have hkeys : List.Forall₂ (fun pair row => (pair.1 = row.1 ∧ Stands calls type pair.2 row.2) ∧
      IsKey .boolean row.1) pairs rows := forall₂_and_right h.stand h.keys
  obtain ⟨branches, hlen, hbranches, hrows⟩ := exists_forall₂_getElem?
    (P := fun i pair (b : Expr N × Expr N) =>
      Spells ⟨key ++ [2 * i + 1], some .boolean, []⟩
        (.call "==" [keyInput name .boolean, pair.1]) b.1 ∧
      Spells ⟨key ++ [2 * i + 2], some type, []⟩ pair.2 b.2)
    (Q := fun b row => (b.1.isZoomConstant = true ∧ b.2.isZoomConstant = true) ∧
      (∀ zoom properties, b.1.eval (StyleFunction.environment zoom properties) =
        (assertedProperty .boolean name properties).bind fun v =>
          .ok (.boolean (Value.ofJson row.1 == v))) ∧ b.2.HasReply calls row.2)
    hkeys (by
      rintro i ⟨raw, output⟩ row ⟨⟨rfl, houtput⟩, hkey⟩
      obtain ⟨test, htest, htestConstant, heval⟩ := exists_keyTest name hkey (key ++ [2 * i + 1])
      obtain ⟨e, hspells, hconstant, hreply⟩ := houtput (key ++ [2 * i + 2])
      exact ⟨(test, e), ⟨htest, hspells⟩, ⟨htestConstant, hconstant⟩, heval, hreply⟩)
  obtain ⟨otherwise, hotherwise, hconstant, hreply⟩ := hother (key ++ [2 * pairs.length + 1])
  have hsettle : ∀ outputs : List (Expr N),
      settle (⟨key, some type, []⟩ : Context).outputHint outputs = some type :=
    settle_outputHint rfl htype
  refine ⟨.conditional key type branches otherwise, .conditional
    (fun hnil => h.pairs_ne_nil (List.map_eq_nil_iff.mp hnil)) (by rw [List.length_map, hlen])
    (forall_getElem?_map_left.mpr fun i p b hp hb => (hbranches i p b hp hb).1)
    (forall_getElem?_map_left.mpr fun i p b hp hb => ?_) ?_ ?_ (Context.accepts_expected rfl), ?_,
    fun zoom properties hcall => ?_⟩
  · rw [hsettle]
    exact (hbranches i p b hp hb).2
  · rw [hsettle, List.length_map]
    exact hotherwise
  · rw [hsettle]
    rfl
  · refine Expr.isZoomConstant_iff.mpr ⟨nofun, ?_⟩
    show ∀ e ∈ (branches.flatMap fun b => [b.1, b.2]) ++ [otherwise], _
    rw [List.forall_mem_append, List.forall_mem_singleton]
    refine ⟨fun e he => ?_, hconstant⟩
    obtain ⟨b, hb, hpair⟩ := List.mem_flatMap.mp he
    obtain ⟨htest, houtput⟩ := forall_left_of_forall₂ hrows (fun _ _ hb => hb.1) b hb
    rcases List.mem_pair.mp hpair with rfl | rfl
    · exact htest
    · exact houtput
  · have hfirst : (Expr.conditional key type branches otherwise).eval
        (StyleFunction.environment zoom properties) =
        (assertedProperty .boolean name properties).bind fun _ =>
          (Expr.conditional key type branches otherwise).eval
            (StyleFunction.environment zoom properties) := by
      cases hasserted : assertedProperty .boolean name properties with
      | ok v => rfl
      | error failure =>
        cases hrows with
        | nil => exact absurd rfl h.ne_nil
        | cons hb _ =>
          rw [Expr.eval_conditional, List.map_cons, hb.2.1, hasserted]
          rfl
    rw [hfirst]
    refine answer_bind_assertedProperty h.kind_ne_object name fun v hv => ?_
    rw [Expr.eval_conditional, ← hreply zoom properties hcall]
    refine answer_firstTrue hcall (hrows.imp fun b row ⟨_, heval, hreply⟩ => ⟨?_, hreply⟩) _
    rw [heval, hv]
    rfl

end

end MapStyle
