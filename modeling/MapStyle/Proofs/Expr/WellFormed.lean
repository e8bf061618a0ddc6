import MapStyle.Proofs.Binary64.Order
import MapStyle.Proofs.Expr.TypeSoundness
import MapStyle.Proofs.Parse.Inversion
import MapStyle.Proofs.Parse.Places
import MapStyle.Proofs.Parse.Reading

/-!
# Well-formed trees

Evaluation and lowering rely on more than the types of a tree: that stops ascend, that no label comes
up twice, that variables are bound. `Expr.WellFormed` says it node by node.

* `Expr.Within`: the nodes of a tree, each with the `let`s whose results hold it.
* `Expr.Binds`: the binding that a name stands for, told by those `let`s.
* `Expr.wellFormed_of_parse`: every node of a parsed tree is well formed.
-/

namespace MapStyle

variable {N : Type}

/-! ## Numbers in a value -/

namespace Value

mutual

/-- The numbers anywhere in a value. -/
def numbers : Value N → List N
  | .number x => [x]
  | .object fields => fieldNumbers fields
  | .array items => itemNumbers items
  | .null | .boolean _ | .string _ | .color _ => []

/-- The numbers anywhere in the items of an array. -/
def itemNumbers : List (Value N) → List N
  | [] => []
  | item :: rest => numbers item ++ itemNumbers rest

/-- The numbers anywhere in the fields of an object. -/
def fieldNumbers : List (String × Value N) → List N
  | [] => []
  | (_, value) :: rest => numbers value ++ fieldNumbers rest

end

variable [Scalar N]

mutual

/-- A literal whose numbers are small enough stands for a value with such numbers. -/
theorem isSafe_of_mem_numbers : ∀ raw : Json N, raw.isSafe = true →
    ∀ x ∈ (ofJson raw).numbers, Scalar.isSafe x = true
  | .null, _ | .boolean _, _ | .string _, _ => fun _ hx => absurd hx List.not_mem_nil
  | .integer _, h | .real _, h => List.forall_mem_singleton.mpr h
  | .array items, h => isSafe_of_mem_itemNumbers items h
  | .object fields, h => isSafe_of_mem_fieldNumbers fields h

theorem isSafe_of_mem_itemNumbers : ∀ items : List (Json N), Json.itemsSafe items = true →
    ∀ x ∈ itemNumbers (ofItems items), Scalar.isSafe x = true
  | [], _ => fun _ hx => absurd hx List.not_mem_nil
  | item :: rest, h => by
    obtain ⟨hitem, hrest⟩ := Bool.and_eq_true_iff.mp h
    exact List.forall_mem_append.mpr
      ⟨isSafe_of_mem_numbers item hitem, isSafe_of_mem_itemNumbers rest hrest⟩

theorem isSafe_of_mem_fieldNumbers : ∀ fields : List (String × Json N),
    Json.fieldsSafe fields = true → ∀ x ∈ fieldNumbers (ofFields fields), Scalar.isSafe x = true
  | [], _ => fun _ hx => absurd hx List.not_mem_nil
  | (_, value) :: rest, h => by
    obtain ⟨hvalue, hrest⟩ := Bool.and_eq_true_iff.mp h
    exact List.forall_mem_append.mpr
      ⟨isSafe_of_mem_numbers value hvalue, isSafe_of_mem_fieldNumbers rest hrest⟩

end

end Value

theorem Label.beq_comm [Scalar N] [LawfulEq N] (l l' : Label N) : (l == l') = (l' == l) := by
  cases l with
  | number x =>
    cases l' with
    | number y => exact Bool.eq_iff_iff.mpr ⟨LawfulEq.symm, LawfulEq.symm⟩
    | string => rfl
  | string s =>
    cases l' with
    | number => rfl
    | string t => exact (BEq.comm : (s == t) = (t == s))

namespace Expr

/-! ## Nodes and the `let`s around them -/

/-- The bindings of the `let`s whose results hold a node, innermost first. -/
abbrev Lets (N : Type) := List (List (String × Expr N))

/-- `Within lets e inner d`: in `e`, which stands in the results of `lets`, stands the node `d`, which
stands in the results of `inner`. -/
inductive Within : Lets N → Expr N → Lets N → Expr N → Prop
  | self {lets e} : Within lets e lets e
  | child {lets e child inner d} (hlet : ∀ key bindings result, e ≠ .letIn key bindings result)
      (hchild : child ∈ e.children) (h : Within lets child inner d) : Within lets e inner d
  | binding {lets key bindings result b inner d} (hb : b ∈ bindings) (h : Within lets b.2 inner d) :
      Within lets (.letIn key bindings result) inner d
  | result {lets key bindings result inner d} (h : Within (bindings :: lets) result inner d) :
      Within lets (.letIn key bindings result) inner d

variable {lets inner : Lets N} {e d : Expr N} {name : String} {type : Ty}

/-- Every node of a tree stands in it, within some `let`s. -/
theorem exists_within (lets : Lets N) (h : d ∈ e.nodes) :
    ∃ inner, Within lets e inner d := by
  induction e using induction_on_children generalizing lets with
  | h e ih =>
    rcases mem_nodes.mp h with rfl | ⟨child, hchild, hd⟩
    · exact ⟨lets, .self⟩
    · cases e with
      | letIn key bindings result =>
        rcases List.mem_append.mp hchild with hbinding | hlast
        · obtain ⟨b, hb, rfl⟩ := List.mem_map.mp hbinding
          obtain ⟨inner, hinner⟩ := ih b.2 hchild lets hd
          exact ⟨inner, .binding hb hinner⟩
        · obtain rfl := List.mem_singleton.mp hlast
          obtain ⟨inner, hinner⟩ := ih child hchild (bindings :: lets) hd
          exact ⟨inner, .result hinner⟩
      | _ =>
        obtain ⟨inner, hinner⟩ := ih child hchild lets hd
        exact ⟨inner, .child (fun _ _ _ h => by cases h) hchild hinner⟩

/-- The types of the variables that `let`s bind. -/
def scopeOf (lets : Lets N) : Scope :=
  lets.flatMap fun bindings => (boundTypes bindings).reverse

theorem Within.occurs (h : Within lets e inner d) : Occurs (scopeOf lets) e (scopeOf inner) d := by
  induction h with
  | self => exact .self
  | child hlet hchild _ ih => exact .step (mem_scopedChildren hlet hchild) ih
  | binding hb _ ih => exact .step (List.mem_append_left _ (List.mem_map_of_mem hb)) ih
  | result _ ih => exact .step (List.mem_append_right _ List.mem_cons_self) ih

/-! ## Bindings -/

/-- Whether the innermost `let` that binds a name binds it last to an expression of the type. -/
def Binds (lets : Lets N) (name : String) (type : Ty) : Prop :=
  ∃ nearer bindings outer before value after, lets = nearer ++ bindings :: outer ∧
    (∀ others ∈ nearer, name ∉ others.map (·.1)) ∧
    bindings = before ++ (name, value) :: after ∧ name ∉ after.map (·.1) ∧ value.type = type

theorem map_fst_boundTypes (bindings : List (String × Expr N)) :
    (boundTypes bindings).map (·.1) = bindings.map (·.1) := by
  rw [boundTypes, List.map_map]
  rfl

/-- The last binding of a name in a `let` counts. -/
theorem exists_of_lookup_boundTypes {bindings : List (String × Expr N)}
    (h : (boundTypes bindings).reverse.lookup name = some type) :
    ∃ before value after, bindings = before ++ (name, value) :: after ∧
      name ∉ after.map (·.1) ∧ value.type = type := by
  obtain ⟨later, sooner, hsplit, hlater⟩ := List.lookup_eq_some_iff.mp h
  have htypes : boundTypes bindings = sooner.reverse ++ (name, type) :: later.reverse := by
    rw [List.reverse_eq_append_iff, List.reverse_cons, List.append_assoc] at hsplit
    exact hsplit
  obtain ⟨before, rest, rfl, -, hrest⟩ := List.map_eq_append_iff.mp htypes
  obtain ⟨⟨name, value⟩, after, rfl, hhere, hafter⟩ := List.map_eq_cons_iff.mp hrest
  cases hhere
  refine ⟨before, value, after, rfl, fun hmem => ?_, rfl⟩
  rw [← map_fst_boundTypes, boundTypes, hafter] at hmem
  obtain ⟨b, hb, hname⟩ := List.mem_map.mp hmem
  exact bne_iff_ne.mp (hlater b (List.mem_reverse.mp hb)) hname.symm

theorem not_mem_of_lookup_boundTypes {bindings : List (String × Expr N)}
    (h : (boundTypes bindings).reverse.lookup name = none) : name ∉ bindings.map (·.1) := by
  rw [List.lookup_eq_none_iff] at h
  rw [← map_fst_boundTypes]
  intro hmem
  obtain ⟨b, hb, hname⟩ := List.mem_map.mp hmem
  exact bne_iff_ne.mp (h b (List.mem_reverse.mpr hb)) hname.symm

theorem binds_of_lookup (h : (scopeOf lets).lookup name = some type) : Binds lets name type := by
  induction lets with
  | nil => cases h
  | cons bindings outer ih =>
    rw [scopeOf, List.flatMap_cons, List.lookup_append] at h
    cases hbound : (boundTypes bindings).reverse.lookup name with
    | some t =>
      rw [hbound] at h
      obtain rfl := Option.some.inj h
      obtain ⟨before, value, after, hsplit, hafter, htype⟩ := exists_of_lookup_boundTypes hbound
      exact ⟨[], bindings, outer, before, value, after, rfl, fun _ h => absurd h List.not_mem_nil,
        hsplit, hafter, htype⟩
    | none =>
      rw [hbound] at h
      obtain ⟨nearer, found, farther, before, value, after, rfl, hnearer, hrest⟩ := ih h
      refine ⟨bindings :: nearer, found, farther, before, value, after, rfl, ?_, hrest⟩
      exact List.forall_mem_cons.mpr ⟨not_mem_of_lookup_boundTypes hbound, hnearer⟩

/-! ## Well-formed nodes -/

variable [Scalar N]

/-- What holds of the labels of a match, one list for each output, where the input has the type. -/
structure LabelsFit (input : Ty) (labels : List (List (Label N))) : Prop where
  nonempty : labels ≠ [] ∧ ∀ here ∈ labels, here ≠ []
  distinct : labels.flatten.Pairwise fun l l' => (l == l') = false ∧ (l' == l) = false
  kind : ∃ kind, (∀ l ∈ labels.flatten, l.type = kind) ∧ input ≤ kind

/-- What holds of the stops of a curve of the type. -/
structure StopsFit (type : Ty) (interpolation : Interpolation N) (inputs : List N) : Prop where
  nonempty : inputs ≠ []
  ascending : Ascending inputs
  blended : interpolation.isStep = false →
    type = .number ∨ type = .color ∨ ∃ length, type = .array .number length

/-- What evaluation and lowering rely on at a node that stands in the results of `lets`. -/
def WellFormed (lets : Lets N) : Expr N → Prop
  | .literal _ _ value => ∀ x ∈ value.numbers,
    Scalar.atMost (Scalar.abs x) (Scalar.ofInt 9007199254740991) = true
  | .var _ type name => Binds lets name type
  | .letIn .. | .arrayOf .. => True
  | .coalesce _ type args => ∀ arg ∈ args, arg.type ≤ type
  | .conditional _ type branches otherwise =>
    (∀ b ∈ branches, b.1.type ≤ .boolean ∧ b.2.type ≤ type) ∧ otherwise.type ≤ type
  | .matching _ type input branches otherwise =>
    LabelsFit input.type (branches.map (·.1)) ∧
      (∀ b ∈ branches, b.2.type ≤ type) ∧ otherwise.type ≤ type
  | .curve _ type interpolation _ stops =>
    StopsFit type interpolation (stops.map (·.1)) ∧ ∀ s ∈ stops, s.2.type ≤ type
  | .apply _ type op args => op.signature.resolve? (args.map Expr.type) = some type

end Expr

namespace Parse

variable [Scalar N]

/-! ## Parsed expressions are well formed -/

omit [Scalar N] in
theorem type_eq_of_ofType_ne_discrete {type : Ty} (h : Curve.OutputKind.ofType type ≠ .discrete) :
    type = .number ∨ type = .color ∨ ∃ length, type = .array .number length := by
  unfold Curve.OutputKind.ofType at h
  split at h
  · exact .inl rfl
  · exact .inr (.inl rfl)
  · exact .inr (.inr ⟨_, rfl⟩)
  · exact absurd rfl h

theorem Distinct.type_eq_head {l : Label N} {labels : List (Label N)} (h : Distinct (l :: labels)) :
    ∀ l' ∈ l :: labels, l'.type = l.type :=
  List.forall_mem_cons.mpr ⟨rfl, fun l' hl' => ((List.pairwise_cons.mp h).1 l' hl').1⟩

variable [LawfulEq N]

/-- Labels that are read one after the other fit an input that is read against the first. -/
theorem labelsFit_of_spells {c : Context} {labels : List (List (Label N))} {raw : Json N}
    {input : Expr N} (hne : labels ≠ []) (hlabels : ∀ here ∈ labels, ∃ raw, SpellsLabels raw here)
    (hdistinct : Distinct labels.flatten)
    (hinput : Spells (c.child 1 (labels.flatten.head?.map Label.type)) raw input) :
    Expr.LabelsFit input.type labels := by
  have hlabelsNe : ∀ here ∈ labels, here ≠ [] := fun here hhere => by
    obtain ⟨raw, hraw⟩ := hlabels here hhere
    exact (readsBack_of_spellsLabels hraw).1
  refine ⟨⟨hne, hlabelsNe⟩, ?_, ?_⟩
  · refine hdistinct.imp fun {l l'} h => ?_
    rw [Label.beq_comm l l']
    exact ⟨h.2, h.2⟩
  · obtain ⟨first, rest, rfl⟩ := List.exists_cons_of_ne_nil hne
    obtain ⟨l, others, rfl⟩ := List.exists_cons_of_ne_nil (hlabelsNe first List.mem_cons_self)
    exact ⟨l.type, hdistinct.type_eq_head, hinput.accepts l.type rfl⟩

variable [LawfulOrder N]

theorem Spells.wellFormed {c : Context} {raw : Json N} {e : Expr N} {lets : Expr.Lets N}
    (h : Spells c raw e) (htyped : e.LocallyTyped (Expr.scopeOf lets)) : e.WellFormed lets := by
  cases h with
  | bare harray hobject hsafe => exact Value.isSafe_of_mem_numbers raw hsafe
  | @literal _ value hsafe => exact Value.isSafe_of_mem_numbers value hsafe
  | var => exact Expr.binds_of_lookup htyped
  | letIn | arrayOf => trivial
  | coalesce => exact htyped.2
  | conditional | apply => exact htyped
  | matching hne hlen hlabels hdistinct _ hinput =>
    refine ⟨labelsFit_of_spells ?_ ?_ hdistinct hinput, htyped⟩
    · rw [ne_eq, List.map_eq_nil_iff]
      exact ne_nil_of_length_eq hne hlen
    · intro here hhere
      obtain ⟨b, hb, rfl⟩ := List.mem_map.mp hhere
      obtain ⟨i, p, hp, hb⟩ := exists_getElem?_of_mem hlen hb
      exact ⟨p.1, hlabels i p b hp hb⟩
  | curve hne hlen _ _ hstops hascending _ _ hblend =>
    refine ⟨⟨?_, ascending_of_isChain (fun x hx => ?_) hascending, fun hstep => ?_⟩, htyped.2.2.1⟩
    · rw [ne_eq, List.map_eq_nil_iff]
      exact htyped.2.1
    · obtain ⟨s, hs, rfl⟩ := List.mem_map.mp hx
      exact LawfulEq.self_of_isFinite (isFinite_of_stops hlen hstops s hs)
    · refine type_eq_of_ofType_ne_discrete (hblend.resolve_left ?_)
      rw [hstep]
      decide

end Parse

namespace Expr

open Parse

variable [Scalar N]

/-- Every node of a parsed tree stands in the results of some `let`s of the tree, and keeps what
evaluation and lowering rely on there. -/
theorem wellFormed_of_parse [LawfulEq N] [LawfulOrder N] {raw : Json N} {expected : Option Ty}
    {e : Expr N} (h : parse raw expected = .ok e) :
    (∀ d ∈ e.nodes, ∃ lets, Within [] e lets d) ∧
    ∀ lets d, Within [] e lets d → d.WellFormed lets := by
  have hspells := parse_eq_ok_iff.mp h
  refine ⟨fun d hd => exists_within [] hd, fun lets d hd => ?_⟩
  obtain ⟨-, inner, sub, -, -, hsub⟩ := hspells.exists_place hd.occurs.mem_nodes
  cases hspells.wellTyped.of_occurs hd.occurs with
  | node hlocal _ => exact hsub.wellFormed hlocal

/-- A `let` that binds a name twice, around a match and a curve. -/
def rebound : Json Float :=
  .call "let" [.string "x", .integer 1, .string "x", .call "string" [.call "id" []],
    .call "match" [.call "var" [.string "x"],
      .array [.string "a", .string "b"], .integer 1, .string "c", .integer 2,
      .call "curve" [.call "linear" [], .call "zoom" [],
        .integer 0, .integer 1, .integer 10, .integer 2]]]

theorem exists_spells_rebound : ∃ e, Spells (.root none) rebound e := by
  have hcurve : Spells (N := Float) ⟨[5, 6], some .number, [("x", .string), ("x", .number)]⟩
      (.call "curve" [.call "linear" [], .call "zoom" [], .integer 0, .integer 1, .integer 10,
        .integer 2])
      (.curve [5, 6] .number .linear (.apply [5, 6, 2] .number .zoom [])
        [(Scalar.ofInt 0, .literal [5, 6, 4] .number (.number (Scalar.ofInt 1))),
          (Scalar.ofInt 10, .literal [5, 6, 6] .number (.number (Scalar.ofInt 2)))]) :=
    .curveOverZoom rfl rfl rfl rfl (.bare rfl rfl rfl (Context.accepts_expected rfl))
      (.bare rfl rfl rfl (Context.accepts_expected rfl)) rfl (.inr nofun)
      (Context.accepts_expected rfl)
  have hdistinct : Distinct ([.string "a", .string "b", .string "c"] : List (Label Float)) :=
    .cons (List.forall_mem_cons.mpr ⟨⟨rfl, rfl⟩, List.forall_mem_singleton.mpr ⟨rfl, rfl⟩⟩)
      (.cons (List.forall_mem_singleton.mpr ⟨rfl, rfl⟩) (List.pairwise_singleton _ _))
  have hmatching : Spells (N := Float) ⟨[5], none, [("x", .string), ("x", .number)]⟩
      (.call "match" (.call "var" [.string "x"] ::
        alternate [(.array [.string "a", .string "b"], .integer 1), (.string "c", .integer 2)] ++ [_]))
      (.matching [5] .number (.var [5, 1] .string "x")
        [([.string "a", .string "b"], .literal [5, 3] .number (.number (Scalar.ofInt 1))),
          ([.string "c"], .literal [5, 5] .number (.number (Scalar.ofInt 2)))] _) :=
    .matching (List.cons_ne_nil _ _) rfl
      (forall_getElem?_cons.mpr ⟨⟨List.cons_ne_nil _ _, .cons rfl (.cons rfl .nil)⟩,
        forall_getElem?_cons.mpr ⟨⟨_, rfl, rfl⟩, nofun⟩⟩)
      hdistinct
      (forall_getElem?_cons.mpr ⟨.bare rfl rfl rfl nofun,
        forall_getElem?_cons.mpr ⟨.bare rfl rfl rfl (Context.accepts_expected rfl), nofun⟩⟩)
      (.var rfl (Context.accepts_expected rfl)) hcurve rfl nofun
  have hid : Spells (N := Float) ⟨[4], none, []⟩ (.call "string" [.call "id" []])
      (.apply [4] .string (.assertion .string) [.apply [4, 1] .value .id []]) :=
    .unary (.assertion .string) (.nullary .id rfl (Context.accepts_expected rfl)) rfl nofun
  have hrebound : Spells (N := Float) (.root none) (.call "let"
        (alternate [(.string "x", .integer 1), (.string "x", .call "string" [.call "id" []])] ++ [_]))
      (.letIn [] [("x", .literal [2] .number (.number (Scalar.ofInt 1))),
        ("x", .apply [4] .string (.assertion .string) [.apply [4, 1] .value .id []])] _) :=
    .letIn (List.cons_ne_nil _ _) rfl
      (forall_getElem?_cons.mpr ⟨⟨rfl, by decide⟩, forall_getElem?_cons.mpr ⟨⟨rfl, by decide⟩, nofun⟩⟩)
      (forall_getElem?_cons.mpr ⟨.bare rfl rfl rfl nofun, forall_getElem?_cons.mpr ⟨hid, nofun⟩⟩)
      hmatching
  exact ⟨_, hrebound⟩

theorem wellFormed_of_parse_rebound :
    ∃ e, parse rebound none = .ok e ∧ (∀ d ∈ e.nodes, ∃ lets, Within [] e lets d) ∧
      ∀ lets d, Within [] e lets d → d.WellFormed lets := by
  obtain ⟨e, he⟩ := exists_spells_rebound
  have hparse := parse_eq_ok_iff.mpr he
  exact ⟨e, hparse, wellFormed_of_parse hparse⟩

end Expr

end MapStyle
