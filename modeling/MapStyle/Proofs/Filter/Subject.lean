import MapStyle.Proofs.Filter.Junction
import MapStyle.Proofs.Parse.Denotation

/-!
# What filters look at

`Filter.subject` is what a name in a legacy filter refers to: a property or the identifier of a feature.
`Decides` gives the answer of a boolean expression, where it has one, and the tests that lowered filters
are made of are told by it. `Filter.exists_ofJson_of_decides` goes from the answer of what a filter
stands for to the features that it passes.
-/

namespace MapStyle

variable {N : Type}

/-! ## Tests -/

/-- Whether some test is true, told from the left: a test without an answer, in front of the first true
one, leaves it open. -/
def someHolds : List (Option Bool) → Option Bool
  | [] => some false
  | none :: _ => none
  | some true :: _ => some true
  | some false :: rest => someHolds rest

theorem someHolds_map_some {α : Type} (p : α → Bool) (as : List α) :
    someHolds (as.map fun a => some (p a)) = some (as.any p) := by
  induction as with
  | nil => rfl
  | cons a rest ih =>
    rw [List.map_cons, List.any_cons]
    cases p a with
    | true => rfl
    | false => exact ih

/-- A disjunction of tests holds if one of them does, provided that all have an answer or none holds. -/
theorem getD_someHolds {tests : List (Option Bool)} (h : (∀ test ∈ tests, test.isSome = true) ∨
    ∀ test ∈ tests, test.getD false = false) :
    (someHolds tests).getD false = tests.any fun test => test.getD false := by
  induction tests with
  | nil => rfl
  | cons test rest ih =>
    match test with
    | some true => rfl
    | some false =>
      exact ih (h.imp (fun h => (List.forall_mem_cons.mp h).2) fun h => (List.forall_mem_cons.mp h).2)
    | none =>
      have hfalse := h.resolve_left fun h => Bool.false_ne_true (h none List.mem_cons_self)
      exact (List.any_eq_false.mpr fun test htest => by rw [hfalse test htest]; nofun).symm

theorem toOption_someTrue {operands : List (Outcome N (Value N))} {tests : List (Option Bool)}
    (h : List.Forall₂ (fun o test => o.toOption = test.map .boolean) operands tests) :
    (Operator.someTrue operands).toOption = someHolds tests := by
  induction h with
  | nil => rfl
  | @cons o test operands tests htest _ ih =>
    show (o.bind _).toOption = _
    cases o with
    | error failure =>
      cases test with
      | none => rfl
      | some b => cases htest
    | ok v =>
      cases test with
      | none => cases htest
      | some b =>
        obtain rfl := Option.some.inj htest
        cases b with
        | true => rfl
        | false => exact ih

namespace Parse

variable [Scalar N] {c : Context} {raw : Json N} {test test' : Env N → Option Bool}

/-- Whether a raw value spells a boolean expression with the given answers. -/
def Decides (c : Context) (raw : Json N) (test : Env N → Option Bool) : Prop :=
  Denotes c raw .boolean fun env => (test env).map .boolean

theorem Decides.congr (h : Decides c raw test) (heq : ∀ env, test env = test' env) :
    Decides c raw test' := by
  rwa [← funext heq]

/-- A fallback answers where a test has no answer. -/
theorem Decides.orElse {key : Path} (h : Decides (.test (key ++ [1])) raw test) (b : Bool) :
    Decides (.test key) (Filter.orElse raw b) fun env => some ((test env).getD b) := by
  obtain ⟨e, he, -, hvalue⟩ := h
  refine ⟨_, spells_orElse_iff.mpr ⟨e, he, rfl⟩, rfl, fun env => ?_⟩
  have hvalue : (e.eval env).toOption = (test env).map .boolean := hvalue env
  show _ = some (Value.boolean ((test env).getD b))
  rw [Expr.eval_fallback]
  generalize e.eval env = outcome at hvalue ⊢
  generalize test env = answer at hvalue ⊢
  cases outcome with
  | error failure =>
    cases answer with
    | none => rfl
    | some b' => cases hvalue
  | ok v =>
    cases answer with
    | none => cases hvalue
    | some b' =>
      cases hvalue
      rfl

/-- A disjunction of tests, in any scope. -/
theorem Decides.or {raws : List (Json N)} {tests : List (Env N → Option Bool)} (hc : c.Accepts .boolean)
    (hne : raws ≠ []) (h : List.Forall₂ (fun raw test => ∀ key,
      Decides ⟨key, some .boolean, c.scope⟩ raw test) raws tests) :
    Decides c (.call "||" raws) fun env => someHolds (tests.map (· env)) := by
  have hop : IsConnective .or raws.length := isConnective_shortCircuit true hne
  obtain ⟨args, hlen, hargs, htests⟩ := exists_forall₂_getElem?
    (P := fun i raw e => Spells ⟨c.key ++ [i + 1], some .boolean, c.scope⟩ raw e)
    (Q := fun e test => e.type = .boolean ∧ ∀ env, (e.eval env).toOption = (test env).map .boolean)
    h fun i raw test hdecides => hdecides (c.key ++ [i + 1])
  have htypes : ∀ t ∈ args.map Expr.type, t ≤ .boolean := List.forall_mem_map.mpr fun e he =>
    forall_left_of_forall₂ (p := fun e => e.type ≤ .boolean) htests
      (fun e test he => by rw [he.1]; exact Ty.le_refl _) e he
  have htype : Operator.or.signature.resolve? (args.map Expr.type) = some .boolean :=
    hop.result _ (by rw [List.length_map, hlen]) htypes
  have hspells : Spells c (.call Operator.or.symbol raws) (.apply c.key .boolean .or args) :=
    .apply hlen (fun i raw e hraw he => hargs i raw e hraw he) htype hc
  refine ⟨_, hspells, rfl, fun env => ?_⟩
  have houtcomes : List.Forall₂ (fun (o : Outcome N (Value N)) test => o.toOption = test.map .boolean)
      (args.map fun e => e.eval env) (tests.map fun test => test env) := by
    rw [List.forall₂_map_left_iff, List.forall₂_map_right_iff]
    exact htests.imp fun e test he => he.2 env
  beta_reduce
  rw [Expr.eval_apply, ← toOption_someTrue houtcomes]
  show (Except.bind _ _).toOption = _
  rw [toOption_bind]
  cases (Operator.someTrue (args.map fun e => (e.eval env : Outcome N (Value N)))).toOption <;> rfl

end Parse

namespace Filter

open Parse

variable [Scalar N] {c : Context} {raw : Json N} {name : String}

/-! ## Subjects -/

/-- What a name in a filter refers to: the property of the name, or the identifier, which is null where
there is none. -/
def subject (name : String) (feature : Feature N) : Option (Value N) :=
  if name = "$id" then some feature.id else feature.properties.lookup name

omit [Scalar N] in
theorem reference_some (hname : name ≠ "$type") (kind : String) :
    reference (N := N) (.string name) (some kind) = .call kind [reference (.string name) none] := by
  unfold reference
  dsimp only
  split
  · next h => exact absurd (Json.string.inj h) hname
  · rfl
  · rfl

theorem denotes_reference (hname : name ≠ "$type") (hc : c.Accepts .value) :
    Denotes (N := N) c (reference (.string name) none) .value fun env => subject name env.feature := by
  unfold reference subject
  dsimp only
  split
  · next h => exact absurd (Json.string.inj h) hname
  · next h =>
    simp only [if_pos (Json.string.inj h)]
    exact .nullary .id rfl rfl hc
  · next hid =>
    have hne : name ≠ "$id" := fun h => hid (congrArg Json.string h)
    simp only [if_neg hne]
    have hkey : Denotes (N := N) (c.child 1 none) (.string name) .string fun _ => some (.string name) :=
      denotes_bare rfl rfl rfl nofun
    refine (Denotes.unary .get rfl hkey rfl hc).congr fun env => ?_
    show (Value.property env.feature.properties name).toOption = _
    unfold Value.property
    cases env.feature.properties.lookup name <;> rfl

/-- What a filter refers to, asserted to be of a kind, has a value where it is of the kind. -/
theorem denotes_asserted (hname : name ≠ "$type") {kind : AssertedKind} (hkind : kind ≠ .object)
    (hc : c.Accepts kind.type) :
    Denotes (N := N) c (reference (.string name) (some (Operator.assertion kind).symbol)) kind.type
      fun env => (subject name env.feature).filter fun v => v.type = kind.type := by
  rw [reference_some hname]
  have hreference : Denotes (N := N) (c.child 1 (some .value)) (reference (.string name) none) .value
      fun env => subject name env.feature := denotes_reference hname (Context.accepts_expected rfl)
  refine (Denotes.unary (.assertion kind) rfl hreference rfl hc).congr fun env => ?_
  cases subject name env.feature with
  | none => rfl
  | some v =>
    show (v.assertType kind.type none).toOption = _
    rw [Value.assertType_eq hkind, Option.filter_some]
    by_cases htype : v.type = kind.type
    · rw [if_pos htype, if_pos (decide_eq_true htype)]
      rfl
    · rw [if_neg htype, if_neg (by simpa using htype)]
      rfl

/-! ## Features that pass -/

/-- A filter can be built where what it stands for has an answer, and passes the features for which this
is true. -/
theorem exists_ofJson_of_decides (harray : raw.isArray = true) (answer : Feature N → Bool)
    (h : ∀ key, Decides (.test key) (lower raw) fun env => some (answer env.feature)) :
    ∃ filter, ofJson raw = .ok filter ∧ ∀ feature, filter.passes feature = answer feature := by
  obtain ⟨e, he, -, hvalue⟩ := h []
  obtain ⟨filter, hfilter⟩ := (exists_ofJson_iff harray []).mpr ⟨e, he⟩
  refine ⟨filter, hfilter, fun feature => ?_⟩
  have hanswer := hvalue ⟨none, feature, []⟩
  rw [eval_eq_passes harray hfilter he feature] at hanswer
  exact Value.boolean.inj (Option.some.inj hanswer)

theorem passes_of_decides (harray : raw.isArray = true) {answer : Feature N → Bool}
    (h : ∀ key, Decides (.test key) (lower raw) fun env => some (answer env.feature))
    {filter : Filter N} (hfilter : ofJson raw = .ok filter) (feature : Feature N) :
    filter.passes feature = answer feature := by
  obtain ⟨filter', hfilter', hpasses⟩ := exists_ofJson_of_decides harray answer h
  rw [hfilter'] at hfilter
  cases hfilter
  exact hpasses feature

end Filter

end MapStyle
