import MapStyle.Binary64.Scalar
import MapStyle.Proofs.Expr.Evaluation
import MapStyle.Proofs.Parse.Errors

/-!
# Parsed expressions are typed soundly

What the parser accepts is well typed (`Spells.wellTyped`), so that its values belong to its type and
its failures come from the data, at every node.
-/

namespace MapStyle

variable {N : Type} [Scalar N]

namespace Parse

/-! ## Parsed expressions are well typed -/

omit [Scalar N] in
theorem belongs_literalType (v : Value N) (expected : Option Ty) :
    v.Belongs (literalType v expected) := by
  unfold literalType
  split
  · exact Value.belongs_nil _ fun n h => by cases h
  · exact Value.belongs_nil _ fun n h => (Option.some.inj h).symm
  · exact v.belongs_type

theorem Spells.wellTyped {c : Context} {raw : Json N} {e : Expr N} (h : Spells c raw e) :
    e.WellTyped c.scope := by
  induction h with
  | bare | literal => exact .node (belongs_literalType _ _) fun _ h => absurd h List.not_mem_nil
  | var hlookup => exact .node hlookup fun _ h => absurd h List.not_mem_nil
  | @letIn c pairs bindings raw result hne hlen hnames hvalues hresult ihvalues ihresult =>
    refine .node trivial fun child hchild => ?_
    rcases List.mem_append.mp hchild with hbinding | hlast
    · obtain ⟨b, hb, rfl⟩ := List.mem_map.mp hbinding
      obtain ⟨i, p, hp, hb⟩ := exists_getElem?_of_mem hlen hb
      exact ihvalues i p b hp hb
    · obtain rfl := List.mem_singleton.mp hlast
      exact ihresult
  | @coalesce c raws args type hne hlen hargs htype hc ihargs =>
    have hle := le_settle (f := id) c.outputHint args [] fun i e he t ht => by
      obtain ⟨raw, hraw⟩ := exists_getElem?_of_getElem? hlen he
      rw [List.map_id] at ht
      exact (hargs i raw e hraw he).accepts t ht
    rw [List.map_id, List.append_nil, htype] at hle
    refine .node ⟨?_, hle⟩ fun child hchild => ?_
    · rintro rfl
      exact hne (List.eq_nil_of_length_eq_zero hlen.symm)
    · obtain ⟨a, ha, rfl⟩ := List.mem_map.mp hchild
      obtain ⟨i, raw, hraw, ha⟩ := exists_getElem?_of_mem hlen ha
      exact ihargs i raw a hraw ha
  | @conditional c pairs branches raw otherwise type hne hlen htests houtputs hotherwise htype hc
      ihtests ihoutputs ihotherwise =>
    have hle := le_settle (f := Prod.snd) c.outputHint branches [otherwise]
      fun i b hb t ht => by
        obtain ⟨p, hp⟩ := exists_getElem?_of_getElem? hlen hb
        exact (houtputs i p b hp hb).accepts t ht
    rw [htype] at hle
    have hlast := le_settle_last hotherwise.accepts
    rw [htype] at hlast
    refine .node ⟨fun b hb => ⟨?_, hle b hb⟩, hlast⟩ fun child hchild => ?_
    · obtain ⟨i, p, hp, hb⟩ := exists_getElem?_of_mem hlen hb
      exact (htests i p b hp hb).accepts .boolean rfl
    · obtain ⟨d, hd, rfl⟩ := List.mem_map.mp hchild
      rcases List.mem_append.mp hd with hbranch | hd
      · obtain ⟨b, hb, hd⟩ := List.mem_flatMap.mp hbranch
        obtain ⟨i, p, hp, hb⟩ := exists_getElem?_of_mem hlen hb
        rcases List.mem_pair.mp hd with rfl | rfl
        · exact ihtests i p b hp hb
        · exact ihoutputs i p b hp hb
      · obtain rfl := List.mem_singleton.mp hd
        exact ihotherwise
  | @matching c pairs branches rawInput raw input otherwise type hne hlen hlabels hdistinct houtputs
      hinput hotherwise htype hc ihoutputs ihinput ihotherwise =>
    have hle := le_settle (f := Prod.snd) c.outputHint branches [otherwise]
      fun i b hb t ht => by
        obtain ⟨p, hp⟩ := exists_getElem?_of_getElem? hlen hb
        exact (houtputs i p b hp hb).accepts t ht
    rw [htype] at hle
    have hlast := le_settle_last hotherwise.accepts
    rw [htype] at hlast
    refine .node ⟨hle, hlast⟩ fun child hchild => ?_
    obtain ⟨d, hd, rfl⟩ := List.mem_map.mp hchild
    rcases List.mem_append.mp hd with hd | hd
    · rcases List.mem_cons.mp hd with rfl | hd
      · exact ihinput
      · obtain ⟨b, hb, rfl⟩ := List.mem_map.mp hd
        obtain ⟨i, p, hp, hb⟩ := exists_getElem?_of_mem hlen hb
        exact ihoutputs i p b hp hb
    · obtain rfl := List.mem_singleton.mp hd
      exact ihotherwise
  | @curve c pairs stops rawKind rawInput kind input type hne hlen hkind hinput hstops hascending
      houtputs htype hblend hc ihinput ihoutputs =>
    have hle := le_settle (f := Prod.snd) c.outputHint stops []
      fun i s hs t ht => by
        obtain ⟨p, hp⟩ := exists_getElem?_of_getElem? hlen hs
        exact (houtputs i p s hp hs).accepts t ht
    rw [List.append_nil, htype] at hle
    refine .node ⟨hinput.accepts .number rfl, ?_, hle, hblend⟩ fun child hchild => ?_
    · rintro rfl
      exact hne (List.eq_nil_of_length_eq_zero hlen.symm)
    · obtain ⟨d, hd, rfl⟩ := List.mem_map.mp hchild
      rcases List.mem_cons.mp hd with rfl | hd
      · exact ihinput
      · obtain ⟨s, hs, rfl⟩ := List.mem_map.mp hd
        obtain ⟨i, p, hp, hs⟩ := exists_getElem?_of_mem hlen hs
        exact ihoutputs i p s hp hs
  | arrayOf hcheck hinput hc ihinput =>
    refine .node trivial fun child hchild => ?_
    obtain rfl := List.mem_singleton.mp hchild
    exact ihinput
  | @apply c op raws args type hlen hargs htype hc ihargs =>
    refine .node htype fun child hchild => ?_
    obtain ⟨a, ha, rfl⟩ := List.mem_map.mp hchild
    obtain ⟨i, raw, hraw, ha⟩ := exists_getElem?_of_mem hlen ha
    exact ihargs i raw a hraw ha

end Parse

namespace Expr

/-! ## What an evaluation reaches -/

/-- `Reaches env e env' d`: evaluating `e` in `env` can come to evaluate the node `d` in `env'`. The
result of a `let` is evaluated where its bindings have values; every other node is evaluated in the
environment of the node above it. -/
inductive Reaches : Env N → Expr N → Env N → Expr N → Prop
  | self {env e} : Reaches env e env e
  | child {env e child env' d} (hlet : ∀ key bindings result, e ≠ .letIn key bindings result)
      (hchild : child ∈ e.children) (h : Reaches env child env' d) : Reaches env e env' d
  | binding {env key bindings result b env' d} (hb : b ∈ bindings) (h : Reaches env b.2 env' d) :
      Reaches env (.letIn key bindings result) env' d
  | result {env key bindings result bound env' d} (hbound : evalBindings bindings env = .ok bound)
      (h : Reaches (env.bind bound) result env' d) :
      Reaches env (.letIn key bindings result) env' d

omit [Scalar N] in
theorem mem_scopedChildren {scope : Scope} {e d : Expr N}
    (hlet : ∀ key bindings result, e ≠ .letIn key bindings result) (hd : d ∈ e.children) :
    (scope, d) ∈ e.scopedChildren scope := by
  cases e with
  | letIn key bindings result => exact absurd rfl (hlet key bindings result)
  | _ => exact List.mem_map_of_mem hd

/-- Typing goes along with evaluation: each node is reached in an environment that fits it. -/
theorem WellTyped.of_reaches {scope : Scope} {env env' : Env N} {e d : Expr N}
    (h : WellTyped scope e) (henv : env.Fits scope) (hd : Reaches env e env' d) :
    ∃ inner, WellTyped inner d ∧ env'.Fits inner := by
  induction hd generalizing scope with
  | self => exact ⟨scope, h, henv⟩
  | child hlet hchild _ ih =>
    cases h with
    | node _ hchildren => exact ih (hchildren _ (mem_scopedChildren hlet hchild)) henv
  | binding hb _ ih =>
    cases h with
    | node _ hchildren =>
      exact ih (hchildren _ (List.mem_append_left _ (List.mem_map_of_mem hb))) henv
  | @result env key bindings result bound env' d hbound _ ih =>
    cases h with
    | node _ hchildren =>
      have hbindings : ∀ b ∈ bindings, Yields (fun v => v.Belongs b.2.type) (b.2.eval env) :=
        fun b hb => (hchildren (scope, b.2)
          (List.mem_append_left _ (List.mem_map_of_mem hb))).eval_yields henv
      have hbelongs := (evalBindings_yields hbindings).of_ok hbound
      exact ih (hchildren _ (List.mem_append_right _ (List.mem_singleton.mpr rfl)))
        (henv.bind hbelongs)

/-! ## Soundness -/

variable {raw : Json N} {expected : Option Ty} {e : Expr N}

/-- The values of a parsed expression belong to its type; those of any node in it belong to the type
of that node, wherever the variables that it sees have values of the types recorded for them. -/
theorem belongs_of_parse (h : parse raw expected = .ok e) :
    (∀ zoom feature v, e.eval ⟨zoom, feature, []⟩ = .ok v → v.Belongs e.type) ∧
    ∀ scope d, Occurs [] e scope d →
      ∀ env : Env N, env.Fits scope → ∀ v, d.eval env = .ok v → v.Belongs d.type := by
  have htyped : WellTyped [] e := (parse_eq_ok_iff.mp h).wellTyped
  constructor
  · intro zoom feature v hv
    exact (htyped.eval_yields (Env.fits_nil _)).of_ok hv
  · intro scope d hd env henv v hv
    exact ((htyped.of_occurs hd).eval_yields henv).of_ok hv

theorem belongs_of_parse_let :
    ∃ e : Expr Float,
      parse (.call "let" [.string "x", .string "a", .call "var" [.string "x"]]) none = .ok e ∧
      (∀ zoom feature v, e.eval ⟨zoom, feature, []⟩ = .ok v → v.Belongs .string) ∧
      ∀ env : Env Float, env.Fits [("x", .string)] →
        ∀ v, (Expr.var [3] .string "x").eval env = .ok v → v.Belongs .string := by
  have hparse : parse (.call "let" [.string "x", .string "a", .call "var" [.string "x"]] :
      Json Float) none = .ok (.letIn [] [("x", .literal [2] .string (.string "a"))]
        (.var [3] .string "x")) := rfl
  have hchild : ([("x", .string)], .var [3] .string "x") ∈ scopedChildren []
      (.letIn [] [("x", .literal [2] .string (.string "a"))] (.var [3] .string "x") : Expr Float) :=
    List.mem_append_right _ (List.mem_singleton.mpr rfl)
  have h := belongs_of_parse hparse
  exact ⟨_, hparse, h.1, h.2 _ _ (.step hchild .self)⟩

/-- No evaluation that a parsed expression leads to fails for any other reason than the data. -/
theorem isData_of_parse (h : parse raw expected = .ok e) {zoom : Option N} {feature : Feature N}
    {env : Env N} {d : Expr N} (hd : Reaches ⟨zoom, feature, []⟩ e env d) {failure : Failure N}
    (hfailure : d.eval env = .error failure) : failure.IsData := by
  have htyped : WellTyped [] e := (parse_eq_ok_iff.mp h).wellTyped
  obtain ⟨scope, hscope, henv⟩ := htyped.of_reaches (Env.fits_nil _) hd
  exact (hscope.eval_yields henv).of_error hfailure

theorem isData_of_parse_coalesce :
    ∃ (e d : Expr Float) (failure : Failure Float),
      parse (.call "coalesce" [.call "get" [.string "name"], .string "none"]) none = .ok e ∧
      Reaches ⟨none, ⟨[], .null, .point⟩, []⟩ e ⟨none, ⟨[], .null, .point⟩, []⟩ d ∧
      d.eval ⟨none, ⟨[], .null, .point⟩, []⟩ = .error failure ∧ failure.IsData := by
  have hparse : parse (.call "coalesce" [.call "get" [.string "name"], .string "none"] : Json Float)
      none = .ok (.coalesce [] .value
        [.apply [1] .value .get [.literal [1, 1] .string (.string "name")],
          .literal [2] .string (.string "none")]) := rfl
  have hreaches : Reaches ⟨none, ⟨[], .null, .point⟩, []⟩
      (.coalesce [] .value [.apply [1] .value .get [.literal [1, 1] .string (.string "name")],
        .literal [2] .string (.string "none")])
      ⟨none, ⟨[], .null, .point⟩, []⟩
      (.apply [1] .value .get [.literal [1, 1] .string (.string "name" : Value Float)]) :=
    .child (fun _ _ _ h => by cases h) List.mem_cons_self .self
  exact ⟨_, _, _, hparse, hreaches, rfl, isData_of_parse hparse hreaches rfl⟩

end Expr

end MapStyle
