import MapStyle.Proofs.Expr.Outcomes
import MapStyle.Proofs.Expr.TypeSoundness
import MapStyle.Proofs.Expr.WellFormed
import MapStyle.Proofs.Parse.Inversion

/-!
# Readings of one raw value agree

Which expression a raw value spells depends on the type that is asked for: literals, choices and
curves take it as their own. `Parse.Spells.outcome_eq`: all expressions that a raw value spells among
the same variables have the same outcomes. Only curves look at a type while they are evaluated, to
tell how outputs are blended; where outputs have values, these leave no choice
(`Curve.OutputKind.eq_of_belongs`).
-/

namespace MapStyle

variable {N : Type}

/-! ## Kinds of outputs -/

namespace Curve

/-- A value tells by which kind the types that it belongs to are blended. -/
theorem OutputKind.eq_of_belongs {t t' : Ty} (ht : ofType t ≠ .discrete)
    (ht' : ofType t' ≠ .discrete) {v : Value N} (hv : v.Belongs t) (hv' : v.Belongs t') :
    ofType t = ofType t' := by
  obtain rfl | rfl | ⟨length, rfl⟩ := Parse.type_eq_of_ofType_ne_discrete ht
  · obtain ⟨x, rfl⟩ := hv
    obtain rfl | rfl | ⟨length', rfl⟩ := Parse.type_eq_of_ofType_ne_discrete ht'
    · rfl
    · obtain ⟨_, ⟨⟩⟩ := hv'
    · obtain ⟨_, ⟨⟩, -⟩ := hv'
  · obtain ⟨c, rfl⟩ := hv
    obtain rfl | rfl | ⟨length', rfl⟩ := Parse.type_eq_of_ofType_ne_discrete ht'
    · obtain ⟨_, ⟨⟩⟩ := hv'
    · rfl
    · obtain ⟨_, ⟨⟩, -⟩ := hv'
  · obtain ⟨items, rfl, -⟩ := hv
    obtain rfl | rfl | ⟨length', rfl⟩ := Parse.type_eq_of_ofType_ne_discrete ht'
    · obtain ⟨_, ⟨⟩⟩ := hv'
    · obtain ⟨_, ⟨⟩⟩ := hv'
    · rfl

variable [Scalar N]

/-- A curve may be evaluated by every type that its outputs belong to and that can be blended. -/
theorem evaluate_eq_of_belongs {kind : Interpolation N} {t t' : Ty}
    (ht : kind.isStep = true ∨ OutputKind.ofType t ≠ .discrete)
    (ht' : kind.isStep = true ∨ OutputKind.ofType t' ≠ .discrete) (stops : List N)
    {outputs : List (Outcome N (Value N))} (h : ∀ v, .ok v ∈ outputs → v.Belongs t ∧ v.Belongs t')
    (input : Value N) :
    evaluate kind (.ofType t) stops outputs input = evaluate kind (.ofType t') stops outputs input := by
  cases input with
  | number x =>
    unfold evaluate
    dsimp only
    split
    · rfl
    · cases hselect : select kind stops x with
      | only index => rfl
      | between index factor =>
        have hstep := (lt_of_select_between hselect).2
        rw [hstep] at ht ht'
        show (output outputs index).bind _ = (output outputs index).bind _
        cases hlower : output outputs index with
        | error failure => rfl
        | ok lower =>
          -- The lower output has a value, and this settles the kind.
          have hmem : .ok lower ∈ outputs := by
            unfold output at hlower
            cases hitem : outputs[index]? with
            | none =>
              rw [hitem] at hlower
              cases hlower
            | some o =>
              rw [hitem] at hlower
              exact hlower ▸ List.mem_of_getElem? hitem
          obtain ⟨hv, hv'⟩ := h lower hmem
          rw [OutputKind.eq_of_belongs (ht.resolve_left nofun) (ht'.resolve_left nofun) hv hv']
  | _ => rfl

end Curve

/-- The values of the outputs of a curve belong to its type. -/
theorem Expr.WellTyped.belongs_of_curve [Scalar N] {scope : Scope} {key : Path} {type : Ty}
    {kind : Interpolation N} {input : Expr N} {stops : List (N × Expr N)}
    (h : Expr.WellTyped scope (.curve key type kind input stops)) {env : Env N}
    (henv : env.Fits scope) {v : Value N} (hv : .ok v ∈ stops.map (·.2.eval env)) :
    v.Belongs type := by
  obtain ⟨s, hs, hv⟩ := List.mem_map.mp hv
  cases h with
  | node here hchildren =>
    have houtput := hchildren (scope, s.2)
      (List.mem_map_of_mem (List.mem_cons_of_mem _ (List.mem_map_of_mem hs)))
    exact ((houtput.eval_yields henv).of_ok hv).mono (here.2.2.1 s hs)

/-! ## Readings -/

namespace Parse

variable [Scalar N] {c c' : Context} {raw : Json N} {e e' : Expr N}

/-- What is read where nothing is asked for is the same up to its place. -/
theorem Spells.eq_of_expected (h : Spells c raw e) (h' : Spells c' raw e')
    (hscope : c'.scope = c.scope) (hexpected : c'.expected = c.expected) :
    e'.type = e.type ∧ e'.eval = e.eval := by
  obtain ⟨key, expected, scope⟩ := c
  obtain ⟨key', expected', scope'⟩ := c'
  obtain rfl : scope' = scope := hscope
  obtain rfl : expected' = expected := hexpected
  have hmoved := h.atKey key'
  obtain rfl := h'.unique hmoved
  exact ⟨Expr.type_mapParts _ e, Expr.eval_rekey _ e⟩

theorem Spells.eval_var {name : String} (h : Spells c (.call "var" [.string name]) e)
    (env : Env N) : e.eval env = env.lookup name := by
  generalize hcall : Json.call "var" [Json.string name] = raw at h
  cases h with
  | bare harray => rw [← hcall] at harray; cases harray
  | var =>
    obtain ⟨-, hargs⟩ := List.cons.inj (Json.array.inj hcall)
    obtain ⟨hname, -⟩ := List.cons.inj hargs
    rw [Json.string.inj hname]
    rfl
  | apply => exact absurd hcall.symm (symbol_ne_formName (by decide))
  | _ => exact absurd hcall (call_ne_call (by decide))

theorem SpellsLabels.unique {labels labels' : List (Label N)} (h : SpellsLabels raw labels)
    (h' : SpellsLabels raw labels') : labels = labels' := by
  have hsingle : (∃ l, label raw = .ok l ∧ labels = [l]) → (∃ l, label raw = .ok l ∧ labels' = [l]) →
      labels = labels' := by
    rintro ⟨l, hl, rfl⟩ ⟨l', hl', rfl⟩
    rw [hl] at hl'
    cases hl'
    rfl
  cases raw with
  | array items =>
    have heq := forall₂_of_getElem? (forall₂_iff_getElem?.mp h.2).1 (forall₂_iff_getElem?.mp h.2).2
      (forall₂_iff_getElem?.mp h'.2).1 (forall₂_iff_getElem?.mp h'.2).2
    refine List.forall₂_eq_eq_eq ▸ heq.imp ?_
    rintro l l' ⟨-, item, hl, hl'⟩
    rw [hl] at hl'
    exact Except.ok.inj hl'
  | _ => exact hsingle h h'

/-- The expressions that a raw value spells among the same variables have the same outcomes, whatever
types are asked for. -/
theorem Spells.outcome_eq (h : Spells c raw e) (h' : Spells c' raw e') (hscope : c'.scope = c.scope)
    {env : Env N} (henv : env.Fits c.scope) : e'.eval env = e.eval env := by
  induction h generalizing c' e' env with
  | bare harray =>
    rw [h'.eq_literal harray]
    rfl
  | literal =>
    obtain ⟨-, -, rfl⟩ := spells_literal_iff.mp h'
    rfl
  | var => exact h'.eval_var env
  | @letIn c pairs bindings raw result hne hlen hnames hvalues hresult _ ihresult =>
    obtain ⟨-, bindings', result', hlen', hnames', hvalues', hresult', rfl⟩ := spells_letIn_iff.mp h'
    have hbindings : List.Forall₂ (fun b b' : String × Expr N => b'.1 = b.1 ∧
        b'.2.type = b.2.type ∧ b'.2.eval = b.2.eval) bindings bindings' := by
      refine (forall₂_of_getElem? hlen (fun i p b hp hb => And.intro (hnames i p b hp hb)
        (hvalues i p b hp hb)) hlen' fun i p b hp hb => And.intro (hnames' i p b hp hb)
        (hvalues' i p b hp hb)).imp ?_
      rintro b b' ⟨i, p, ⟨⟨hname, -⟩, hvalue⟩, ⟨hname', -⟩, hvalue'⟩
      rw [hname'] at hname
      exact ⟨Json.string.inj hname, hvalue.eq_of_expected hvalue' hscope rfl⟩
    have htypes : Expr.boundTypes bindings' = Expr.boundTypes bindings :=
      (map_eq_map_of_forall₂ hbindings fun b b' h => by rw [h.1, h.2.1]).symm
    rw [Expr.eval_letIn, Expr.eval_letIn, Expr.evalBindings_congr (hbindings.imp fun b b' h =>
      ⟨h.1, congrFun h.2.2 env⟩)]
    cases hbound : Expr.evalBindings bindings env with
    | error failure => rfl
    | ok bound =>
      have hyields : ∀ b ∈ bindings, Yields (fun v => v.Belongs b.2.type) (b.2.eval env) := by
        intro b hb
        obtain ⟨i, p, hp, hb⟩ := exists_getElem?_of_mem hlen hb
        exact (hvalues i p b hp hb).wellTyped.eval_yields henv
      refine ihresult hresult' ?_ (henv.bind ((Expr.evalBindings_yields hyields).of_ok hbound))
      show (Expr.boundTypes bindings').reverse ++ c'.scope = _
      rw [htypes, hscope]
      rfl
  | @coalesce c raws args type hne hlen hargs htype hc ihargs =>
    obtain ⟨-, args', type', hlen', hargs', -, -, rfl⟩ := spells_coalesce_iff.mp h'
    rw [Expr.eval_coalesce, Expr.eval_coalesce]
    refine congrArg MapStyle.coalesce (map_eq_map_of_forall₂
      (forall₂_of_getElem? hlen' hargs' hlen ihargs) ?_)
    rintro a' a ⟨i, raw, ha', ih⟩
    exact ih ha' hscope henv
  | @conditional c pairs branches raw otherwise type hne hlen htests houtputs hotherwise htype hc
      ihtests ihoutputs ihotherwise =>
    obtain ⟨-, branches', otherwise', type', hlen', htests', houtputs', hotherwise', -, -, rfl⟩ :=
      spells_conditional_iff.mp h'
    have hbranches := forall₂_of_getElem? hlen'
      (fun i p b hp hb => And.intro (htests' i p b hp hb) (houtputs' i p b hp hb)) hlen
      fun i p b hp hb => And.intro (@ihtests i p b hp hb) (@ihoutputs i p b hp hb)
    rw [Expr.eval_conditional, Expr.eval_conditional, ihotherwise hotherwise' hscope henv]
    refine congrArg (firstTrue · _) (map_eq_map_of_forall₂ hbranches ?_)
    rintro b' b ⟨i, p, ⟨htest', houtput'⟩, ihtest, ihoutput⟩
    exact Prod.ext (ihtest htest' hscope henv) (ihoutput houtput' hscope henv)
  | @matching c pairs branches rawInput raw input otherwise type hne hlen hlabels hdistinct houtputs
      hinput hotherwise htype hc ihoutputs ihinput ihotherwise =>
    obtain ⟨-, input', branches', otherwise', type', hlen', hlabels', -, houtputs', hinput',
      hotherwise', -, -, rfl⟩ := spells_matching_iff.mp h'
    have hbranches := forall₂_of_getElem? hlen'
      (fun i p b hp hb => And.intro (hlabels' i p b hp hb) (houtputs' i p b hp hb)) hlen
      fun i p b hp hb => And.intro (hlabels i p b hp hb) (@ihoutputs i p b hp hb)
    rw [Expr.eval_matching, Expr.eval_matching, ihinput hinput' hscope henv,
      ihotherwise hotherwise' hscope henv]
    refine congrArg (Except.bind _) (funext fun v => congrArg (byLabel v · _)
      (map_eq_map_of_forall₂ hbranches ?_))
    rintro b' b ⟨i, p, ⟨hlabels', houtput'⟩, hlabels, ihoutput⟩
    exact Prod.ext (hlabels'.unique hlabels) (ihoutput houtput' hscope henv)
  | @curve c pairs stops rawKind rawInput kind input type hne hlen hkind hinput hstops hascending
      houtputs htype hblend hc ihinput ihoutputs =>
    have hcurve : Spells c (.call "curve" (rawKind :: rawInput :: alternate pairs))
        (.curve c.key type kind input stops) :=
      .curve hne hlen hkind hinput hstops hascending houtputs htype hblend hc
    have hwell' := h'.wellTyped
    obtain ⟨-, kind', input', stops', type', hlen', hkind', hinput', hstops', -, houtputs', -,
      hblend', -, rfl⟩ := spells_curve_iff.mp h'
    rw [hkind] at hkind'
    cases hkind'
    have hstopped := forall₂_of_getElem? hlen'
      (fun i p s hp hs => And.intro (hstops' i p s hp hs) (houtputs' i p s hp hs)) hlen
      fun i p s hp hs => And.intro (hstops i p s hp hs) (@ihoutputs i p s hp hs)
    have hinputs : stops'.map (·.1) = stops.map (·.1) := by
      refine map_eq_map_of_forall₂ hstopped ?_
      rintro s' s ⟨i, p, ⟨hs', -⟩, hs, -⟩
      rw [hs] at hs'
      exact (Option.some.inj hs').symm
    have heval : stops'.map (·.2.eval env) = stops.map (·.2.eval env) := by
      refine map_eq_map_of_forall₂ hstopped ?_
      rintro s' s ⟨i, p, ⟨-, houtput'⟩, -, ihoutput⟩
      exact ihoutput houtput' hscope henv
    rw [Expr.eval_curve, Expr.eval_curve, ihinput hinput' hscope henv, hinputs, heval]
    refine congrArg (Except.bind _) (funext fun v => ?_)
    refine Curve.evaluate_eq_of_belongs hblend' hblend _ (fun w hw => ⟨?_, ?_⟩) v
    · rw [← heval] at hw
      exact hwell'.belongs_of_curve (hscope ▸ henv) hw
    · exact hcurve.wellTyped.belongs_of_curve henv hw
  | @arrayOf c raws item length raw input hcheck hinput hc ihinput =>
    obtain ⟨item', length', input', hcheck', hinput', -, rfl⟩ := spells_arrayOf_iff.mp h'
    rw [hcheck] at hcheck'
    cases hcheck'
    rw [Expr.eval_arrayOf, Expr.eval_arrayOf, ihinput hinput' hscope henv]
  | @apply c op raws args type hlen hargs htype hc ihargs =>
    obtain ⟨args', type', hlen', hargs', -, -, rfl⟩ := spells_operator_iff.mp h'
    rw [Expr.eval_apply, Expr.eval_apply]
    refine congrArg (op.run env) (map_eq_map_of_forall₂
      (forall₂_of_getElem? hlen' hargs' hlen ihargs) ?_)
    rintro a' a ⟨i, raw, ha', ih⟩
    exact ih ha' hscope henv

end Parse

end MapStyle
