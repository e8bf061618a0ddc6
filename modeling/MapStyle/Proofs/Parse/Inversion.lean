import MapStyle.Proofs.Parse.Correctness
import MapStyle.Proofs.Parse.Position

/-!
# What a call spells

A raw value spells at most one expression in a context (`Spells.unique`), and the name of a call
tells which rule applies: `spells_operator_iff` for the operators, `spells_coalesce_iff` and its like
for the forms. The calls that are met most are put together from their parts (`Spells.unary`,
`Spells.binary`, `Spells.coalesce_of_expected`, `Spells.curveOverZoom`). At another place the same raw
value spells an expression with the same type and value (`Spells.atKey`, `Spells.eval_eq`).
-/

namespace MapStyle

variable {N : Type} [Scalar N]

theorem Context.outputHint_eq {c : Context} {t : Ty} (h : c.expected = some t) (ht : t ≠ .value) :
    c.outputHint = some t := by
  unfold outputHint
  rw [h, Option.filter_some, if_pos (bne_iff_ne.mpr ht)]

/-- The type asked for is accepted. -/
theorem Context.accepts_expected {c : Context} {t : Ty} (h : c.expected = some t) : c.Accepts t := by
  intro expected hexpected
  rw [h] at hexpected
  cases hexpected
  exact Ty.le_refl t

/-- Where any value will do, every type is accepted. -/
theorem Context.accepts_value {c : Context} (h : c.expected = some .value) (type : Ty) :
    c.Accepts type := by
  intro expected hexpected
  rw [h] at hexpected
  cases hexpected
  exact Ty.le_value type

namespace Parse

omit [Scalar N] in
/-- Outputs share the type asked for, unless that is `value`. -/
theorem settle_outputHint {c : Context} {t : Ty} (h : c.expected = some t) (ht : t ≠ .value)
    (outputs : List (Expr N)) : settle c.outputHint outputs = some t := by
  rw [Context.outputHint_eq h ht, settle_some]

theorem Spells.unique {c : Context} {raw : Json N} {e e' : Expr N} (h : Spells c raw e)
    (h' : Spells c raw e') : e = e' := by
  rw [← Expr.parser_result_iff] at h h'
  rw [h] at h'
  exact Option.some.inj h'

/-! ## Calls by name -/

omit [Scalar N] in
theorem symbol_ne_formName {op : Operator} {name : String} {raws raws' : List (Json N)}
    (hname : name ∈ formNames) : Json.call op.symbol raws ≠ .call name raws' := by
  intro h
  obtain ⟨hhead, -⟩ := List.cons.inj (Json.array.inj h)
  rw [← Json.string.inj hhead] at hname
  exact symbol_not_mem_formNames op hname

omit [Scalar N] in
theorem call_ne_call {name name' : String} {raws raws' : List (Json N)} (h : name ≠ name') :
    Json.call name raws ≠ .call name' raws' := fun hcall =>
  h (Json.string.inj (List.cons.inj (Json.array.inj hcall)).1)

theorem spells_operator_iff {c : Context} {op : Operator} {raws : List (Json N)} {e : Expr N} :
    Spells c (.call op.symbol raws) e ↔ ∃ args type, args.length = raws.length ∧
      (∀ (i : Nat) raw arg, raws[i]? = some raw → args[i]? = some arg →
        Spells (c.child (i + 1) (op.signature.argumentType? i)) raw arg) ∧
      op.signature.resolve? (args.map Expr.type) = some type ∧ c.Accepts type ∧
      e = .apply c.key type op args := by
  constructor
  · intro h
    generalize hcall : Json.call op.symbol raws = raw at h
    cases h with
    | bare harray => rw [← hcall] at harray; cases harray
    | apply hlen hargs htype hc =>
      obtain ⟨hhead, rfl⟩ := List.cons.inj (Json.array.inj hcall)
      have hop := congrArg Operator.ofSymbol? (Json.string.inj hhead)
      rw [Operator.ofSymbol?_symbol, Operator.ofSymbol?_symbol] at hop
      cases hop
      exact ⟨_, _, hlen, hargs, htype, hc, rfl⟩
    | _ => exact absurd hcall (symbol_ne_formName (by decide))
  · rintro ⟨args, type, hlen, hargs, htype, hc, rfl⟩
    exact .apply hlen hargs htype hc

theorem Spells.nullary {c : Context} (op : Operator) {type : Ty}
    (htype : op.signature.resolve? [] = some type) (hc : c.Accepts type) :
    Spells (N := N) c (.call op.symbol []) (.apply c.key type op []) :=
  .apply rfl nofun htype hc

/-- A call with one argument that suits the operator is spelled by its argument. -/
theorem Spells.unary {c : Context} (op : Operator) {raw : Json N} {arg : Expr N} {type : Ty}
    (harg : Spells (c.child 1 (op.signature.argumentType? 0)) raw arg)
    (htype : op.signature.resolve? [arg.type] = some type) (hc : c.Accepts type) :
    Spells c (.call op.symbol [raw]) (.apply c.key type op [arg]) :=
  .apply rfl (forall_getElem?_cons.mpr ⟨harg, nofun⟩) htype hc

/-- A call with two arguments that suit the operator is spelled by them. -/
theorem Spells.binary {c : Context} (op : Operator) {raw raw' : Json N} {arg arg' : Expr N} {type : Ty}
    (harg : Spells (c.child 1 (op.signature.argumentType? 0)) raw arg)
    (harg' : Spells (c.child 2 (op.signature.argumentType? 1)) raw' arg')
    (htype : op.signature.resolve? [arg.type, arg'.type] = some type) (hc : c.Accepts type) :
    Spells c (.call op.symbol [raw, raw']) (.apply c.key type op [arg, arg']) :=
  .apply rfl
    (forall_getElem?_cons.mpr ⟨harg, forall_getElem?_cons.mpr ⟨harg', nofun⟩⟩) htype hc

/-- A curve over the zoom from one stop to another is spelled by their outputs. -/
theorem Spells.curveOverZoom {c : Context} {rawKind first last raw raw' : Json N}
    {kind : Interpolation N} {x y : N} {e e' : Expr N} {type : Ty}
    (hkind : readInterpolation rawKind = .ok kind) (hfirst : first.number? = some x)
    (hlast : last.number? = some y) (hascending : Scalar.atMost y x = false)
    (he : Spells (c.child 4 c.outputHint) raw e)
    (he' : Spells (c.child 6 (settle c.outputHint [e])) raw' e')
    (htype : (settle c.outputHint [e, e']).getD .error = type)
    (hblend : kind.isStep = true ∨ Curve.OutputKind.ofType type ≠ .discrete) (hc : c.Accepts type) :
    Spells c (.call "curve" [rawKind, .call "zoom" [], first, raw, last, raw'])
      (.curve c.key type kind (.apply (c.key ++ [2]) .number .zoom []) [(x, e), (y, e')]) := by
  have hpairs : Json.call "curve" [rawKind, .call "zoom" [], first, raw, last, raw'] =
      .call "curve" (rawKind :: .call "zoom" [] :: alternate [(first, raw), (last, raw')]) := rfl
  rw [hpairs]
  exact .curve (List.cons_ne_nil _ _) rfl hkind
    (.nullary .zoom rfl (Context.accepts_expected rfl))
    (forall_getElem?_cons.mpr ⟨hfirst, forall_getElem?_cons.mpr ⟨hlast, nofun⟩⟩)
    (.cons_cons hascending (.singleton _))
    (forall_getElem?_cons.mpr ⟨he, forall_getElem?_cons.mpr ⟨he', nofun⟩⟩) htype hblend hc

theorem spells_coalesce_iff {c : Context} {raws : List (Json N)} {e : Expr N} :
    Spells c (.call "coalesce" raws) e ↔ raws ≠ [] ∧ ∃ args type, args.length = raws.length ∧
      (∀ (i : Nat) raw arg, raws[i]? = some raw → args[i]? = some arg →
        Spells (c.child (i + 1) (settle c.outputHint (args.take i))) raw arg) ∧
      (settle c.outputHint args).getD .error = type ∧ c.Accepts type ∧
      e = .coalesce c.key type args := by
  constructor
  · intro h
    generalize hcall : Json.call "coalesce" raws = raw at h
    cases h with
    | bare harray => rw [← hcall] at harray; cases harray
    | coalesce hne hlen hargs htype hc =>
      obtain ⟨-, rfl⟩ := List.cons.inj (Json.array.inj hcall)
      exact ⟨hne, _, _, hlen, hargs, htype, hc, rfl⟩
    | apply => exact absurd hcall.symm (symbol_ne_formName (by decide))
    | _ => exact absurd hcall (call_ne_call (by decide))
  · rintro ⟨hne, args, type, hlen, hargs, htype, hc, rfl⟩
    exact .coalesce hne hlen hargs htype hc

/-- Where a type is asked for, the arguments of `coalesce` share it. -/
theorem Spells.coalesce_of_expected {c : Context} {t : Ty} (hexpected : c.expected = some t)
    (ht : t ≠ .value) {raws : List (Json N)} {args : List (Expr N)} (hne : raws ≠ [])
    (hlen : args.length = raws.length)
    (hargs : ∀ (i : Nat) raw arg, raws[i]? = some raw → args[i]? = some arg →
      Spells (c.child (i + 1) (some t)) raw arg) :
    Spells c (.call "coalesce" raws) (.coalesce c.key t args) := by
  have hsettle : ∀ outputs : List (Expr N), settle c.outputHint outputs = some t :=
    settle_outputHint hexpected ht
  refine .coalesce hne hlen (fun i raw arg hraw harg => ?_) ?_ (Context.accepts_expected hexpected)
  · rw [hsettle]
    exact hargs i raw arg hraw harg
  · rw [hsettle]
    rfl

theorem spells_letIn_iff {c : Context} {pairs : List (Json N × Json N)} {raw : Json N}
    {e : Expr N} :
    Spells c (.call "let" (alternate pairs ++ [raw])) e ↔ pairs ≠ [] ∧ ∃ bindings result,
      bindings.length = pairs.length ∧
      (∀ (i : Nat) p (b : String × Expr N), pairs[i]? = some p → bindings[i]? = some b →
        p.1 = .string b.1 ∧ isVariableName b.1 = true) ∧
      (∀ (i : Nat) p b, pairs[i]? = some p → bindings[i]? = some b →
        Spells (c.child (2 * i + 2) none) p.2 b.2) ∧
      Spells (c.childWith (2 * pairs.length + 1) c.expected (Expr.boundTypes bindings))
        raw result ∧
      e = .letIn c.key bindings result := by
  constructor
  · intro h
    generalize hcall : Json.call "let" (alternate pairs ++ [raw]) = called at h
    cases h with
    | bare harray => rw [← hcall] at harray; cases harray
    | letIn hne hlen hnames hvalues hresult =>
      obtain ⟨-, hargs⟩ := List.cons.inj (Json.array.inj hcall)
      obtain ⟨rfl, rfl⟩ := alternate_concat_inj hargs
      exact ⟨hne, _, _, hlen, hnames, hvalues, hresult, rfl⟩
    | apply => exact absurd hcall.symm (symbol_ne_formName (by decide))
    | _ => exact absurd hcall (call_ne_call (by decide))
  · rintro ⟨hne, bindings, result, hlen, hnames, hvalues, hresult, rfl⟩
    exact .letIn hne hlen hnames hvalues hresult

theorem spells_conditional_iff {c : Context} {pairs : List (Json N × Json N)} {raw : Json N}
    {e : Expr N} :
    Spells c (.call "case" (alternate pairs ++ [raw])) e ↔ pairs ≠ [] ∧ ∃ branches otherwise type,
      branches.length = pairs.length ∧
      (∀ (i : Nat) p b, pairs[i]? = some p → branches[i]? = some b →
        Spells (c.child (2 * i + 1) (some .boolean)) p.1 b.1) ∧
      (∀ (i : Nat) p b, pairs[i]? = some p → branches[i]? = some b →
        Spells (c.child (2 * i + 2) (settle c.outputHint ((branches.take i).map (·.2))))
          p.2 b.2) ∧
      Spells (c.child (2 * pairs.length + 1) (settle c.outputHint (branches.map (·.2))))
        raw otherwise ∧
      (settle c.outputHint (branches.map (·.2) ++ [otherwise])).getD .error = type ∧
      c.Accepts type ∧ e = .conditional c.key type branches otherwise := by
  constructor
  · intro h
    generalize hcall : Json.call "case" (alternate pairs ++ [raw]) = called at h
    cases h with
    | bare harray => rw [← hcall] at harray; cases harray
    | conditional hne hlen htests houtputs hotherwise htype hc =>
      obtain ⟨-, hargs⟩ := List.cons.inj (Json.array.inj hcall)
      obtain ⟨rfl, rfl⟩ := alternate_concat_inj hargs
      exact ⟨hne, _, _, _, hlen, htests, houtputs, hotherwise, htype, hc, rfl⟩
    | apply => exact absurd hcall.symm (symbol_ne_formName (by decide))
    | _ => exact absurd hcall (call_ne_call (by decide))
  · rintro ⟨hne, branches, otherwise, type, hlen, htests, houtputs, hotherwise, htype, hc, rfl⟩
    exact .conditional hne hlen htests houtputs hotherwise htype hc

theorem spells_matching_iff {c : Context} {pairs : List (Json N × Json N)} {rawInput raw : Json N}
    {e : Expr N} :
    Spells c (.call "match" (rawInput :: alternate pairs ++ [raw])) e ↔ pairs ≠ [] ∧
      ∃ input branches otherwise type, branches.length = pairs.length ∧
      (∀ (i : Nat) p b, pairs[i]? = some p → branches[i]? = some b → SpellsLabels p.1 b.1) ∧
      Distinct (branches.flatMap (·.1)) ∧
      (∀ (i : Nat) p b, pairs[i]? = some p → branches[i]? = some b →
        Spells (c.child (2 * i + 3) (settle c.outputHint ((branches.take i).map (·.2))))
          p.2 b.2) ∧
      Spells (c.child 1 ((branches.flatMap (·.1)).head?.map Label.type)) rawInput input ∧
      Spells (c.child (2 * pairs.length + 2) (settle c.outputHint (branches.map (·.2))))
        raw otherwise ∧
      (settle c.outputHint (branches.map (·.2) ++ [otherwise])).getD .error = type ∧
      c.Accepts type ∧ e = .matching c.key type input branches otherwise := by
  constructor
  · intro h
    generalize hcall : Json.call "match" (rawInput :: alternate pairs ++ [raw]) = called at h
    cases h with
    | bare harray => rw [← hcall] at harray; cases harray
    | matching hne hlen hlabels hdistinct houtputs hinput hotherwise htype hc =>
      obtain ⟨-, hargs⟩ := List.cons.inj (Json.array.inj hcall)
      obtain ⟨rfl, hrest⟩ := List.cons.inj hargs
      obtain ⟨rfl, rfl⟩ := alternate_concat_inj hrest
      exact ⟨hne, _, _, _, _, hlen, hlabels, hdistinct, houtputs, hinput, hotherwise, htype, hc,
        rfl⟩
    | apply => exact absurd hcall.symm (symbol_ne_formName (by decide))
    | _ => exact absurd hcall (call_ne_call (by decide))
  · rintro ⟨hne, input, branches, otherwise, type, hlen, hlabels, hdistinct, houtputs, hinput,
      hotherwise, htype, hc, rfl⟩
    exact .matching hne hlen hlabels hdistinct houtputs hinput hotherwise htype hc

theorem spells_curve_iff {c : Context} {pairs : List (Json N × Json N)} {rawKind rawInput : Json N}
    {e : Expr N} :
    Spells c (.call "curve" (rawKind :: rawInput :: alternate pairs)) e ↔ pairs ≠ [] ∧
      ∃ kind input stops type, stops.length = pairs.length ∧
      readInterpolation rawKind = .ok kind ∧
      Spells (c.child 2 (some .number)) rawInput input ∧
      (∀ (i : Nat) p (s : N × Expr N), pairs[i]? = some p → stops[i]? = some s →
        p.1.number? = some s.1) ∧
      (stops.map (·.1)).IsChain (fun x y => Scalar.atMost y x = false) ∧
      (∀ (i : Nat) p s, pairs[i]? = some p → stops[i]? = some s →
        Spells (c.child (2 * i + 4) (settle c.outputHint ((stops.take i).map (·.2)))) p.2 s.2) ∧
      (settle c.outputHint (stops.map (·.2))).getD .error = type ∧
      (kind.isStep = true ∨ Curve.OutputKind.ofType type ≠ .discrete) ∧
      c.Accepts type ∧ e = .curve c.key type kind input stops := by
  constructor
  · intro h
    generalize hcall : Json.call "curve" (rawKind :: rawInput :: alternate pairs) = called at h
    cases h with
    | bare harray => rw [← hcall] at harray; cases harray
    | curve hne hlen hkind hinput hstops hascending houtputs htype hblend hc =>
      obtain ⟨-, hargs⟩ := List.cons.inj (Json.array.inj hcall)
      obtain ⟨rfl, hrest⟩ := List.cons.inj hargs
      obtain ⟨rfl, hpairs⟩ := List.cons.inj hrest
      obtain rfl := alternate_inj hpairs
      exact ⟨hne, _, _, _, _, hlen, hkind, hinput, hstops, hascending, houtputs, htype, hblend, hc,
        rfl⟩
    | apply => exact absurd hcall.symm (symbol_ne_formName (by decide))
    | _ => exact absurd hcall (call_ne_call (by decide))
  · rintro ⟨hne, kind, input, stops, type, hlen, hkind, hinput, hstops, hascending, houtputs,
      htype, hblend, hc, rfl⟩
    exact .curve hne hlen hkind hinput hstops hascending houtputs htype hblend hc

theorem spells_arrayOf_iff {c : Context} {raws : List (Json N)} {raw : Json N} {e : Expr N} :
    Spells c (.call "array" (raws ++ [raw])) e ↔ ∃ item length input,
      arrayCheck? raws = some (item, length) ∧
      Spells (c.child (raws.length + 1) (some .value)) raw input ∧ c.Accepts (.array item length) ∧
      e = .arrayOf c.key item length input := by
  constructor
  · intro h
    generalize hcall : Json.call "array" (raws ++ [raw]) = called at h
    cases h with
    | bare harray => rw [← hcall] at harray; cases harray
    | arrayOf hcheck hinput hc =>
      obtain ⟨-, hargs⟩ := List.cons.inj (Json.array.inj hcall)
      obtain ⟨rfl, hraw⟩ := List.append_inj' hargs rfl
      obtain rfl := List.singleton_inj.mp hraw
      exact ⟨_, _, _, hcheck, hinput, hc, rfl⟩
    | apply => exact absurd hcall.symm (symbol_ne_formName (by decide))
    | _ => exact absurd hcall (call_ne_call (by decide))
  · rintro ⟨item, length, input, hcheck, hinput, hc, rfl⟩
    exact .arrayOf hcheck hinput hc

/-- What is no array is a literal, if it is an expression. -/
theorem Spells.eq_literal {c : Context} {raw : Json N} {e : Expr N} (harray : raw.isArray = false)
    (h : Spells c raw e) : e = .literal c.key (literalType (.ofJson raw) c.expected) (.ofJson raw) := by
  cases h with
  | bare => rfl
  | _ => cases harray

theorem spells_literal_iff {c : Context} {raw : Json N} {e : Expr N} :
    Spells c (.call "literal" [raw]) e ↔ raw.isSafe = true ∧
      c.Accepts (literalType (.ofJson raw) c.expected) ∧
      e = .literal c.key (literalType (.ofJson raw) c.expected) (.ofJson raw) := by
  constructor
  · intro h
    generalize hcall : Json.call "literal" [raw] = called at h
    cases h with
    | bare harray => rw [← hcall] at harray; cases harray
    | literal hsafe hc =>
      obtain ⟨-, hargs⟩ := List.cons.inj (Json.array.inj hcall)
      obtain ⟨rfl, -⟩ := List.cons.inj hargs
      exact ⟨hsafe, hc, rfl⟩
    | apply => exact absurd hcall.symm (symbol_ne_formName (by decide))
    | _ => exact absurd hcall (call_ne_call (by decide))
  · rintro ⟨hsafe, hc, rfl⟩
    exact .literal hsafe hc

theorem spells_boolean_iff {c : Context} {b : Bool} {e : Expr N} :
    Spells c (.boolean b) e ↔ c.Accepts .boolean ∧ e = .literal c.key .boolean (.boolean b) := by
  constructor
  · intro h
    cases h with
    | bare _ _ _ hc => exact ⟨hc, rfl⟩
  · rintro ⟨hc, rfl⟩
    exact .bare rfl rfl rfl hc

/-! ## Places -/

variable {c : Context} {raw : Json N} {e e' : Expr N}

/-- What a raw value spells at one place it spells at every other. -/
theorem Spells.atKey (h : Spells c raw e) (key : Path) :
    Spells { c with key := key } raw (e.rekey fun p => key ++ p.drop c.key.length) := by
  have hmoves : Moves (fun p => key ++ p.drop c.key.length) c.key := by
    intro rest
    dsimp only
    rw [List.drop_left, List.drop_length, List.append_nil]
  have hspells := h.rekey hmoves
  unfold Context.rekey at hspells
  dsimp only at hspells
  rwa [List.drop_length, List.append_nil] at hspells

theorem Spells.eval_eq {key : Path} (h : Spells c raw e)
    (h' : Spells { c with key := key } raw e') : e'.eval = e.eval := by
  rw [h'.unique (h.atKey key), Expr.eval_rekey]

end Parse

end MapStyle
