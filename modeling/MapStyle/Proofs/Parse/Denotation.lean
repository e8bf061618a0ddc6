import MapStyle.Proofs.Expr.Outcomes
import MapStyle.Proofs.Parse.Inversion

/-!
# What raw values denote

`Denotes c raw type values` says that in the context `c` the raw value spells an expression of the type
which has, in every environment, the value that `values` gives, and fails where it gives none. With
which failure is left open, so this suits expressions that stand inside a fallback. There is one lemma
for each form that lowered filters are made of.
-/

namespace MapStyle

variable {N : Type}

theorem toOption_bind {α β : Type} (o : Outcome N α) (f : α → Outcome N β) :
    (o.bind f).toOption = o.toOption.bind fun a => (f a).toOption := by
  cases o <;> rfl

namespace Parse

variable [Scalar N] {c : Context} {raw raw' : Json N} {t t' type : Ty}
  {values values' : Env N → Option (Value N)}

/-- Whether a raw value spells an expression of a type with the given values. -/
def Denotes (c : Context) (raw : Json N) (type : Ty) (values : Env N → Option (Value N)) : Prop :=
  ∃ e, Spells c raw e ∧ e.type = type ∧ ∀ env, (e.eval env).toOption = values env

theorem Denotes.congr (h : Denotes c raw type values) (heq : ∀ env, values env = values' env) :
    Denotes c raw type values' := by
  rwa [← funext heq]

/-! ## Literals -/

omit [Scalar N] in
/-- Only an empty array takes its type from outside. -/
theorem literalType_of_ne_nil {v : Value N} (h : v ≠ .array []) (expected : Option Ty) :
    literalType v expected = v.type := by
  unfold literalType
  split
  · exact absurd rfl h
  · exact absurd rfl h
  · rfl

theorem denotes_bare (harray : raw.isArray = false) (hobject : raw.isObject = false)
    (hsafe : raw.isSafe = true) (hc : c.Accepts (Value.ofJson raw).type) :
    Denotes c raw (Value.ofJson raw).type fun _ => some (.ofJson raw) := by
  have htype : literalType (.ofJson raw) c.expected = (Value.ofJson raw).type := by
    refine literalType_of_ne_nil ?_ _
    cases raw with
    | array => cases harray
    | _ => nofun
  exact ⟨_, .bare harray hobject hsafe (htype.symm ▸ hc), htype, fun env => rfl⟩

theorem denotes_literal (hne : Value.ofJson raw ≠ .array []) (hsafe : raw.isSafe = true)
    (hc : c.Accepts (Value.ofJson raw).type) :
    Denotes c (.call "literal" [raw]) (Value.ofJson raw).type fun _ => some (.ofJson raw) := by
  have htype := literalType_of_ne_nil hne c.expected
  exact ⟨_, .literal hsafe (htype.symm ▸ hc), htype, fun env => rfl⟩

/-! ## Variables -/

theorem denotes_var {name : String} (hlookup : c.lookup name = some type) (hc : c.Accepts type) :
    Denotes (N := N) c (.call "var" [.string name]) type fun env => env.scope.lookup name := by
  refine ⟨_, .var hlookup hc, rfl, fun env => ?_⟩
  show (env.lookup name).toOption = env.scope.lookup name
  unfold Env.lookup
  cases env.scope.lookup name <;> rfl

/-- A result with a variable in scope has a value where the variable has one. -/
theorem Denotes.letIn {name : String} (hname : isVariableName name = true)
    (h : Denotes (c.child 2 none) raw t values)
    (hresult : Denotes (c.childWith 3 c.expected [(name, t)]) raw' type values') :
    Denotes c (.call "let" [.string name, raw, raw']) type fun env =>
      (values env).bind fun v => values' (env.bind [(name, v)]) := by
  obtain ⟨bound, hbound, rfl, hvalue⟩ := h
  obtain ⟨result, hresult, rfl, hvalue'⟩ := hresult
  have hspells : Spells c (.call "let" (alternate [(.string name, raw)] ++ [raw']))
      (.letIn c.key [(name, bound)] result) := by
    refine .letIn (List.cons_ne_nil _ _) rfl (fun i p b hp hb => ?_) (fun i p b hp hb => ?_) hresult
    · cases i with
      | zero =>
        cases hp
        cases hb
        exact ⟨rfl, hname⟩
      | succ i => cases hp
    · cases i with
      | zero =>
        cases hp
        cases hb
        exact hbound
      | succ i => cases hp
  refine ⟨_, hspells, rfl, fun env => ?_⟩
  beta_reduce
  rw [Expr.eval_letIn, ← hvalue env]
  show (((bound.eval env).bind _).bind _).toOption = _
  cases bound.eval env with
  | error failure => rfl
  | ok v => exact hvalue' (env.bind [(name, v)])

/-! ## Operators -/

theorem Denotes.nullary (op : Operator) (hstrict : op.isLazy = false)
    (htype : op.signature.resolve? [] = some type) (hc : c.Accepts type) :
    Denotes (N := N) c (.call op.symbol []) type fun env => (op.apply env []).toOption := by
  refine ⟨_, .nullary op htype hc, rfl, fun env => ?_⟩
  rw [Expr.eval_nullary hstrict]

theorem Denotes.unary (op : Operator) (hstrict : op.isLazy = false)
    (h : Denotes (c.child 1 (op.signature.argumentType? 0)) raw t values)
    (htype : op.signature.resolve? [t] = some type) (hc : c.Accepts type) :
    Denotes c (.call op.symbol [raw]) type fun env =>
      (values env).bind fun v => (op.apply env [v]).toOption := by
  obtain ⟨arg, harg, rfl, hvalue⟩ := h
  refine ⟨_, .unary op harg htype hc, rfl, fun env => ?_⟩
  beta_reduce
  rw [Expr.eval_unary hstrict, ← hvalue env]
  cases arg.eval env <;> rfl

theorem Denotes.binary (op : Operator) (hstrict : op.isLazy = false)
    (h : Denotes (c.child 1 (op.signature.argumentType? 0)) raw t values)
    (h' : Denotes (c.child 2 (op.signature.argumentType? 1)) raw' t' values')
    (htype : op.signature.resolve? [t, t'] = some type) (hc : c.Accepts type) :
    Denotes c (.call op.symbol [raw, raw']) type fun env =>
      (values env).bind fun v => (values' env).bind fun w => (op.apply env [v, w]).toOption := by
  obtain ⟨arg, harg, rfl, hvalue⟩ := h
  obtain ⟨arg', harg', rfl, hvalue'⟩ := h'
  refine ⟨_, .binary op harg harg' htype hc, rfl, fun env => ?_⟩
  beta_reduce
  rw [Expr.eval_binary hstrict, ← hvalue env, ← hvalue' env]
  cases arg.eval env with
  | error failure => rfl
  | ok v => cases arg'.eval env <;> rfl

end Parse

end MapStyle
