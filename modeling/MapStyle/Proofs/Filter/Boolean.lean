import MapStyle.Filter.Legacy
import MapStyle.Proofs.Expr.TypeSoundness
import MapStyle.Proofs.Parse.Inversion

/-!
# Boolean expressions

The expressions that filters are made of, parsed as booleans without variables in scope: the
connectives `!`, `&&` and `||`, and the fallback `Filter.orElse`. For each, what it spells
(`spells_connective_iff`, `spells_orElse_iff`) and its value in terms of the values of its parts.
-/

namespace MapStyle

variable {N : Type} [Scalar N]

/-- The surroundings of a boolean expression without variables. -/
def Context.test (key : Path) : Context := ⟨key, some .boolean, []⟩

namespace Parse

/-! ## Connectives -/

/-- Whether an operator takes `n` booleans to a boolean. -/
structure IsConnective (op : Operator) (n : Nat) : Prop where
  argument (i : Nat) : i < n → op.signature.argumentType? i = some .boolean
  result (types : List Ty) : types.length = n → (∀ t ∈ types, t ≤ .boolean) →
    op.signature.resolve? types = some .boolean

theorem isConnective_not : IsConnective .not 1 where
  argument i hi := by
    obtain rfl : i = 0 := by omega
    rfl
  result types hlen hle := by
    obtain ⟨t, rfl⟩ := List.length_eq_one_iff.mp hlen
    have haccept : (Overload.exactly [.boolean]).accept? [t] = some [] := Overload.unifyAll?_replicate [] hle
    show [Overload.exactly [.boolean]].findSome? _ = _
    rw [List.findSome?_cons, haccept]
    rfl

omit [Scalar N] in
theorem isConnective_shortCircuit (stop : Bool) {raws : List (Json N)} (hne : raws ≠ []) :
    IsConnective (.shortCircuit stop) raws.length where
  argument i hi := by
    rw [Operator.signature_shortCircuit]
    rfl
  result types hlen hle := by
    have haccept : (Overload.variadic .boolean).accept? types = some [] := by
      have hfits : (Overload.variadic .boolean).fits types.length = true := by
        rw [hlen]
        exact decide_eq_true (List.length_pos_iff.mpr hne)
      unfold Overload.accept?
      rw [if_pos hfits]
      exact Overload.unifyAll?_replicate [] hle
    rw [Operator.signature_shortCircuit]
    show [Overload.variadic .boolean].findSome? _ = _
    rw [List.findSome?_cons, haccept]
    rfl

variable {key : Path} {e : Expr N}

theorem accepts_test_iff {type : Ty} : (Context.test key).Accepts type ↔ type ≤ .boolean := by
  constructor
  · exact fun h => h _ rfl
  · intro h expected hexpected
    rwa [← Option.some.inj hexpected]

theorem spells_connective_iff {op : Operator} {raws : List (Json N)}
    (hop : IsConnective op raws.length) :
    Spells (.test key) (.call op.symbol raws) e ↔ ∃ args, args.length = raws.length ∧
      (∀ (i : Nat) raw arg, raws[i]? = some raw → args[i]? = some arg →
        Spells (.test (key ++ [i + 1])) raw arg) ∧ e = .apply key .boolean op args := by
  have hchild : ∀ (i : Nat) raw, raws[i]? = some raw →
      (Context.test key).child (i + 1) (op.signature.argumentType? i) =
        .test (key ++ [i + 1]) := by
    intro i raw hraw
    rw [hop.argument i (List.getElem?_eq_some_iff.mp hraw).1]
    rfl
  have hresult : ∀ args : List (Expr N), args.length = raws.length →
      (∀ (i : Nat) raw arg, raws[i]? = some raw → args[i]? = some arg →
        Spells (.test (key ++ [i + 1])) raw arg) →
      op.signature.resolve? (args.map Expr.type) = some .boolean := by
    intro args hlen hargs
    refine hop.result _ (by rw [List.length_map, hlen]) (List.forall_mem_map.mpr fun arg harg => ?_)
    obtain ⟨i, raw, hraw, harg⟩ := exists_getElem?_of_mem hlen harg
    exact accepts_test_iff.mp (hargs i raw arg hraw harg).accepts
  rw [spells_operator_iff]
  constructor
  · rintro ⟨args, type, hlen, hargs, htype, -, rfl⟩
    have hargs' : ∀ (i : Nat) raw arg, raws[i]? = some raw → args[i]? = some arg →
        Spells (.test (key ++ [i + 1])) raw arg :=
      fun i raw arg hraw harg => hchild i raw hraw ▸ hargs i raw arg hraw harg
    rw [hresult args hlen hargs'] at htype
    cases htype
    exact ⟨args, hlen, hargs', rfl⟩
  · rintro ⟨args, hlen, hargs, rfl⟩
    refine ⟨args, .boolean, hlen, fun i raw arg hraw harg => ?_, hresult args hlen hargs,
      accepts_test_iff.mpr (Ty.le_refl _), rfl⟩
    rw [hchild i raw hraw]
    exact hargs i raw arg hraw harg

theorem exists_spells_connective_iff {op : Operator} {raws : List (Json N)}
    (hop : IsConnective op raws.length) :
    (∃ e, Spells (.test key) (.call op.symbol raws) e) ↔
      ∀ raw ∈ raws, ∃ e, Spells (.test []) raw e := by
  constructor
  · rintro ⟨e, he⟩ raw hraw
    obtain ⟨args, hlen, hargs, -⟩ := (spells_connective_iff hop).mp he
    obtain ⟨i, arg, harg, hraw⟩ := exists_getElem?_of_mem hlen.symm hraw
    exact ⟨_, (hargs i raw arg hraw harg).atKey []⟩
  · intro h
    obtain ⟨args, hlen, hargs⟩ := exists_of_forall_getElem?
      (P := fun i raw arg => Spells (.test (key ++ [i + 1])) raw arg) fun i raw hraw => by
        obtain ⟨e, he⟩ := h raw (List.mem_of_getElem? hraw)
        exact ⟨_, he.atKey (key ++ [i + 1])⟩
    exact ⟨_, (spells_connective_iff hop).mpr ⟨args, hlen, hargs, rfl⟩⟩

/-- A call that is told by its first argument alone is an expression exactly when that is. -/
theorem exists_spells_iff_of_first {raw whole : Json N} {build : Expr N → Expr N}
    (h : ∀ {e}, Spells (.test key) whole e ↔ ∃ test, Spells (.test (key ++ [1])) raw test ∧
      e = build test) :
    (∃ e, Spells (.test key) whole e) ↔ ∃ e, Spells (.test key) raw e := by
  constructor
  · rintro ⟨e, he⟩
    obtain ⟨test, htest, -⟩ := h.mp he
    exact ⟨_, htest.atKey key⟩
  · rintro ⟨e, he⟩
    exact ⟨_, h.mpr ⟨_, he.atKey (key ++ [1]), rfl⟩⟩

theorem spells_negate_iff {raw : Json N} :
    Spells (.test key) (Filter.negate raw) e ↔ ∃ arg, Spells (.test (key ++ [1])) raw arg ∧
      e = .apply key .boolean .not [arg] := by
  have hnegate : Filter.negate raw = .call Operator.not.symbol [raw] := rfl
  rw [hnegate, spells_connective_iff isConnective_not]
  constructor
  · rintro ⟨args, hlen, hargs, rfl⟩
    obtain ⟨arg, rfl⟩ := List.length_eq_one_iff.mp hlen
    exact ⟨arg, hargs 0 raw arg rfl rfl, rfl⟩
  · rintro ⟨arg, harg, rfl⟩
    exact ⟨[arg], rfl, forall_getElem?_cons.mpr ⟨harg, nofun⟩, rfl⟩

theorem exists_spells_negate_iff {raw : Json N} :
    (∃ e, Spells (.test key) (Filter.negate raw) e) ↔ ∃ e, Spells (.test key) raw e :=
  exists_spells_iff_of_first spells_negate_iff

/-! ## Fallbacks -/

theorem spells_orElse_iff {raw : Json N} {b : Bool} :
    Spells (.test key) (Filter.orElse raw b) e ↔ ∃ test, Spells (.test (key ++ [1])) raw test ∧
      e = .coalesce key .boolean [test, .literal (key ++ [2]) .boolean (.boolean b)] := by
  constructor
  · intro h
    obtain ⟨-, args, type, hlen, hargs, rfl, -, rfl⟩ := spells_coalesce_iff.mp h
    obtain ⟨test, fallback, rfl⟩ := List.length_eq_two.mp hlen
    obtain ⟨htest, hrest⟩ := forall_getElem?_cons.mp hargs
    have hfallback : Spells (.test (key ++ [2])) (.boolean b) fallback := hrest 0 _ _ rfl rfl
    obtain ⟨-, rfl⟩ := spells_boolean_iff.mp hfallback
    exact ⟨test, htest, rfl⟩
  · rintro ⟨test, htest, rfl⟩
    have hfallback : Spells (N := N) (.test (key ++ [2])) (.boolean b) (.literal _ _ _) :=
      spells_boolean_iff.mpr ⟨Context.accepts_expected rfl, rfl⟩
    rw [Filter.orElse]
    exact .coalesce_of_expected (t := .boolean) rfl nofun (List.cons_ne_nil _ _) rfl
      (forall_getElem?_cons.mpr ⟨htest, forall_getElem?_cons.mpr ⟨hfallback, nofun⟩⟩)

/-- A boolean expression has a fallback exactly when it is an expression. -/
theorem exists_spells_orElse_iff {raw : Json N} {b : Bool} :
    (∃ e, Spells (.test key) (Filter.orElse raw b) e) ↔ ∃ e, Spells (.test key) raw e :=
  exists_spells_iff_of_first spells_orElse_iff

end Parse

/-! ## Values -/

omit [Scalar N] in
/-- Where all operands have a truth, some is true or all are. -/
theorem stopAt_eq_ok (stop : Bool) {env : Env N} {operands : List (Eval N (Value N))} {bs : List Bool}
    (h : List.Forall₂ (fun o b => o env = .ok (.boolean b)) operands bs) :
    Operator.stopAt stop operands env = .ok (bif stop then bs.any id else bs.all id) := by
  induction h with
  | nil => cases stop <;> rfl
  | @cons operand b rest bs hb _ ih =>
    show (operand env).bind _ = _
    rw [hb]
    show (if b == stop then pure stop else Operator.stopAt stop rest : Eval N Bool) env = _
    cases stop with
    | false => cases b with
      | false => rfl
      | true => exact ih
    | true => cases b with
      | false => exact ih
      | true => rfl

namespace Expr

variable {env : Env N} {key : Path} {type : Ty} {args : List (Expr N)} {bs : List Bool}

theorem forall₂_evalArgs (h : List.Forall₂ (fun arg b => arg.eval env = .ok (.boolean b)) args bs) :
    List.Forall₂ (fun o b => o env = .ok (.boolean b)) (evalArgs args) bs := by
  rw [evalArgs_eq_map]
  exact List.forall₂_map_left_iff.mpr h

theorem eval_shortCircuit (stop : Bool)
    (h : List.Forall₂ (fun arg b => arg.eval env = .ok (.boolean b)) args bs) :
    (apply key type (.shortCircuit stop) args).eval env =
      .ok (.boolean (bif stop then bs.any id else bs.all id)) := by
  show Operator.run _ env (evalArgs args) env = _
  rw [Operator.run_shortCircuit]
  show (Operator.stopAt stop (evalArgs args) env).bind _ = _
  rw [stopAt_eq_ok stop (forall₂_evalArgs h)]
  rfl

theorem eval_not {arg : Expr N} {b : Bool} (h : arg.eval env = .ok (.boolean b)) :
    (apply key type .not [arg]).eval env = .ok (.boolean !b) := by
  show ((arg.eval env).bind _).bind _ = _
  rw [h]
  rfl

/-- A fallback stands in for a failure and for null. -/
theorem eval_fallback {test : Expr N} {fallbackKey : Path} {fallbackType : Ty} {b : Bool} :
    (coalesce key type [test, literal fallbackKey fallbackType (.boolean b)]).eval env =
      match test.eval env with
      | .ok v => if v.isNull then .ok (.boolean b) else .ok v
      | .error _ => .ok (.boolean b) := by
  show MapStyle.coalesce [test.eval, _] env = _
  rw [coalesce_cons_cons]
  rfl

end Expr

end MapStyle
