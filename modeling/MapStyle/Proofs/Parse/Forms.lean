import MapStyle.Proofs.Operator.Matching
import MapStyle.Proofs.Parse.Arguments

/-!
# What the other forms make of their arguments

For literals, variables, `let`, array checks and operators: `…_result_iff` gives the expression that
comes from arguments, in terms of what the arguments give. An expression passes `Context.expect` when
its type is accepted.
-/

namespace MapStyle

variable {N : Type}

namespace Context

theorem expect_result_iff {c : Context} {e e' : Expr N} :
    (c.expect e).result = some e' ↔ e = e' ∧ c.Accepts e'.type := by
  unfold expect Accepts
  cases c.expected with
  | none => simp
  | some expected =>
    by_cases h : e.type ≤ expected
    · simp only [h, if_true, Checked.pure_result, Option.some_inj]
      constructor
      · rintro rfl
        refine ⟨rfl, ?_⟩
        rintro _ ⟨⟩
        exact h
      · exact fun hc => hc.1
    · simp only [h, if_false, Context.fail, Checked.fail_result]
      constructor
      · intro hc
        cases hc
      · rintro ⟨rfl, hc⟩
        exact absurd (hc expected rfl) h

theorem bind_expect_result_iff {c : Context} {a : Checked N (Expr N)} {e : Expr N} :
    (a >>= c.expect).result = some e ↔ a.result = some e ∧ c.Accepts e.type := by
  rw [Checked.bind_result_eq_some]
  constructor
  · rintro ⟨e', ha, he⟩
    obtain ⟨rfl, hc⟩ := expect_result_iff.mp he
    exact ⟨ha, hc⟩
  · exact fun ⟨ha, hc⟩ => ⟨e, ha, expect_result_iff.mpr ⟨rfl, hc⟩⟩

end Context

namespace Parse

/-! ## Leaves -/

section

variable [Scalar N] {c : Context} {e : Expr N}

theorem literal_result_iff {args : List (Json N)} :
    (literal c args).result = some e ↔ ∃ raw, args = [raw] ∧ raw.isSafe = true ∧
      e = .literal c.key (literalType (.ofJson raw) c.expected) (.ofJson raw) := by
  cases args with
  | nil => simp [literal, Context.fail]
  | cons raw rest =>
    cases rest with
    | cons => simp [literal, Context.fail]
    | nil =>
      unfold literal
      by_cases hsafe : raw.isSafe = true
      · simp only [hsafe, if_true, Checked.pure_result, Option.some_inj]
        constructor
        · rintro rfl
          exact ⟨raw, rfl, hsafe, rfl⟩
        · rintro ⟨_, ⟨⟩, -, rfl⟩
          rfl
      · simp only [hsafe, Bool.false_eq_true, if_false, Context.fail, Checked.fail_result]
        constructor
        · intro h
          cases h
        · rintro ⟨_, ⟨⟩, h, -⟩
          exact absurd h hsafe

omit [Scalar N] in
theorem var_result_iff {args : List (Json N)} :
    (var c args).result = some e ↔
      ∃ name type, args = [.string name] ∧ c.lookup name = some type ∧ e = .var c.key type name := by
  unfold var
  split
  · next name =>
    cases hlookup : c.lookup name with
    | none => simp [Context.failAt, hlookup]
    | some type => simp [hlookup, eq_comm]
  · next hshape =>
    simp only [Context.fail, Checked.fail_result]
    constructor
    · intro h
      cases h
    · rintro ⟨name, type, rfl, -, -⟩
      exact (hshape name rfl).elim

end

/-! ## Let -/

section

variable {c : Context} {e : Expr N}

theorem binding_result_iff {i : Nat} {name value : Argument N} {b : String × Expr N} :
    (binding c i name value).result = some b ↔ (name.raw = .string b.1 ∧ isVariableName b.1 = true) ∧
      (value.parse (c.child (i + 1) none)).result = some b.2 := by
  obtain ⟨s, bound⟩ := b
  unfold binding
  split
  · next s' hname =>
    rw [hname]
    by_cases hvar : isVariableName s' = true
    · rw [if_pos hvar, Checked.map_result_eq_some]
      constructor
      · rintro ⟨_, hvalue, ⟨⟩⟩
        exact ⟨⟨rfl, hvar⟩, hvalue⟩
      · rintro ⟨⟨⟨⟩, -⟩, hvalue⟩
        exact ⟨bound, hvalue, rfl⟩
    · rw [if_neg hvar]
      constructor
      · intro h
        cases h
      · rintro ⟨⟨⟨⟩, h⟩, -⟩
        exact absurd h hvar
  · next hname =>
    constructor
    · intro h
      cases h
    · rintro ⟨⟨h, -⟩, -⟩
      exact absurd h (hname s)

theorem letIn_shape {args : List (Argument N)} (h : (letIn c args).result = some e) :
    ∃ pairs last, pairs ≠ [] ∧ args = alternate pairs ++ [last] := by
  unfold letIn at h
  split at h
  · cases h
  · split at h
    · cases h
    · exact exists_alternate_last _ ‹_› ‹_›

theorem letIn_result_iff {pairs : List (Argument N × Argument N)} {last : Argument N}
    (hne : pairs ≠ []) :
    (letIn c (alternate pairs ++ [last])).result = some e ↔
      ∃ bindings result, bindings.length = pairs.length ∧
        (∀ (i : Nat) p b, pairs[i]? = some p → bindings[i]? = some b →
          (p.1.raw = .string b.1 ∧ isVariableName b.1 = true) ∧
            (p.2.parse (c.child (2 * i + 2) none)).result = some b.2) ∧
        (last.parse (c.childWith (2 * pairs.length + 1) c.expected
          (Expr.boundTypes bindings))).result = some result ∧
        e = .letIn c.key bindings result := by
  have hpos : 0 < pairs.length := List.length_pos_iff.mpr hne
  have hlen : (alternate pairs ++ [last]).length = 2 * pairs.length + 1 := by
    rw [List.length_append, length_alternate, List.length_singleton]
  unfold letIn
  rw [hlen, if_neg (by omega), if_neg (by omega), List.getLast?_concat, List.dropLast_concat]
  simp only [Checked.bind_result_eq_some, Checked.collect_map_result_iff, length_pairsFrom,
    Checked.pure_result, Option.some_inj]
  constructor
  · rintro ⟨bindings, ⟨hbound, hitems⟩, result, hresult, rfl⟩
    refine ⟨bindings, result, hbound, fun i p b hp hb => ?_, hresult, rfl⟩
    have := binding_result_iff.mp (forall_pairsFrom.mp hitems i p b hp hb)
    rwa [show 1 + 2 * i + 1 = 2 * i + 2 by omega] at this
  · rintro ⟨bindings, result, hbound, hitems, hresult, rfl⟩
    refine ⟨bindings, ⟨hbound, forall_pairsFrom.mpr fun i p b hp hb => ?_⟩, result, hresult, rfl⟩
    refine binding_result_iff.mpr ?_
    rw [show 1 + 2 * i + 1 = 2 * i + 2 by omega]
    exact hitems i p b hp hb

end

section

variable {c : Context} {e : Expr N}

/-! ## Array checks -/

theorem arrayOf_result_iff {args : List (Argument N)} :
    (arrayOf c args).result = some e ↔ ∃ checks input item length input',
      args = checks ++ [input] ∧ arrayCheck? (checks.map Argument.raw) = some (item, length) ∧
        (input.parse (c.child (checks.length + 1) (some .value))).result = some input' ∧
        e = .arrayOf c.key item length input' := by
  constructor
  · intro h
    unfold arrayOf at h
    dsimp only at h
    split at h
    · next input =>
      obtain ⟨input', hinput, rfl⟩ := Checked.map_result_eq_some.mp h
      exact ⟨[], input, .value, none, input', rfl, rfl, hinput, rfl⟩
    · next item input =>
      split at h
      · next item' hitem =>
        obtain ⟨input', hinput, rfl⟩ := Checked.map_result_eq_some.mp h
        refine ⟨[item], input, item', none, input', rfl, ?_, hinput, rfl⟩
        show (itemType? item.raw).map (·, none) = _
        rw [hitem]
        rfl
      · cases h
    · next item length input =>
      split at h
      · next item' length' hitem hlength =>
        obtain ⟨input', hinput, rfl⟩ := Checked.map_result_eq_some.mp h
        refine ⟨[item, length], input, item', some length', input', rfl, ?_, hinput, rfl⟩
        show ((itemType? item.raw).bind fun t => length.raw.natural?.map fun n => (t, some n)) = _
        rw [hitem, hlength]
        rfl
      · cases h
      · cases h
    · cases h
  · rintro ⟨checks, input, item, length, input', rfl, hcheck, hinput, rfl⟩
    match checks with
    | [] =>
      cases hcheck
      exact Checked.map_result_eq_some.mpr ⟨input', hinput, rfl⟩
    | [first] =>
      obtain ⟨item', hitem, h⟩ := Option.map_eq_some_iff.mp hcheck
      cases h
      unfold arrayOf
      dsimp only [List.cons_append, List.nil_append]
      rw [hitem]
      exact Checked.map_result_eq_some.mpr ⟨input', hinput, rfl⟩
    | [first, second] =>
      obtain ⟨item', hitem, h⟩ := Option.bind_eq_some_iff.mp hcheck
      obtain ⟨length', hlength, h⟩ := Option.map_eq_some_iff.mp h
      cases h
      unfold arrayOf
      dsimp only [List.cons_append, List.nil_append]
      rw [hitem, hlength]
      exact Checked.map_result_eq_some.mpr ⟨input', hinput, rfl⟩
    | _ :: _ :: _ :: _ => cases hcheck

/-! ## Operators -/

theorem operands_result_iff {op : Operator} {args : List (Argument N)} {es : List (Expr N)} :
    (Checked.collect ((args.zipIdx 1).map fun (arg, i) =>
      arg.parse (c.child i (op.signature.argumentType? (i - 1))))).result = some es ↔
        es.length = args.length ∧ ∀ (i : Nat) a e, args[i]? = some a → es[i]? = some e →
          (a.parse (c.child (i + 1) (op.signature.argumentType? i))).result = some e := by
  rw [Checked.collect_map_result_iff, List.length_zipIdx]
  refine and_congr_right fun _ => forall_congr' fun i => ?_
  simp only [List.getElem?_zipIdx, Option.map_eq_some_iff, Nat.add_comm 1 i]
  constructor
  · exact fun h a e ha he => h _ e ⟨a, ha, rfl⟩ he
  · rintro h _ e ⟨a, ha, rfl⟩ he
    exact h a e ha he

theorem application_result_iff {op : Operator} {args : List (Argument N)} :
    (application c op args).result = some e ↔ ∃ es type, es.length = args.length ∧
      (∀ (i : Nat) a e, args[i]? = some a → es[i]? = some e →
        (a.parse (c.child (i + 1) (op.signature.argumentType? i))).result = some e) ∧
      op.signature.resolve? (es.map Expr.type) = some type ∧ e = .apply c.key type op es := by
  unfold application
  dsimp only
  split
  · next arity harity =>
    obtain ⟨harity, hne⟩ := Option.filter_eq_some_iff.mp harity
    constructor
    · rintro ⟨⟩
    · rintro ⟨es, type, hcount, -, htype, rfl⟩
      have := Signature.length_of_arity? harity htype
      rw [List.length_map, hcount] at this
      simp [this] at hne
  · simp only [Checked.bind_result_eq_some, operands_result_iff]
    constructor
    · rintro ⟨es, ⟨hcount, hes⟩, he⟩
      split at he
      · next type htype =>
        cases he
        exact ⟨es, type, hcount, hes, htype, rfl⟩
      · cases he
    · rintro ⟨es, type, hcount, hes, htype, rfl⟩
      refine ⟨es, ⟨hcount, hes⟩, ?_⟩
      rw [htype]
      rfl

/-- The names of the forms, which are not operators. -/
def formNames : List String :=
  ["literal", "var", "let", "coalesce", "case", "match", "curve", "array"]

theorem symbol_not_mem_formNames (op : Operator) : op.symbol ∉ formNames := by
  have hall : ∀ op ∈ Operator.all, op.symbol ∉ formNames := by decide
  exact hall op (Operator.mem_all op)

theorem named_symbol [Scalar N] (op : Operator) (args : List (Argument N)) :
    named c op.symbol args = application c op args := by
  have hform := symbol_not_mem_formNames op
  unfold named
  split
  case h_9 => rw [Operator.ofSymbol?_symbol]
  all_goals
    rename_i hname
    exact absurd (by rw [hname]; decide) hform

end

end Parse

end MapStyle
