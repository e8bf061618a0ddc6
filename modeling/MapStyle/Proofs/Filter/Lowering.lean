import MapStyle.Proofs.Filter.Boolean

/-!
# Lowered filters answer

`Filter.total_lower`: the expression that a legacy filter stands for is, where it is parsed as a
boolean, true or false for every feature. Each comparison, membership and presence test falls back on
an answer, and the connectives keep it.
-/

namespace MapStyle

variable {N : Type} [Scalar N]

/-- Whether an expression is true or false for every feature. -/
def Expr.Answers (e : Expr N) : Prop :=
  ∀ zoom feature, ∃ b, e.eval ⟨zoom, feature, []⟩ = .ok (.boolean b)

namespace Filter

open Parse

/-- Whether what a raw value spells as a boolean, if anything, has an answer. -/
def Total (raw : Json N) : Prop := ∀ key e, Spells (.test key) raw e → e.Answers

/-! ## Forms of filters -/

/-- The value of a boolean expression, if it has one, is a boolean. -/
theorem eq_boolean_of_spells {key : Path} {raw : Json N} {e : Expr N} (h : Spells (.test key) raw e)
    {zoom : Option N} {feature : Feature N} {v : Value N}
    (hv : e.eval ⟨zoom, feature, []⟩ = .ok v) : ∃ b, v = .boolean b := by
  have hbelongs := (h.wellTyped.eval_yields (Env.fits_nil _)).of_ok hv
  exact hbelongs.mono (accepts_test_iff.mp h.accepts)

theorem total_boolean (b : Bool) : Total (.boolean b : Json N) := by
  intro key e h
  obtain ⟨-, rfl⟩ := spells_boolean_iff.mp h
  exact fun zoom feature => ⟨b, rfl⟩

/-- A fallback gives every boolean expression an answer. -/
theorem total_orElse (raw : Json N) (b : Bool) : Total (orElse raw b) := by
  intro key e h zoom feature
  obtain ⟨test, htest, rfl⟩ := spells_orElse_iff.mp h
  rw [Expr.eval_fallback]
  cases hv : test.eval ⟨zoom, feature, []⟩ with
  | error failure => exact ⟨b, rfl⟩
  | ok v =>
    obtain ⟨b', rfl⟩ := eq_boolean_of_spells htest hv
    exact ⟨b', rfl⟩

theorem total_negate {raw : Json N} (h : Total raw) : Total (negate raw) := by
  intro key e he zoom feature
  obtain ⟨arg, harg, rfl⟩ := spells_negate_iff.mp he
  obtain ⟨b, hb⟩ := h _ _ harg zoom feature
  exact ⟨!b, Expr.eval_not hb⟩

theorem exists_answers {args : List (Expr N)} (h : ∀ arg ∈ args, arg.Answers) (zoom : Option N)
    (feature : Feature N) :
    ∃ bs, List.Forall₂ (fun arg b => arg.eval ⟨zoom, feature, []⟩ = .ok (.boolean b)) args bs := by
  induction args with
  | nil => exact ⟨[], .nil⟩
  | cons arg rest ih =>
    rw [List.forall_mem_cons] at h
    obtain ⟨b, hb⟩ := h.1 zoom feature
    obtain ⟨bs, hbs⟩ := ih h.2
    exact ⟨b :: bs, .cons hb hbs⟩

/-- The arguments of a connective have answers. -/
theorem exists_answers_of_spells {op : Operator} {key : Path} {raws : List (Json N)} {e : Expr N}
    (hop : IsConnective op raws.length) (htotal : ∀ raw ∈ raws, Total raw)
    (h : Spells (.test key) (.call op.symbol raws) e) (zoom : Option N) (feature : Feature N) :
    ∃ args bs, e = .apply key .boolean op args ∧
      List.Forall₂ (fun arg b => arg.eval ⟨zoom, feature, []⟩ = .ok (.boolean b)) args bs := by
  obtain ⟨args, hlen, hargs, rfl⟩ := (spells_connective_iff hop).mp h
  have hanswers : ∀ arg ∈ args, arg.Answers := by
    intro arg harg
    obtain ⟨i, raw, hraw, harg⟩ := exists_getElem?_of_mem hlen harg
    exact htotal raw (List.mem_of_getElem? hraw) _ _ (hargs i raw arg hraw harg)
  obtain ⟨bs, hbs⟩ := exists_answers hanswers zoom feature
  exact ⟨args, bs, rfl, hbs⟩

theorem total_shortCircuit (stop : Bool) {raws : List (Json N)} (hne : raws ≠ [])
    (h : ∀ raw ∈ raws, Total raw) : Total (.call (Operator.shortCircuit stop).symbol raws) := by
  intro key e he zoom feature
  obtain ⟨args, bs, rfl, hbs⟩ :=
    exists_answers_of_spells (isConnective_shortCircuit stop hne) h he zoom feature
  exact ⟨_, Expr.eval_shortCircuit stop hbs⟩

theorem total_comparison (op : String) (property value : Json N) :
    Total (comparison op property value) := total_orElse _ _

theorem total_membership (property : Json N) (values : List (Json N)) :
    Total (membership property values) := by
  unfold membership
  split
  · exact total_boolean false
  · exact total_orElse _ _
  · exact total_orElse _ _
  · exact total_orElse _ _

theorem total_presence (property : Json N) : Total (presence property) := by
  unfold presence
  split <;> exact total_orElse _ _

/-! ## All filters -/

omit [Scalar N] in
theorem lowerAll_eq_map (filters : List (Json N)) : lowerAll filters = filters.map lower :=
  eq_map_of_cons rfl (fun _ _ => rfl) filters

mutual

/-- What a legacy filter stands for has an answer. -/
theorem total_lower : ∀ raw : Json N, Total (lower raw)
  | .array [] => total_boolean true
  | .array [head] => by
    cases head with
    | string op => exact total_boolean (op != "any")
    | _ => exact total_boolean true
  | .array (head :: property :: rest) => by
    have hne : lower property :: lowerAll rest ≠ [] := List.cons_ne_nil _ _
    have hparts : ∀ raw ∈ lower property :: lowerAll rest, Total raw :=
      List.forall_mem_cons.mpr ⟨total_lower property, total_lowerAll rest⟩
    cases head with
    | string op =>
      unfold lower
      split
      case h_7 => exact total_shortCircuit true hne hparts
      case h_8 => exact total_shortCircuit false hne hparts
      case h_9 => exact total_negate (total_shortCircuit true hne hparts)
      case h_10 => exact total_membership _ _
      case h_11 => exact total_negate (total_membership _ _)
      case h_12 => exact total_presence _
      case h_13 => exact total_negate (total_presence _)
      case h_14 => exact total_boolean true
      all_goals exact total_comparison _ _ _
    | _ => exact total_boolean true
  | .null | .boolean _ | .integer _ | .real _ | .string _ | .object _ => total_boolean true

theorem total_lowerAll : ∀ filters : List (Json N), ∀ raw ∈ lowerAll filters, Total raw
  | [] => fun _ h => absurd h List.not_mem_nil
  | filter :: rest => List.forall_mem_cons.mpr ⟨total_lower filter, total_lowerAll rest⟩

end

end Filter

end MapStyle
