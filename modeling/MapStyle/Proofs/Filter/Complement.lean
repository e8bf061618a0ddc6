import MapStyle.Proofs.Expr.Outcomes
import MapStyle.Proofs.Filter.Junction

/-!
# Filters and their complements

Four kinds of filters have a positive and a negative form. Three of the negative forms are lowered to the
negation of the positive one. The fourth, `!=`, is lowered to an operator of its own whose fallback is
the opposite one, so that it holds where its operands have no value.

`Opposes` says of two raw values that they are boolean expressions in the same places and have opposite
answers there. It holds of what the two forms stand for in both ways of lowering (`opposes_negate`,
`opposes_comparison`), and so the negative form can be built just where the positive one can, and passes
the other features (`passes_complement`).
-/

namespace MapStyle

variable {N : Type} [Scalar N]

/-! ## Equality and its opposite -/

/-- Of the same arguments, either one of the two operators holds, or an argument fails for both. -/
theorem Expr.eval_equal_or_unequal (key : Path) (type : Ty) (args : List (Expr N)) (env : Env N) :
    (∃ b, (apply key type .equal args).eval env = .ok (.boolean b) ∧
      (apply key type .unequal args).eval env = .ok (.boolean !b)) ∨
    ∃ failure, (apply key type .equal args).eval env = .error failure ∧
      (apply key type .unequal args).eval env = .error failure := by
  rw [eval_apply, eval_apply, Operator.run_eq_apply rfl, Operator.run_eq_apply rfl]
  cases Operator.evalAll (args.map fun arg => (arg.eval env : Outcome N (Value N))) with
  | error failure => exact .inr ⟨failure, rfl, rfl⟩
  | ok operands => exact .inl ⟨_, rfl, rfl⟩

/-- An operator can stand in the place of one with the same signature. -/
theorem Parse.Spells.replaceOperator {c : Context} (op op' : Operator) {raws : List (Json N)}
    {e : Expr N} (hsignature : op'.signature = op.signature) (h : Spells c (.call op.symbol raws) e) :
    ∃ args type, e = .apply c.key type op args ∧
      Spells c (.call op'.symbol raws) (.apply c.key type op' args) := by
  obtain ⟨args, type, hlen, hargs, htype, hc, rfl⟩ := spells_operator_iff.mp h
  refine ⟨args, type, rfl, spells_operator_iff.mpr ⟨args, type, hlen, ?_, ?_, hc, rfl⟩⟩
  · rwa [hsignature]
  · rwa [hsignature]

namespace Filter

open Parse

/-! ## Opposite expressions -/

/-- Whether two raw values are boolean expressions in the same places, with opposite answers. -/
structure Opposes (raw raw' : Json N) : Prop where
  exists_iff (key : Path) : (∃ e, Spells (.test key) raw e) ↔ ∃ e, Spells (.test key) raw' e
  eval_eq {key : Path} {e e' : Expr N} (he : Spells (.test key) raw e)
    (he' : Spells (.test key) raw' e') {env : Env N} {b : Bool} (h : e.eval env = .ok (.boolean b)) :
    e'.eval env = .ok (.boolean !b)

theorem opposes_negate (raw : Json N) : Opposes raw (negate raw) where
  exists_iff _ := exists_spells_negate_iff.symm
  eval_eq := by
    intro key e e' he he' env b h
    obtain ⟨arg, harg, rfl⟩ := spells_negate_iff.mp he'
    refine Expr.eval_not ?_
    rw [he.eval_eq harg, h]

/-- What a comparison compares. -/
def sides (property value : Json N) : List (Json N) :=
  match value with
  | .null => [.call "typeof" [reference property none], .string "Null"]
  | value => [reference property (kindOf value), value]

omit [Scalar N] in
theorem comparison_eq (symbol : String) (property value : Json N) :
    comparison symbol property value =
      orElse (.call symbol (sides property value)) (symbol == "!=") := by
  cases value <;> rfl

theorem opposes_comparison (property value : Json N) :
    Opposes (comparison "==" property value) (comparison "!=" property value) where
  exists_iff key := by
    rw [comparison_eq, comparison_eq, exists_spells_orElse_iff, exists_spells_orElse_iff]
    constructor
    · rintro ⟨e, he⟩
      obtain ⟨args, type, -, he'⟩ := Spells.replaceOperator .equal .unequal rfl he
      exact ⟨_, he'⟩
    · rintro ⟨e, he⟩
      obtain ⟨args, type, -, he'⟩ := Spells.replaceOperator .unequal .equal rfl he
      exact ⟨_, he'⟩
  eval_eq := by
    intro key e e' he he' env b h
    rw [comparison_eq] at he he'
    obtain ⟨test, htest, rfl⟩ := spells_orElse_iff.mp he
    obtain ⟨test', htest', rfl⟩ := spells_orElse_iff.mp he'
    obtain ⟨args, type, rfl, hunequal⟩ := Spells.replaceOperator .equal .unequal rfl htest
    obtain rfl := htest'.unique hunequal
    rw [Expr.eval_fallback] at h ⊢
    -- Either both tests have an answer, or both fall back.
    rcases Expr.eval_equal_or_unequal _ type args env with ⟨b', hb, hb'⟩ | ⟨failure, hf, hf'⟩
    · rw [hb] at h
      rw [hb']
      cases h
      rfl
    · rw [hf] at h
      rw [hf']
      cases h
      rfl

/-! ## Positive and negative filters -/

/-- The filters that have a negative form. -/
inductive Negatable where
  | equality | membership | presence | disjunction
  deriving DecidableEq, Repr

namespace Negatable

/-- The name of the positive form. -/
def positive : Negatable → String
  | .equality => "=="
  | .membership => "in"
  | .presence => "has"
  | .disjunction => "any"

/-- The name of the negative form. -/
def negative : Negatable → String
  | .equality => "!="
  | .membership => "!in"
  | .presence => "!has"
  | .disjunction => "none"

end Negatable

theorem opposes_lower (kind : Negatable) {operands : List (Json N)} (hne : operands ≠ []) :
    Opposes (lower (.call kind.positive operands)) (lower (.call kind.negative operands)) := by
  obtain ⟨first, rest, rfl⟩ := List.exists_cons_of_ne_nil hne
  cases kind with
  | equality => exact opposes_comparison first (rest.headD .null)
  | membership => exact opposes_negate (membership first rest)
  | presence => exact opposes_negate (presence first)
  | disjunction => exact opposes_negate (.call "||" (lower first :: lowerAll rest))

/-- A negative filter can be built just where the positive one with the same operands can, and passes
the features that this does not pass. -/
theorem passes_complement (kind : Negatable) {operands : List (Json N)} (hne : operands ≠ []) :
    ((∃ complement, ofJson (.call kind.negative operands) = .ok complement) ↔
      ∃ filter, ofJson (.call kind.positive operands) = .ok filter) ∧
    ∀ filter complement, ofJson (.call kind.positive operands) = .ok filter →
      ofJson (.call kind.negative operands) = .ok complement →
      ∀ feature, complement.passes feature = !filter.passes feature := by
  have hopposes := opposes_lower kind hne
  constructor
  · rw [exists_ofJson_iff rfl [], exists_ofJson_iff rfl []]
    exact (hopposes.exists_iff []).symm
  · intro filter complement hfilter hcomplement feature
    obtain ⟨e, he⟩ := (exists_ofJson_iff rfl []).mp ⟨filter, hfilter⟩
    obtain ⟨e', he'⟩ := (exists_ofJson_iff rfl []).mp ⟨complement, hcomplement⟩
    have hanswer := hopposes.eval_eq he he' (eval_eq_passes rfl hfilter he feature)
    rw [eval_eq_passes rfl hcomplement he' feature] at hanswer
    exact Value.boolean.inj (Except.ok.inj hanswer)

theorem passes_complement_rank : ∃ filter complement : Filter Float,
    ofJson (.call "==" [.string "rank", .integer 3]) = .ok filter ∧
      ofJson (.call "!=" [.string "rank", .integer 3]) = .ok complement ∧
      ∀ feature, complement.passes feature = !filter.passes feature := by
  have hne : ([.string "rank", .integer 3] : List (Json Float)) ≠ [] := List.cons_ne_nil _ _
  obtain ⟨hbuilt, hpasses⟩ := passes_complement .equality hne
  obtain ⟨filter, hfilter⟩ : ∃ filter : Filter Float,
    ofJson (.call "==" [.string "rank", .integer 3]) = .ok filter := ⟨_, rfl⟩
  obtain ⟨complement, hcomplement⟩ := hbuilt.mpr ⟨filter, hfilter⟩
  exact ⟨filter, complement, hfilter, hcomplement, hpasses filter complement hfilter hcomplement⟩

end Filter

end MapStyle
