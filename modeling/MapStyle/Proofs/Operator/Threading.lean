import MapStyle.Proofs.Operator.Matching

/-!
# Bindings that arguments share

`Pattern.fit` is matching as an action on the bindings, which every argument finds as the one before left
them. It is `Pattern.unify?` with the bindings as state (`Pattern.run_fit`): where the match fails, they
are left as they were, and it fails under all bindings that extend them (`Pattern.not_le_of_unify?`).
-/

namespace MapStyle

namespace Pattern

variable {p : Pattern} {t : Ty} {bound later : Bindings}

/-! ## Failed matches -/

/-- A type that does not match is no subtype of the pattern, whatever else is bound. -/
theorem not_le_of_unify? (h : p.unify? bound t = none) (hlater : bound.Extends later) :
    ¬t ≤ p.resolve later := by
  induction p generalizing t with
  | exact type =>
    unfold unify? at h
    split at h
    · cases h
    · assumption
  | named name =>
    unfold unify? at h
    unfold resolve
    split at h
    · next type hlookup =>
      split at h
      · cases h
      · next hle =>
        rw [hlater name type hlookup]
        exact hle
    · cases h
  | array item length ih =>
    unfold unify? at h
    unfold resolve
    split at h
    · next actualItem actualLength =>
      rw [Ty.array_le_array]
      rintro ⟨hlength, hitem⟩
      rw [← Option.isNone_iff_eq_none, ← beq_iff_eq (a := actualLength), ← Bool.or_eq_true] at hlength
      rw [if_pos hlength] at h
      exact ih h hitem
    · cases h
    · next hnotArray hnotError =>
      intro hle
      cases t with
      | array actualItem actualLength => exact hnotArray actualItem actualLength rfl
      | error => exact hnotError rfl
      | _ => cases hle

/-! ## Matching with state -/

/-- Whether a type matches the pattern, as an action on the bindings. -/
def fit : Pattern → Ty → StateM Bindings Bool
  | .exact type, actual => return decide (actual ≤ type)
  | .named name, actual => modifyGet fun bound => match bound.lookup name with
    | some type => (decide (actual ≤ type), bound)
    | none => (true, bound ++ [(name, actual)])
  | .array item length, .array actualItem actualLength =>
    if length.isNone || actualLength == length then item.fit actualItem else return false
  | .array .., .error => return true
  | .array .., _ => return false

/-- A match that fails leaves the bindings as they were: a variable is bound last, once nothing can fail
any more. -/
theorem run_fit (p : Pattern) (t : Ty) (bound : Bindings) : (p.fit t).run bound =
    match p.unify? bound t with
    | some bound' => (true, bound')
    | none => (false, bound) := by
  induction p generalizing t with
  | exact type =>
    rw [unify?]
    by_cases hle : t ≤ type
    · rw [if_pos hle]
      exact congrArg (·, bound) (decide_eq_true hle)
    · rw [if_neg hle]
      exact congrArg (·, bound) (decide_eq_false hle)
  | named name =>
    have hfit : ((named name).fit t).run bound = match bound.lookup name with
        | some type => (decide (t ≤ type), bound)
        | none => (true, bound ++ [(name, t)]) := rfl
    rw [hfit, unify?]
    cases bound.lookup name with
    | none => rfl
    | some type =>
      by_cases hle : t ≤ type
      · simp only [hle, decide_true, if_true]
      · simp only [hle, decide_false, if_false]
  | array item length ih =>
    cases t with
    | array actualItem actualLength =>
      unfold fit unify?
      dsimp only
      split
      · exact ih actualItem
      · rfl
    | _ => rfl

end Pattern

/-! ## Soundness and completeness -/

/-- A match succeeds or fails for good. If it succeeds, then the bindings that it leaves go on from those
that it found, and under them, and under all that extend them, the type is a subtype of the pattern. If it
fails, it leaves the bindings that it found, and under none that extend them is the type a subtype.

So what a signature resolves to is the type of its result under one assignment of types to variables, under
which all arguments are subtypes of the parameters of one overload for as many. -/
theorem Signature.matching_sound_and_complete :
    (∀ (p : Pattern) (t : Ty) (bound : Bindings),
      (∃ bound', p.unify? bound t = some bound' ∧ (p.fit t).run bound = (true, bound') ∧
        bound <+: bound' ∧ ∀ later, bound'.Extends later → t ≤ p.resolve later) ∨
      (p.unify? bound t = none ∧ (p.fit t).run bound = (false, bound) ∧
        ∀ later, bound.Extends later → ¬t ≤ p.resolve later)) ∧
    ∀ (s : Signature) (types : List Ty) (t : Ty), s.resolve? types = some t →
      ∃ o ∈ s.overloads, ∃ bound : Bindings, o.fits types.length = true ∧
        List.Forall₂ (fun t p => t ≤ p.resolve bound) types (o.params types.length) ∧
        t = s.result.resolve bound := by
  refine ⟨fun p t bound => ?_, fun s types t => resolve?_sound⟩
  have hrun := p.run_fit t bound
  cases hunify : p.unify? bound t with
  | some bound' =>
    rw [hunify] at hrun
    exact .inl ⟨bound', rfl, hrun, Pattern.unify?_extends hunify,
      fun later => Pattern.unify?_le hunify⟩
  | none =>
    rw [hunify] at hrun
    exact .inr ⟨rfl, hrun, fun later => Pattern.not_le_of_unify? hunify⟩

/-- The first argument passes for an array and binds nothing, the second binds the variable inside an array
of arrays, and the third has to be below what it bound. -/
theorem Signature.matching_sound_and_complete_shared :
    let item : Pattern := .named "T"
    let s : Signature := ⟨item, [.exactly [.number],
      .exactly [.array item none, .array (.array item none) (some 2), item]]⟩
    let types : List Ty := [.error, .array (.array .value (some 1)) (some 2), .color]
    s.resolve? types = some .value ∧
    ∃ o ∈ s.overloads, ∃ bound : Bindings, o.fits types.length = true ∧
      List.Forall₂ (fun t p => t ≤ p.resolve bound) types (o.params types.length) ∧
      Ty.value = s.result.resolve bound := by
  intro item s types
  have h : s.resolve? types = some .value := by decide +kernel
  exact ⟨h, matching_sound_and_complete.2 s types .value h⟩

end MapStyle
