import MapStyle.Operator.Signature
import MapStyle.Proofs.Lists
import MapStyle.Proofs.Value.Membership

/-!
# Matching argument types against signatures

A successful match leaves one assignment of types to variables under which every argument type is a
subtype of its parameter.

* `Bindings.Extends`: nothing that is bound changes.
* `Pattern.unify?_extends`, `Pattern.unify?_le`: matching one type only adds bindings, and puts the
  type below the pattern under the bindings reached and all that extend them.
* `Signature.resolve?_sound`: the overload that `resolve?` chose, and its assignment.
* `Signature.Admits` carries this over from the types of operands to the operands.
-/

namespace MapStyle

/-! ## Extensions -/

/-- Whether all that is bound stays bound to the same types. -/
def Bindings.Extends (bound later : Bindings) : Prop :=
  ∀ name type, bound.lookup name = some type → later.lookup name = some type

theorem Bindings.extends_of_isPrefix {bound later : Bindings} (h : bound <+: later) :
    bound.Extends later :=
  fun _ _ hlookup => h.lookup_eq_some hlookup

/-! ## Matching -/

namespace Pattern

theorem unify?_extends {p : Pattern} {t : Ty} {bound bound' : Bindings}
    (h : p.unify? bound t = some bound') : bound <+: bound' := by
  induction p generalizing t with
  | exact type =>
    unfold unify? at h
    split at h
    · obtain rfl := Option.some.inj h
      exact List.prefix_rfl
    · cases h
  | named name =>
    unfold unify? at h
    split at h
    · split at h
      · obtain rfl := Option.some.inj h
        exact List.prefix_rfl
      · cases h
    · obtain rfl := Option.some.inj h
      exact List.prefix_append _ _
  | array item length ih =>
    unfold unify? at h
    split at h
    · split at h
      · exact ih h
      · cases h
    · obtain rfl := Option.some.inj h
      exact List.prefix_rfl
    · cases h

/-- The matched type lies below the pattern, also once later arguments have bound more variables. -/
theorem unify?_le {p : Pattern} {t : Ty} {bound bound' final : Bindings}
    (h : p.unify? bound t = some bound') (hfinal : bound'.Extends final) : t ≤ p.resolve final := by
  induction p generalizing t with
  | exact type =>
    unfold unify? at h
    split at h
    · assumption
    · cases h
  | named name =>
    unfold unify? at h
    unfold resolve
    split at h
    · next type hlookup =>
      split at h
      · next hle =>
        obtain rfl := Option.some.inj h
        rw [hfinal name type hlookup]
        exact hle
      · cases h
    · next hlookup =>
      obtain rfl := Option.some.inj h
      have hadded : (bound ++ [(name, t)]).lookup name = some t := by
        rw [List.lookup_append, hlookup]
        simp
      rw [hfinal name t hadded]
      exact Ty.le_refl t
  | array item length ih =>
    unfold unify? at h
    unfold resolve
    split at h
    · split at h
      · next actualItem actualLength hlength =>
        show Ty.isSubtype _ _ = true
        unfold Ty.isSubtype
        rw [hlength, Bool.true_and]
        exact ih h
      · cases h
    · exact Ty.error_le _
    · cases h

end Pattern

namespace Overload

/-- The parameters for a number of arguments. -/
def params : Overload → Nat → List Pattern
  | .exactly params, _ => params
  | .variadic param, n => List.replicate n param

theorem unifyAll?_extends {params : List Pattern} {types : List Ty} {bound bound' : Bindings}
    (h : unifyAll? bound params types = some bound') : bound <+: bound' := by
  induction params generalizing types bound with
  | nil =>
    obtain rfl := Option.some.inj h
    exact List.prefix_rfl
  | cons p params ih =>
    cases types with
    | nil =>
      obtain rfl := Option.some.inj h
      exact List.prefix_rfl
    | cons t types =>
      obtain ⟨here, hhere, hrest⟩ := Option.bind_eq_some_iff.mp h
      exact (Pattern.unify?_extends hhere).trans (ih hrest)

theorem unifyAll?_le {params : List Pattern} {types : List Ty} {bound final : Bindings}
    (h : unifyAll? bound params types = some final) (hlen : params.length = types.length) :
    List.Forall₂ (fun t p => t ≤ p.resolve final) types params := by
  induction params generalizing types bound with
  | nil =>
    obtain rfl := List.eq_nil_of_length_eq_zero hlen.symm
    exact .nil
  | cons p params ih =>
    cases types with
    | nil => cases hlen
    | cons t types =>
      obtain ⟨here, hhere, hrest⟩ := Option.bind_eq_some_iff.mp h
      have hextends := Bindings.extends_of_isPrefix (unifyAll?_extends hrest)
      exact .cons (Pattern.unify?_le hhere hextends)
        (ih hrest (Nat.succ.inj hlen))

theorem unifyAll?_replicate (bound : Bindings) {type : Ty} {types : List Ty}
    (h : ∀ t ∈ types, t ≤ type) :
    unifyAll? bound (List.replicate types.length (.exact type)) types = some bound := by
  induction types with
  | nil => rfl
  | cons t rest ih =>
    rw [List.forall_mem_cons] at h
    rw [List.length_cons, List.replicate_succ, unifyAll?]
    have hunify : (Pattern.exact type).unify? bound t = some bound := by
      rw [Pattern.unify?, if_pos h.1]
    rw [hunify]
    exact ih h.2

theorem accept?_sound {o : Overload} {types : List Ty} {bound : Bindings}
    (h : o.accept? types = some bound) :
    o.fits types.length = true ∧
      List.Forall₂ (fun t p => t ≤ p.resolve bound) types (o.params types.length) := by
  unfold accept? at h
  split at h
  · next hfits =>
    refine ⟨hfits, ?_⟩
    cases o with
    | exactly params => exact unifyAll?_le h (eq_of_beq hfits)
    | variadic param => exact unifyAll?_le h List.length_replicate
  · cases h

end Overload

namespace Signature

/-- A type that `resolve?` gives is that of the result under an assignment that fits all argument
types below the parameters of one overload. -/
theorem resolve?_sound {s : Signature} {types : List Ty} {t : Ty} (h : s.resolve? types = some t) :
    ∃ o ∈ s.overloads, ∃ bound : Bindings, o.fits types.length = true ∧
      List.Forall₂ (fun t p => t ≤ p.resolve bound) types (o.params types.length) ∧
      t = s.result.resolve bound := by
  obtain ⟨o, ho, hresult⟩ := List.exists_of_findSome?_eq_some h
  obtain ⟨bound, hbound, rfl⟩ := Option.map_eq_some_iff.mp hresult
  obtain ⟨hfits, hle⟩ := Overload.accept?_sound hbound
  exact ⟨o, ho, bound, hfits, hle, rfl⟩

/-- The number of arguments that an overload of its own fixes. -/
theorem length_of_arity? {s : Signature} {types : List Ty} {t : Ty} {n : Nat}
    (harity : s.arity? = some n) (h : s.resolve? types = some t) : types.length = n := by
  obtain ⟨o, ho, bound, hfits, -, -⟩ := resolve?_sound h
  unfold arity? at harity
  split at harity
  · next params hoverloads =>
    rw [hoverloads, List.mem_singleton] at ho
    subst ho
    rw [← Option.some.inj harity]
    exact (eq_of_beq hfits).symm
  · cases harity

/-! ## Operands -/

variable {N : Type}

/-- Whether some overload takes the operands, with `t` as the type of the result. -/
def Admits (s : Signature) (operands : List (Value N)) (t : Ty) : Prop :=
  ∃ o ∈ s.overloads, ∃ bound : Bindings, o.fits operands.length = true ∧
    List.Forall₂ (fun v p => v.Belongs (p.resolve bound)) operands (o.params operands.length) ∧
    t = s.result.resolve bound

theorem admits_of_resolve? {s : Signature} {types : List Ty} {t : Ty} {operands : List (Value N)}
    (h : s.resolve? types = some t)
    (hoperands : List.Forall₂ (fun v t => Value.Belongs v t) operands types) :
    s.Admits operands t := by
  obtain ⟨o, ho, bound, hfits, hle, ht⟩ := resolve?_sound h
  rw [← hoperands.length_eq] at hfits hle
  exact ⟨o, ho, bound, hfits, forall₂_comp hoperands hle fun _ _ _ hv hle => hv.mono hle, ht⟩

section

variable {result : Pattern} {operands : List (Value N)} {t : Ty}

/-- A result without variables does not depend on the operands. -/
theorem Admits.result_eq {type : Ty} {overloads : List Overload}
    (h : Admits ⟨.exact type, overloads⟩ operands t) : t = type := by
  obtain ⟨o, ho, bound, -, hv, ht⟩ := h
  exact ht

/-- The operands of an operator with one overload of a fixed number of parameters. -/
theorem Admits.fixed {params : List Pattern} (h : Admits ⟨result, [.exactly params]⟩ operands t) :
    ∃ bound : Bindings, List.Forall₂ (fun v p => v.Belongs (p.resolve bound)) operands params ∧
      t = result.resolve bound := by
  obtain ⟨o, ho, bound, -, hv, ht⟩ := h
  obtain rfl := List.mem_singleton.mp ho
  exact ⟨bound, hv, ht⟩

/-- The operands of an operator with two overloads of a fixed number of parameters. -/
theorem Admits.either {params params' : List Pattern}
    (h : Admits ⟨result, [.exactly params, .exactly params']⟩ operands t) :
    ∃ bound : Bindings, (List.Forall₂ (fun v p => v.Belongs (p.resolve bound)) operands params ∨
      List.Forall₂ (fun v p => v.Belongs (p.resolve bound)) operands params') ∧
      t = result.resolve bound := by
  obtain ⟨o, ho, bound, -, hv, ht⟩ := h
  rcases List.mem_pair.mp ho with rfl | rfl
  · exact ⟨bound, .inl hv, ht⟩
  · exact ⟨bound, .inr hv, ht⟩

/-- The operands of an operator that takes one or more of a kind. -/
theorem Admits.some {param : Pattern} (h : Admits ⟨result, [.variadic param]⟩ operands t) :
    ∃ bound : Bindings, operands ≠ [] ∧ (∀ v ∈ operands, v.Belongs (param.resolve bound)) ∧
      t = result.resolve bound := by
  obtain ⟨o, ho, bound, hfits, hv, ht⟩ := h
  obtain rfl := List.mem_singleton.mp ho
  refine ⟨bound, ?_, ?_, ht⟩
  · rintro rfl
    cases hfits
  · exact forall_of_forall₂_replicate
      (R := fun (v : Value N) p => v.Belongs (Pattern.resolve bound p)) hv

end

end Signature

end MapStyle
