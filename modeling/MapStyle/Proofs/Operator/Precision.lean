import MapStyle.Operator.Basic
import MapStyle.Proofs.Operator.Matching

/-!
# More precise arguments

An operator that has a result for some types of arguments has one for more precise types too. The new
result is a subtype of the old one, with one exception (`Operator.resolve?_of_le`): `at` on an array of
type `error` binds no item type, so its result is `value`, whatever the items were before.
-/

namespace MapStyle

variable {types types' : List Ty}

/-! ## Subtypes of arrays -/

theorem Ty.le_error {t : Ty} (h : t ≤ error) : t = error := by
  cases t with
  | error => rfl
  | _ => cases h

theorem Ty.eq_error_or_array_of_le {t item : Ty} {length : Option Nat} (h : t ≤ array item length) :
    t = error ∨ ∃ item' length', t = array item' length' ∧ item' ≤ item := by
  cases t with
  | error => exact .inl rfl
  | array item' length' => exact .inr ⟨item', length', rfl, (array_le_array.mp h).2⟩
  | _ => cases h

/-! ## Parameters without variables -/

theorem Pattern.unify?_of_concrete? {p : Pattern} {type : Ty} (h : p.concrete? = some type)
    (bound : Bindings) (t : Ty) : p.unify? bound t = if t ≤ type then some bound else none := by
  induction p generalizing type t with
  | exact type' =>
    obtain rfl := Option.some.inj h
    rw [unify?]
  | named name => cases h
  | array item length ih =>
    obtain ⟨itemType, hitem, rfl⟩ := Option.map_eq_some_iff.mp h
    cases t with
    | error => exact (if_pos (Ty.error_le _)).symm
    | array actualItem actualLength =>
      rw [unify?, ih hitem, ← ite_and]
      refine if_congr ?_ rfl rfl
      rw [Ty.array_le_array, Bool.or_eq_true, Option.isNone_iff_eq_none, beq_iff_eq]
    | _ => exact (if_neg Bool.false_ne_true).symm

theorem Pattern.resolve_of_concrete? {p : Pattern} {type : Ty} (h : p.concrete? = some type)
    (bound : Bindings) : p.resolve bound = type := by
  induction p generalizing type with
  | exact type' => exact Option.some.inj h
  | named name => cases h
  | array item length ih =>
    obtain ⟨itemType, hitem, rfl⟩ := Option.map_eq_some_iff.mp h
    rw [resolve, ih hitem]

namespace Overload

/-- Whether no parameter has variables. -/
def isConcrete : Overload → Bool
  | .exactly params => params.all (·.concrete?.isSome)
  | .variadic param => param.concrete?.isSome

theorem isSome_unifyAll?_of_le {params : List Pattern} {bound : Bindings}
    (hparams : ∀ p ∈ params, p.concrete?.isSome = true) (hle : List.Forall₂ (· ≤ ·) types' types)
    (h : (unifyAll? bound params types).isSome = true) :
    (unifyAll? bound params types').isSome = true := by
  induction params generalizing types types' with
  | nil => cases types' <;> rfl
  | cons p params ih =>
    obtain ⟨hp, hparams⟩ := List.forall_mem_cons.mp hparams
    obtain ⟨type, htype⟩ := Option.isSome_iff_exists.mp hp
    cases hle with
    | nil => rfl
    | @cons t' t types' types ht hrest =>
      rw [unifyAll?, Pattern.unify?_of_concrete? htype] at h ⊢
      by_cases hfits : t ≤ type
      · rw [if_pos hfits] at h
        rw [if_pos (Ty.le_trans ht hfits)]
        exact ih hparams hrest h
      · rw [if_neg hfits] at h
        cases h

/-- An overload without variables that takes some arguments takes more precise ones. -/
theorem isSome_accept?_of_le {o : Overload} (hconcrete : o.isConcrete = true)
    (hle : List.Forall₂ (· ≤ ·) types' types) (h : (o.accept? types).isSome = true) :
    (o.accept? types').isSome = true := by
  unfold accept? at *
  rw [hle.length_eq]
  split at h
  · next hfits =>
    rw [if_pos hfits]
    cases o with
    | exactly params => exact isSome_unifyAll?_of_le (List.all_eq_true.mp hconcrete) hle h
    | variadic param =>
      refine isSome_unifyAll?_of_le (fun p hp => ?_) hle h
      rw [List.eq_of_mem_replicate hp]
      exact hconcrete
  · cases h

end Overload

namespace Signature

/-- Whether neither the result nor the parameters have variables. -/
def isConcrete (s : Signature) : Bool :=
  s.result.concrete?.isSome && s.overloads.all (·.isConcrete)

/-- A signature without variables has the same result for more precise arguments. -/
theorem resolve?_of_isConcrete {s : Signature} {t : Ty} (hconcrete : s.isConcrete = true)
    (hle : List.Forall₂ (· ≤ ·) types' types) (h : s.resolve? types = some t) :
    s.resolve? types' = some t := by
  obtain ⟨hresult, hoverloads⟩ := Bool.and_eq_true_iff.mp hconcrete
  obtain ⟨type, htype⟩ := Option.isSome_iff_exists.mp hresult
  have hresolved {types : List Ty} {t : Ty} (h : s.resolve? types = some t) : t = type := by
    obtain ⟨o, -, bound, -, -, rfl⟩ := resolve?_sound h
    exact Pattern.resolve_of_concrete? htype bound
  have hsome : (s.resolve? types').isSome = true := by
    obtain ⟨o, ho, haccept⟩ := List.exists_of_findSome?_eq_some h
    obtain ⟨bound, hbound, -⟩ := Option.map_eq_some_iff.mp haccept
    have haccepts := Overload.isSome_accept?_of_le (List.all_eq_true.mp hoverloads o ho) hle
      (Option.isSome_of_eq_some hbound)
    rw [resolve?, List.isSome_findSome?]
    refine List.any_eq_true.mpr ⟨o, ho, ?_⟩
    rwa [Option.isSome_map]
  obtain ⟨t', ht'⟩ := Option.isSome_iff_exists.mp hsome
  rw [ht', hresolved ht', hresolved h]

end Signature

namespace Operator

/-! ## Items -/

/-- Only the signature of `at` has variables. -/
theorem isConcrete_signature {op : Operator} (h : op ≠ .item) : op.signature.isConcrete = true := by
  cases op with
  | item => exact absurd rfl h
  | assertion kind => cases kind <;> rfl
  | _ => rfl

/-- The type that `at` gives the items of an array. The type `error` binds none, so it is `value`. -/
def itemOf? : Ty → Option Ty
  | .array t _ => some t
  | .error => some .value
  | _ => none

theorem resolve?_item (index array : Ty) : item.signature.resolve? [index, array] =
    if index ≤ .number then itemOf? array else none := by
  have haccept : Overload.accept? (.exactly [.number, .array (.named "T") none]) [index, array] =
      (Pattern.number.unify? [] index).bind fun bound =>
        ((Pattern.array (.named "T") none).unify? bound array).bind some := rfl
  have hresolve : item.signature.resolve? [index, array] = Option.map (Pattern.named "T").resolve
      (Overload.accept? (.exactly [.number, .array (.named "T") none]) [index, array]) := by
    rw [signature, Signature.resolve?, List.findSome?_singleton]
  rw [hresolve, haccept, Pattern.unify?]
  by_cases hnumber : index ≤ .number
  · rw [if_pos hnumber, if_pos hnumber]
    cases array with
    | array t length => simp [Pattern.unify?, Pattern.resolve, itemOf?]
    | _ => rfl
  · rw [if_neg hnumber, if_neg hnumber]
    rfl

theorem resolve?_item_iff {t : Ty} : item.signature.resolve? types = some t ↔
    ∃ index array, types = [index, array] ∧ index ≤ .number ∧ itemOf? array = some t := by
  constructor
  · intro h
    obtain ⟨index, array, rfl⟩ : ∃ index array, types = [index, array] :=
      List.length_eq_two.mp (Signature.length_of_arity? rfl h)
    rw [resolve?_item] at h
    split at h
    · next hindex => exact ⟨index, array, rfl, hindex, h⟩
    · cases h
  · rintro ⟨index, array, rfl, hindex, hitem⟩
    rw [resolve?_item, if_pos hindex, hitem]

/-- A more precise array has more precise items, unless it is `error` in the place of an array. -/
theorem itemOf?_of_le {array array' t : Ty} (hle : array' ≤ array) (h : itemOf? array = some t) :
    (∃ t', itemOf? array' = some t' ∧ t' ≤ t) ∨
      array' = .error ∧ ∃ length, array = .array t length ∧ t ≠ .value := by
  cases array with
  | array item length =>
    obtain rfl := Option.some.inj h
    obtain rfl | ⟨item', length', rfl, hitem⟩ := Ty.eq_error_or_array_of_le hle
    · by_cases hvalue : item = .value
      · exact .inl ⟨.value, rfl, hvalue ▸ Ty.le_refl _⟩
      · exact .inr ⟨rfl, length, rfl, hvalue⟩
    · exact .inl ⟨item', rfl, hitem⟩
  | error =>
    obtain rfl := Option.some.inj h
    obtain rfl := Ty.le_error hle
    exact .inl ⟨.value, rfl, Ty.le_refl _⟩
  | _ => cases h

/-! ## All operators -/

/-- Whether a call of `at` has lost the type of its items: of an array with items of some type, only
`error` is left, which binds no item type. -/
def LosesItem (op : Operator) (types types' : List Ty) : Prop :=
  op = .item ∧ types'[1]? = some .error ∧
    ∃ t length, types[1]? = some (.array t length) ∧ t ≠ .value

theorem losesItem_item {index index' array array' : Ty} :
    LosesItem .item [index, array] [index', array'] ↔
      array' = .error ∧ ∃ t length, array = .array t length ∧ t ≠ .value := by
  simp [LosesItem]

/-- An operator that has a result has one for arguments of more precise types too. The new result is a
subtype of the old one, unless the item type of `at` is lost: then it is `value`, which is not. -/
theorem resolve?_of_le {op : Operator} {t : Ty} (hle : List.Forall₂ (· ≤ ·) types' types)
    (h : op.signature.resolve? types = some t) :
    ∃ t', op.signature.resolve? types' = some t' ∧ (t' ≤ t ↔ ¬LosesItem op types types') ∧
      (LosesItem op types types' → t' = .value) := by
  by_cases hop : op = .item
  · subst hop
    obtain ⟨index, array, rfl, hindex, hitem⟩ := resolve?_item_iff.mp h
    obtain ⟨index', _, hindexLe, hrest, rfl⟩ := List.forall₂_cons_right_iff.mp hle
    obtain ⟨array', _, harrayLe, hnil, rfl⟩ := List.forall₂_cons_right_iff.mp hrest
    obtain rfl := List.forall₂_nil_right_iff.mp hnil
    have hindex' := Ty.le_trans hindexLe hindex
    rw [losesItem_item, resolve?_item, if_pos hindex']
    obtain ⟨t', ht', hbelow⟩ | ⟨rfl, length, rfl, hvalue⟩ := itemOf?_of_le harrayLe hitem
    · have hkept : ¬(array' = .error ∧ ∃ u length, array = .array u length ∧ u ≠ .value) := by
        rintro ⟨rfl, u, length, rfl, hne⟩
        cases ht'
        cases hitem
        exact hne (Ty.value_le hbelow)
      exact ⟨t', ht', iff_of_true hbelow hkept, fun hlost => absurd hlost hkept⟩
    · refine ⟨.value, rfl, iff_of_false (fun hle => hvalue (Ty.value_le hle)) ?_, fun _ => rfl⟩
      exact not_not_intro ⟨rfl, t, length, rfl, hvalue⟩
  · have hkept : ¬LosesItem op types types' := fun hlost => hop hlost.1
    refine ⟨t, Signature.resolve?_of_isConcrete (isConcrete_signature hop) hle h, ?_, ?_⟩
    · exact iff_of_true (Ty.le_refl t) hkept
    · exact fun hlost => absurd hlost hkept

/-- Arguments below those of `at`, array types and lengths at all depths. -/
theorem resolve?_of_le_item :
    item.signature.resolve? [.number, .array (.array .value none) none] =
      some (.array .value none) ∧
    List.Forall₂ (· ≤ ·) [Ty.error, .array (.array .error (some 3)) (some 2)]
      [Ty.number, .array (.array .value none) none] ∧
    ∃ t', item.signature.resolve? [.error, .array (.array .error (some 3)) (some 2)] = some t' ∧
      t' ≤ .array .value none := by
  have hle : List.Forall₂ (· ≤ ·) [Ty.error, .array (.array .error (some 3)) (some 2)]
      [Ty.number, .array (.array .value none) none] := .cons rfl (.cons rfl .nil)
  have h : item.signature.resolve? [.number, .array (.array .value none) none] =
      some (.array .value none) := rfl
  obtain ⟨t', ht', hbelow, -⟩ := resolve?_of_le hle h
  refine ⟨h, hle, t', ht', hbelow.mpr ?_⟩
  rintro ⟨-, herror, -⟩
  cases herror

/-- The type `error` is below an array of numbers, but its items are not below numbers. -/
theorem resolve?_item_of_error :
    List.Forall₂ (· ≤ ·) [Ty.number, .error] [Ty.number, .array .number none] ∧
    item.signature.resolve? [.number, .array .number none] = some .number ∧
    item.signature.resolve? [.number, .error] = some .value ∧ ¬Ty.value ≤ .number :=
  ⟨.cons rfl (.cons rfl .nil), rfl, rfl, nofun⟩

end Operator

end MapStyle
