import MapStyle.Value.Basic

/-!
# Membership of values in types

`Value.Belongs` says which values a type has. It is stated without `Value.type`, which sums a whole
array up in one type.

* `Ty.le_refl`, `Ty.le_trans`, `Ty.le_antisymm`: subtyping is a partial order.
* `Value.Belongs.mono`: it keeps values.
* `Value.belongs_type`: a value belongs to its own type, and so to every type above it.
-/

namespace MapStyle

/-! ## Subtypes -/

namespace Ty

theorem le_refl (t : Ty) : t ≤ t := by
  show isSubtype t t = true
  induction t with
  | array item length ih => cases length <;> simp [isSubtype, ih]
  | _ => rfl

theorem array_le_array {a b : Ty} {m n : Option Nat} :
    array a m ≤ array b n ↔ (n = none ∨ m = n) ∧ a ≤ b := by
  show ((n.isNone || m == n) && isSubtype a b) = true ↔ _
  rw [Bool.and_eq_true, Bool.or_eq_true, Option.isNone_iff_eq_none, beq_iff_eq]
  exact Iff.rfl

theorem value_le {t : Ty} (h : value ≤ t) : t = value := by
  cases t with
  | value => rfl
  | _ => cases h

theorem le_trans {a b t : Ty} (hab : a ≤ b) (hbt : b ≤ t) : a ≤ t := by
  induction a generalizing b t with
  | error => exact error_le t
  | value => rwa [value_le hab] at hbt
  | array item length ih =>
    cases b with
    | value => rw [value_le hbt]; exact le_value _
    | array item' length' =>
      cases t with
      | value => exact le_value _
      | array item'' length'' =>
        rw [array_le_array] at *
        refine ⟨?_, ih hab.2 hbt.2⟩
        rcases hbt.1 with h | rfl
        · exact .inl h
        · exact hab.1
      | _ => cases hbt
    | _ => cases hab
  | _ =>
    cases b with
    | value => rw [value_le hbt]; exact le_value _
    | _ => first | exact hbt | cases hab

/-- Two array types below each other ask for the same length: each of them is either that of the other or
not given, which leaves it not given on both sides. -/
theorem le_antisymm {a b : Ty} (hab : a ≤ b) (hba : b ≤ a) : a = b := by
  induction a generalizing b with
  | array item length ih =>
    cases b with
    | array item' length' =>
      rw [array_le_array] at hab hba
      have hitem : item = item' := ih hab.2 hba.2
      have hlength : length = length' := by
        rcases hab.1 with hnone | heq
        · rcases hba.1 with hnone' | heq'
          · rw [hnone, hnone']
          · exact heq'.symm
        · exact heq
      rw [hitem, hlength]
    | value => cases hba
    | _ => cases hab
  | value => exact (value_le hab).symm
  | error =>
    cases b with
    | error => rfl
    | _ => cases hba
  | _ =>
    cases b with
    | value => cases hba
    | _ => first | rfl | cases hab

end Ty

namespace Value

variable {N : Type}

/-! ## Values of a type -/

/-- Whether a value belongs to a type. Everything belongs to `value` and nothing to `error`; an array
belongs to an array type when all its items belong to the type of items and it has the length, if
one is given. -/
def Belongs : Value N → Ty → Prop
  | _, .value => True
  | _, .error => False
  | v, .null => v = .null
  | v, .boolean => ∃ b, v = .boolean b
  | v, .number => ∃ x, v = .number x
  | v, .string => ∃ s, v = .string s
  | v, .color => ∃ c, v = .color c
  | v, .object => ∃ fields, v = .object fields
  | v, .array item length => ∃ items, v = .array items ∧ (∀ w ∈ items, w.Belongs item) ∧
      ∀ n, length = some n → items.length = n

/-- The empty array belongs to every array type that does not ask for an item. -/
theorem belongs_nil (item : Ty) {length : Option Nat} (h : ∀ n, length = some n → n = 0) :
    (Value.array [] : Value N).Belongs (.array item length) := by
  refine ⟨[], rfl, fun w hw => absurd hw (List.not_mem_nil), fun n hn => ?_⟩
  exact (h n hn).symm

/-- A value of a type belongs to every type above it. -/
theorem Belongs.mono {v : Value N} {a b : Ty} (h : a ≤ b) (hv : v.Belongs a) : v.Belongs b := by
  have h' : Ty.isSubtype a b = true := h
  clear h
  fun_induction Ty.isSubtype a b generalizing v with
  | case1 => exact hv.elim
  | case2 => trivial
  | case3 a m b n ih =>
    simp only [Bool.and_eq_true, Bool.or_eq_true, beq_iff_eq] at h'
    obtain ⟨items, rfl, hitems, hlength⟩ := hv
    refine ⟨items, rfl, fun w hw => ih (hitems w hw) h'.2, fun k hk => ?_⟩
    rcases h'.1 with hn | hmn
    · rw [hk] at hn; cases hn
    · exact hlength k (hmn.trans hk)
  | case4 => exact eq_of_beq h' ▸ hv

/-! ## The type of a value -/

/-- The type that items share lies above the types of all of them. -/
theorem le_commonType {t : Ty} {types : List Ty} (h : t ∈ types) : t ≤ commonType types := by
  cases types with
  | nil => cases h
  | cons first rest =>
    by_cases hall : rest.all (· == first) = true
    · have hc : commonType (first :: rest) = first := if_pos hall
      rw [hc]
      rcases List.mem_cons.mp h with rfl | hmem
      · exact Ty.le_refl _
      · rw [eq_of_beq (List.all_eq_true.mp hall t hmem)]
        exact Ty.le_refl _
    · have hc : commonType (first :: rest) = .value := if_neg hall
      rw [hc]
      exact Ty.le_value t

mutual

/-- A value belongs to its type. -/
theorem belongs_type : (v : Value N) → v.Belongs v.type
  | .null => rfl
  | .boolean b => ⟨b, rfl⟩
  | .number x => ⟨x, rfl⟩
  | .string s => ⟨s, rfl⟩
  | .color c => ⟨c, rfl⟩
  | .object fields => ⟨fields, rfl⟩
  | .array items =>
    ⟨items, rfl, fun w hw => (belongs_itemType items w hw).mono
      (le_commonType (by rw [itemTypes_eq_map]; exact List.mem_map_of_mem hw)),
      fun _ hn => Option.some.inj hn⟩

/-- The items of an array belong to their types. -/
theorem belongs_itemType : (items : List (Value N)) → ∀ w ∈ items, w.Belongs w.type
  | [], w, hw => absurd hw List.not_mem_nil
  | item :: rest, w, hw => by
    rcases List.mem_cons.mp hw with heq | hmem
    · rw [heq]
      exact belongs_type item
    · exact belongs_itemType rest w hmem

end

/-- An assertion lets only values of the type through. -/
theorem belongs_of_type_le {v : Value N} {t : Ty} (h : v.type ≤ t) : v.Belongs t :=
  (belongs_type v).mono h

end Value

/-! ## The order of types -/

/-- Subtyping is a partial order with `error` below and `value` above all types, and the values of a type
are values of all types above it. The type of a value is one of those to which it belongs. -/
theorem Ty.isPartialOrder_and_belongs_mono :
    (∀ a : Ty, a ≤ a) ∧
    (∀ a b c : Ty, a ≤ b → b ≤ c → a ≤ c) ∧
    (∀ a b : Ty, a ≤ b → b ≤ a → a = b) ∧
    (∀ a : Ty, error ≤ a ∧ a ≤ value) ∧
    (∀ (N : Type) (v : Value N) (a b : Ty), a ≤ b → v.Belongs a → v.Belongs b) ∧
    ∀ (N : Type) (v : Value N) (t : Ty), v.type ≤ t → v.Belongs t := by
  refine ⟨le_refl, fun _ _ _ => le_trans, fun _ _ => le_antisymm, ?_, ?_, ?_⟩
  · exact fun a => ⟨error_le a, le_value a⟩
  · exact fun N v a b hab hv => hv.mono hab
  · exact fun N v t => Value.belongs_of_type_le

/-- An array of arrays of one number each, and two types above its own. -/
theorem Ty.isPartialOrder_and_belongs_mono_nested :
    let v : Value Nat := .array [.array [.number 1], .array [.number 2]]
    v.type = .array (.array .number (some 1)) (some 2) ∧
    v.type ≤ .array (.array .number none) (some 2) ∧
    v.Belongs (.array (.array .number none) (some 2)) ∧
    Ty.array (.array .number none) (some 2) ≤ .array .value none ∧
    v.Belongs (.array .value none) ∧
    v.type ≤ .array .value none := by
  intro v
  obtain ⟨-, trans, -, -, mono, ofType⟩ := Ty.isPartialOrder_and_belongs_mono
  have hinner : v.type ≤ .array (.array .number none) (some 2) := rfl
  have houter : Ty.array (.array .number none) (some 2) ≤ .array .value none := rfl
  have hbelongs := ofType Nat v _ hinner
  exact ⟨rfl, hinner, hbelongs, houter, mono Nat v _ _ houter hbelongs, trans _ _ _ hinner houter⟩

end MapStyle
