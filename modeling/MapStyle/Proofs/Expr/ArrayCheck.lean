import MapStyle.Binary64.Scalar
import MapStyle.Proofs.Expr.Outcomes
import MapStyle.Proofs.Parse.Inversion

/-!
# Array checks

An array check compares the type asked for with the type of the value, which sums all items up in one
type. For items of a kind, and for items of any type, the sum loses nothing but on one value: the empty
array, which belongs to all array types without a length, has items of type `value`
(`Value.type_le_array_iff`). So a check passes on just the values of the array type, and refuses the
empty array where it asks for a kind of items (`Expr.eval_arrayCheck`).
-/

namespace MapStyle

variable {N : Type}

/-! ## Types of arrays -/

/-- Whether an array check can ask for items of the type: any items, or those of a kind. -/
def Ty.IsCheckable (item : Ty) : Prop := item = .value ∨ ∃ kind : AssertedKind, item = kind.type

namespace Value

theorem type_eq_of_belongs {kind : AssertedKind} {v : Value N} (h : v.Belongs kind.type) :
    v.type = kind.type := by
  cases kind <;>
  · obtain ⟨_, rfl⟩ := h
    rfl

/-- A value is of a kind just if its type is. -/
theorem type_le_kind_iff (kind : AssertedKind) (v : Value N) :
    v.type ≤ kind.type ↔ v.Belongs kind.type :=
  ⟨belongs_of_type_le, fun h => type_eq_of_belongs h ▸ Ty.le_refl _⟩

/-- The type that items share is that of a kind where all items are of the kind, and there are
some. -/
theorem commonType_le_kind_iff (kind : AssertedKind) (items : List (Value N)) :
    commonType (itemTypes items) ≤ kind.type ↔ items ≠ [] ∧ ∀ v ∈ items, v.Belongs kind.type := by
  rw [itemTypes_eq_map]
  constructor
  · intro h
    refine ⟨?_, fun v hv => belongs_of_type_le ?_⟩
    · rintro rfl
      -- No items share the type `value`, which is that of no kind.
      have hvalue := Ty.value_le h
      cases kind <;> cases hvalue
    · exact Ty.le_trans (le_commonType (List.mem_map_of_mem hv)) h
  · rintro ⟨hne, hitems⟩
    obtain ⟨first, rest, rfl⟩ := List.exists_cons_of_ne_nil hne
    have htypes : ∀ v ∈ first :: rest, v.type = kind.type := fun v hv =>
      type_eq_of_belongs (hitems v hv)
    have hshared : commonType ((first :: rest).map type) = kind.type := by
      rw [List.forall_mem_cons] at htypes
      rw [List.map_cons, commonType, htypes.1, if_pos]
      rw [List.all_map, List.all_eq_true]
      exact fun v hv => beq_iff_eq.mpr (htypes.2 v hv)
    rw [hshared]
    exact Ty.le_refl _

/-- Whether an array check passes on a value: an array of the length, if one is given, with all items of
the type. Where it asks for items of a kind, there has to be one. -/
def Passes (v : Value N) (item : Ty) (length : Option Nat) : Prop :=
  v.Belongs (.array item length) ∧ (v = .array [] → item = .value)

theorem type_le_array_iff {item : Ty} (hitem : item.IsCheckable) (length : Option Nat)
    (v : Value N) : v.type ≤ .array item length ↔ v.Passes item length := by
  constructor
  · intro h
    refine ⟨belongs_of_type_le h, ?_⟩
    rintro rfl
    exact Ty.value_le (Ty.array_le_array.mp h).2
  · rintro ⟨⟨items, rfl, hitems, hlength⟩, hempty⟩
    rw [type, Ty.array_le_array]
    constructor
    · cases length with
      | none => exact .inl rfl
      | some n => exact .inr (congrArg some (hlength n rfl))
    · obtain rfl | ⟨kind, rfl⟩ := hitem
      · exact Ty.le_value _
      · refine (commonType_le_kind_iff kind items).mpr ⟨?_, hitems⟩
        rintro rfl
        have hvalue := hempty rfl
        cases kind <;> cases hvalue

end Value

/-! ## Checks -/

open Parse

theorem isCheckable_of_arrayCheck? {raws : List (Json N)} {item : Ty} {length : Option Nat}
    (h : arrayCheck? raws = some (item, length)) : item.IsCheckable := by
  have hkind : ∀ {raw : Json N}, itemType? raw = some item → item.IsCheckable := by
    intro raw hraw
    unfold itemType? at hraw
    split at hraw <;> cases hraw
    · exact .inr ⟨.string, rfl⟩
    · exact .inr ⟨.number, rfl⟩
    · exact .inr ⟨.boolean, rfl⟩
  unfold arrayCheck? at h
  split at h
  · cases h
    exact .inl rfl
  · obtain ⟨item', hitem, h⟩ := Option.map_eq_some_iff.mp h
    cases h
    exact hkind hitem
  · obtain ⟨item', hitem, h⟩ := Option.bind_eq_some_iff.mp h
    obtain ⟨n, -, h⟩ := Option.map_eq_some_iff.mp h
    cases h
    exact hkind hitem
  · cases h

variable [Scalar N]

namespace Expr

/-- An array check, for items of any type or of a kind and for a length or none, passes on unchanged
the values of the array type, but refuses the empty array where it asks for a kind of items, and it fails
for all other values. This is what each raw check is parsed to. -/
theorem eval_arrayCheck :
    (∀ (c : Context) (raws : List (Json N)) (raw : Json N) (e : Expr N),
      (parser (.call "array" (raws ++ [raw])) c).result = some e →
      ∃ item length input, arrayCheck? raws = some (item, length) ∧ item.IsCheckable ∧
        (parser raw (c.child (raws.length + 1) (some .value))).result = some input ∧
        e = .arrayOf c.key item length input) ∧
    ∀ (item : Ty) (length : Option Nat) (key : Path) (input : Expr N) (env : Env N) (v : Value N),
      item.IsCheckable → input.eval env = .ok v →
      (v.Passes item length → (arrayOf key item length input).eval env = .ok v) ∧
      (¬ v.Passes item length → (arrayOf key item length input).eval env =
        .error (.typeAssertion none (.array item length) v.type)) := by
  constructor
  · intro c raws raw e he
    obtain ⟨item, length, input, hcheck, hinput, -, rfl⟩ :=
      spells_arrayOf_iff.mp (parser_result_iff.mp he)
    exact ⟨item, length, input, hcheck, isCheckable_of_arrayCheck? hcheck,
      parser_result_iff.mpr hinput, rfl⟩
  · intro item length key input env v hitem hv
    have heval : (arrayOf key item length input).eval env =
        v.assertType (.array item length) none := by
      rw [eval_arrayOf, hv]
      rfl
    rw [heval, ← Value.type_le_array_iff hitem]
    exact ⟨fun h => if_pos h, fun h => if_neg h⟩

/-- A feature with one property. -/
def featureWith (name : String) (v : Value Float) : Feature Float :=
  ⟨[(name, v)], .null, .unknown⟩

/-- A check for two numbers passes on every two of them, and refuses one. -/
theorem eval_arrayCheck_pair : ∃ e : Expr Float,
    parse (.call "array" [.string "number", .integer 2, .call "get" [.string "xy"]]) none = .ok e ∧
      (∀ x y, e.eval ⟨none, featureWith "xy" (.array [.number x, .number y]), []⟩ =
        .ok (.array [.number x, .number y])) ∧
      ∀ x, e.eval ⟨none, featureWith "xy" (.array [.number x]), []⟩ =
        .error (.typeAssertion none (.array .number (some 2)) (.array .number (some 1))) := by
  let input : Expr Float := .apply [3] .value .get [.literal [3, 1] .string (.string "xy")]
  have hinput : ∀ v, input.eval ⟨none, featureWith "xy" v, []⟩ = .ok v := fun v => rfl
  have hnumber : Ty.IsCheckable .number := .inr ⟨.number, rfl⟩
  refine ⟨.arrayOf [] .number (some 2) input, rfl, fun x y => ?_, fun x => ?_⟩
  · refine (eval_arrayCheck.2 .number (some 2) [] input _ _ hnumber (hinput _)).1 ⟨?_, nofun⟩
    refine ⟨_, rfl, ?_, fun n hn => Option.some.inj hn⟩
    exact List.forall_mem_cons.mpr ⟨⟨x, rfl⟩, List.forall_mem_singleton.mpr ⟨y, rfl⟩⟩
  · refine (eval_arrayCheck.2 .number (some 2) [] input _ _ hnumber (hinput _)).2 ?_
    rintro ⟨⟨items, hitems, -, hlength⟩, -⟩
    cases hitems
    cases hlength 2 rfl

/-- The empty array is an array of strings, but a check for these refuses it. -/
theorem exists_empty_array_refused : ∃ e input : Expr Float,
    parse (.call "array" [.string "string", .call "get" [.string "xs"]]) none = .ok e ∧
      e = .arrayOf [] .string none input ∧
      input.eval ⟨none, featureWith "xs" (.array []), []⟩ = .ok (.array []) ∧
      (Value.array [] : Value Float).Belongs (.array .string none) ∧
      e.eval ⟨none, featureWith "xs" (.array []), []⟩ =
        .error (.typeAssertion none (.array .string none) (.array .value (some 0))) :=
  ⟨_, .apply [2] .value .get [.literal [2, 1] .string (.string "xs")], rfl, rfl, rfl,
    Value.belongs_nil .string nofun, rfl⟩

end Expr

end MapStyle
