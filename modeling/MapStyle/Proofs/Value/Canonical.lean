import MapStyle.Parse.Literal
import MapStyle.Proofs.Scalar.Canonical
import MapStyle.Value.Json

/-!
# Values written as JSON and read again

`Value.canonical v` is `v` with all numbers in canonical form. `ReadsBack v` says that the JSON form of
`v` is a literal again, which stands for `v.canonical`, and that this equals `v`. It holds of every
literal (`readsBack_ofJson`).
-/

namespace MapStyle.Value

variable {N : Type} [Scalar N]

mutual

/-- The value with all numbers in canonical form. -/
def canonical : Value N → Value N
  | .number x => .number (Scalar.canonical x)
  | .object fields => .object (canonicalFields fields)
  | .array items => .array (canonicalItems items)
  | .null => .null
  | .boolean b => .boolean b
  | .string s => .string s
  | .color c => .color c

def canonicalItems : List (Value N) → List (Value N)
  | [] => []
  | item :: rest => canonical item :: canonicalItems rest

def canonicalFields : List (String × Value N) → List (String × Value N)
  | [] => []
  | (name, value) :: rest => (name, canonical value) :: canonicalFields rest

end

/-! ## Types and JSON forms -/

mutual

theorem type_canonical : ∀ v : Value N, v.canonical.type = v.type
  | .array items => by
    rw [canonical, type, type, itemTypes_canonical, length_canonicalItems]
  | .null | .boolean _ | .number _ | .string _ | .color _ | .object _ => rfl

theorem itemTypes_canonical : ∀ items : List (Value N),
    itemTypes (canonicalItems items) = itemTypes items
  | [] => rfl
  | item :: rest => by
    rw [canonicalItems, itemTypes, itemTypes, type_canonical item, itemTypes_canonical rest]

theorem length_canonicalItems : ∀ items : List (Value N),
    (canonicalItems items).length = items.length
  | [] => rfl
  | _ :: rest => congrArg (· + 1) (length_canonicalItems rest)

end

mutual

/-- The canonical form is written in the same way. -/
theorem toJson_canonical [LawfulEq N] : ∀ v : Value N, v.canonical.toJson = v.toJson
  | .number x => Json.ofNumber_canonical x
  | .object fields => congrArg Json.object (toFields_canonical fields)
  | .array items => congrArg Json.array (toItems_canonical items)
  | .null | .boolean _ | .string _ | .color _ => rfl

theorem toItems_canonical [LawfulEq N] : ∀ items : List (Value N),
    toItems (canonicalItems items) = toItems items
  | [] => rfl
  | item :: rest => by
    rw [canonicalItems, toItems, toItems, toJson_canonical item, toItems_canonical rest]

theorem toFields_canonical [LawfulEq N] : ∀ fields : List (String × Value N),
    toFields (canonicalFields fields) = toFields fields
  | [] => rfl
  | (name, value) :: rest => by
    rw [canonicalFields, toFields, toFields, toJson_canonical value, toFields_canonical rest]

end

/-! ## Reading back -/

/-- Whether the JSON form of a value is a literal that stands for its canonical form, and the value
equals that. -/
structure ReadsBack (v : Value N) : Prop where
  read : ofJson v.toJson = v.canonical
  safe : v.toJson.isSafe = true
  same : (v == v.canonical) = true

theorem readsBack_number [LawfulEq N] {x : N} (hx : Scalar.isSafe x = true) :
    (Value.number x).ReadsBack := by
  have hfinite := LawfulEq.isFinite_of_isSafe hx
  have hbeq := Scalar.beq_canonical hfinite
  have hsafe : Scalar.isSafe (Scalar.canonical x) = true := by rw [← LawfulEq.isSafe_congr hbeq, hx]
  refine ⟨?_, ?_, hbeq⟩
  · show ofJson (Json.ofNumber x) = .number (Scalar.canonical x)
    obtain ⟨n, hn, hvalue⟩ | ⟨hn, hvalue⟩ := Json.ofNumber_cases hfinite
    · rw [hn, hvalue, ofJson]
    · rw [hn, hvalue, ofJson]
  · show (Json.ofNumber x).isSafe = true
    obtain ⟨n, hn, hvalue⟩ | ⟨hn, hvalue⟩ := Json.ofNumber_cases hfinite
    · rw [hvalue] at hsafe
      rw [hn, Json.isSafe, hsafe]
    · rw [hn, Json.isSafe, hx]

theorem readsBack_array {items : List (Value N)} (h : ∀ v ∈ items, v.ReadsBack) :
    (Value.array items).ReadsBack := by
  have hitems : ofItems (toItems items) = canonicalItems items ∧
      Json.itemsSafe (toItems items) = true ∧ sameItems items (canonicalItems items) = true := by
    induction items with
    | nil => exact ⟨rfl, rfl, rfl⟩
    | cons v rest ih =>
      rw [List.forall_mem_cons] at h
      obtain ⟨hread, hsafe, hsame⟩ := h.1
      obtain ⟨ihread, ihsafe, ihsame⟩ := ih h.2
      refine ⟨?_, ?_, ?_⟩
      · rw [toItems, ofItems, hread, ihread, canonicalItems]
      · rw [toItems, Json.itemsSafe, hsafe, ihsafe, Bool.and_true]
      · exact Bool.and_eq_true_iff.mpr ⟨hsame, ihsame⟩
  obtain ⟨hread, hsafe, hsame⟩ := hitems
  exact ⟨congrArg Value.array hread, hsafe, hsame⟩

theorem readsBack_object {fields : List (String × Value N)} (h : ∀ f ∈ fields, f.2.ReadsBack) :
    (Value.object fields).ReadsBack := by
  have hfields : ofFields (toFields fields) = canonicalFields fields ∧
      Json.fieldsSafe (toFields fields) = true ∧
        sameFields fields (canonicalFields fields) = true := by
    induction fields with
    | nil => exact ⟨rfl, rfl, rfl⟩
    | cons f rest ih =>
      rw [List.forall_mem_cons] at h
      obtain ⟨hread, hsafe, hsame⟩ := h.1
      obtain ⟨ihread, ihsafe, ihsame⟩ := ih h.2
      refine ⟨?_, ?_, ?_⟩
      · rw [toFields, ofFields, hread, ihread, canonicalFields]
      · rw [toFields, Json.fieldsSafe, hsafe, ihsafe, Bool.and_true]
      · rw [canonicalFields, sameFields, ihsame, Bool.and_true, Bool.and_eq_true]
        exact ⟨beq_self_eq_true _, hsame⟩
  obtain ⟨hread, hsafe, hsame⟩ := hfields
  exact ⟨congrArg Value.object hread, hsafe, hsame⟩

mutual

/-- What a literal stands for reads back. -/
theorem readsBack_ofJson [LawfulEq N] : ∀ raw : Json N, raw.isSafe = true → (ofJson raw).ReadsBack
  | .null, _ => ⟨rfl, rfl, rfl⟩
  | .boolean b, _ => ⟨rfl, rfl, beq_self_eq_true b⟩
  | .integer _, h => readsBack_number h
  | .real _, h => readsBack_number h
  | .string s, _ => ⟨rfl, rfl, beq_self_eq_true s⟩
  | .array items, h => readsBack_array (readsBack_ofItems items h)
  | .object fields, h => readsBack_object (readsBack_ofFields fields h)

theorem readsBack_ofItems [LawfulEq N] : ∀ items : List (Json N), Json.itemsSafe items = true →
    ∀ v ∈ ofItems items, v.ReadsBack
  | [], _ => fun _ hv => absurd hv List.not_mem_nil
  | item :: rest, h => by
    obtain ⟨hitem, hrest⟩ := Bool.and_eq_true_iff.mp h
    exact List.forall_mem_cons.mpr ⟨readsBack_ofJson item hitem, readsBack_ofItems rest hrest⟩

theorem readsBack_ofFields [LawfulEq N] :
    ∀ fields : List (String × Json N), Json.fieldsSafe fields = true →
    ∀ f ∈ ofFields fields, f.2.ReadsBack
  | [], _ => fun _ hf => absurd hf List.not_mem_nil
  | (_, value) :: rest, h => by
    obtain ⟨hvalue, hrest⟩ := Bool.and_eq_true_iff.mp h
    exact List.forall_mem_cons.mpr ⟨readsBack_ofJson value hvalue, readsBack_ofFields rest hrest⟩

end

end MapStyle.Value
