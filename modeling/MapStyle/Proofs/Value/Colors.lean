import MapStyle.Feature
import MapStyle.Value.Access

/-!
# The colors in a value

`Value.colors` lists the colors that occur anywhere in a value, and `Value.InRange` says that all of
them are in range. Arrays and objects have the colors of their parts; plain data has none.
-/

namespace MapStyle

variable {N : Type}

namespace Value

mutual

/-- The colors anywhere in a value. -/
def colors : Value N → List (Color N)
  | .color c => [c]
  | .object fields => fieldColors fields
  | .array items => itemColors items
  | .null | .boolean _ | .number _ | .string _ => []

/-- The colors anywhere in the items of an array. -/
def itemColors : List (Value N) → List (Color N)
  | [] => []
  | item :: rest => colors item ++ itemColors rest

/-- The colors anywhere in the fields of an object. -/
def fieldColors : List (String × Value N) → List (Color N)
  | [] => []
  | (_, value) :: rest => colors value ++ fieldColors rest

end

theorem itemColors_eq (items : List (Value N)) : itemColors items = items.flatMap colors := by
  induction items with
  | nil => rfl
  | cons item rest ih => rw [itemColors, ih, List.flatMap_cons]

theorem fieldColors_eq (fields : List (String × Value N)) :
    fieldColors fields = fields.flatMap (·.2.colors) := by
  induction fields with
  | nil => rfl
  | cons field rest ih => rw [fieldColors, ih, List.flatMap_cons]

variable [Scalar N]

mutual

/-- Plain data has no colors. -/
theorem colors_ofJson : ∀ raw : Json N, (ofJson raw).colors = []
  | .null | .boolean _ | .integer _ | .real _ | .string _ => rfl
  | .array items => itemColors_ofItems items
  | .object fields => fieldColors_ofFields fields

theorem itemColors_ofItems : ∀ items : List (Json N), itemColors (ofItems items) = []
  | [] => rfl
  | item :: rest => by
    rw [ofItems, itemColors, colors_ofJson item, itemColors_ofItems rest, List.append_nil]

theorem fieldColors_ofFields :
    ∀ fields : List (String × Json N), fieldColors (ofFields fields) = []
  | [] => rfl
  | (name, value) :: rest => by
    rw [ofFields, fieldColors, colors_ofJson value, fieldColors_ofFields rest, List.append_nil]

end

/-! ## Values with colors in range -/

/-- Whether every color anywhere in a value is in range. -/
def InRange (v : Value N) : Prop := ∀ c ∈ v.colors, c.inRange = true

theorem inRange_of_colors_eq_nil {v : Value N} (h : v.colors = []) : v.InRange := by
  intro c hc
  rw [h] at hc
  cases hc

theorem inRange_of_isPrimitive {v : Value N} (h : v.isPrimitive = true) : v.InRange := by
  refine inRange_of_colors_eq_nil ?_
  cases v with
  | color | object | array => cases h
  | _ => rfl

theorem inRange_color {c : Color N} : (Value.color c).InRange ↔ c.inRange = true :=
  List.forall_mem_singleton

theorem inRange_array {items : List (Value N)} :
    (Value.array items).InRange ↔ ∀ v ∈ items, v.InRange := by
  unfold InRange
  rw [colors, itemColors_eq, List.forall_mem_flatMap]

theorem inRange_object {fields : List (String × Value N)} :
    (Value.object fields).InRange ↔ ∀ field ∈ fields, field.2.InRange := by
  unfold InRange
  rw [colors, fieldColors_eq, List.forall_mem_flatMap]

end Value

variable [Scalar N]

/-- Whether every color anywhere in a feature's values is in range. -/
structure Feature.InRange (feature : Feature N) : Prop where
  properties : (Value.object feature.properties).InRange
  id : feature.id.InRange

/-- Whether every color that an expression can read is in range. -/
structure Env.InRange (env : Env N) : Prop where
  feature : env.feature.InRange
  scope : ∀ binding ∈ env.scope, binding.2.InRange

theorem Env.InRange.bind {env : Env N} (h : env.InRange) {bindings : List (String × Value N)}
    (hbindings : ∀ binding ∈ bindings, binding.2.InRange) : (env.bind bindings).InRange where
  feature := h.feature
  scope := by
    intro binding hbinding
    rcases List.mem_append.mp hbinding with hnew | hold
    · exact hbindings binding (List.mem_reverse.mp hnew)
    · exact h.scope binding hold

end MapStyle
