import MapStyle.Proofs.Color.Css
import MapStyle.Proofs.Operator.Soundness
import MapStyle.Proofs.Value.Colors

/-!
# Operators keep colors in range

An operator takes the colors of its result from its operands or from the feature, or makes one from a
text or from channels. So its result has colors in range where those of the operands and the feature
are (`Operator.apply_inRange`).
-/

namespace MapStyle

variable {N : Type} [Scalar N]

namespace Operand

variable {operands : List (Value N)} {i : Nat}

theorem inRange_get? (h : ∀ w ∈ operands, w.InRange) {v : Value N} (hv : get? operands i = some v) :
    v.InRange :=
  h v (List.mem_of_getElem? hv)

theorem inRange_items (h : ∀ w ∈ operands, w.InRange) {items : List (Value N)}
    (hitems : Operand.items operands i = .ok items) : ∀ w ∈ items, w.InRange := by
  unfold Operand.items at hitems
  split at hitems
  · next array hget =>
    cases hitems
    exact Value.inRange_array.mp (inRange_get? h hget)
  · cases hitems

end Operand

namespace Value

theorem inRange_of_lookup {fields : List (String × Value N)} (h : (Value.object fields).InRange)
    {key : String} {v : Value N} (hv : fields.lookup key = some v) : v.InRange :=
  inRange_object.mp h (key, v) (mem_of_lookup_eq_some hv)

theorem inRange_of_property {properties : Properties N} (h : (Value.object properties).InRange)
    {key : String} {v : Value N} (hv : property properties key = .ok v) : v.InRange := by
  unfold property at hv
  split at hv
  · next w hw =>
    cases hv
    exact inRange_of_lookup h hw
  · cases hv

theorem inRange_of_atKey {object v : Value N} (h : object.InRange) {key : String}
    {name : Option String} (hv : object.atKey key name = .ok v) : v.InRange := by
  unfold atKey at hv
  split at hv
  · split at hv
    · next w hw =>
      cases hv
      exact inRange_of_lookup h hw
    · cases hv
  · cases hv
  · cases hv

end Value

namespace Operator

/-- A step that ends in primitive values yields no colors. -/
theorem inRange_of_primitive {α : Type} {x : Outcome N α} {f : α → Value N}
    (hf : ∀ a, (f a).isPrimitive = true) {v : Value N} (h : (do return f (← x)) = .ok v) :
    v.InRange := by
  obtain ⟨a, -, h⟩ := Outcome.bind_eq_ok h
  cases h
  exact Value.inRange_of_isPrimitive (hf a)

omit [Scalar N] in
/-- An assertion passes on one of its operands. -/
theorem mem_of_firstOfType {t : Ty} {operands : List (Value N)} {v : Value N}
    (h : firstOfType t operands = .ok v) : v ∈ operands := by
  fun_induction firstOfType t operands with
  | case1 => cases h
  | case2 last =>
    obtain ⟨rfl, -⟩ := (last.assertType_yields t).of_ok h
    exact List.mem_singleton.mpr rfl
  | case3 w rest hrest hle =>
    cases h
    exact List.mem_cons_self
  | case4 w rest hrest hle ih => exact List.mem_cons_of_mem _ (ih h)

variable [ExactScalar N]

theorem inRange_of_firstColor {operands : List (Value N)} (hoperands : ∀ w ∈ operands, w.InRange)
    {c : Color N} (h : firstColor operands = .ok c) : c.inRange = true := by
  fun_induction firstColor operands with
  | case1 => cases h
  | case2 v rest here c' hhere =>
    cases h
    cases v with
    | color c' =>
      obtain rfl : c' = c := Except.ok.inj hhere
      exact Value.inRange_color.mp (hoperands _ List.mem_cons_self)
    | string s => exact Color.inRange_of_ofText hhere
    | _ =>
      have herror : Except.error _ = Except.ok c := hhere
      cases herror
  | case3 => cases h
  | case4 v rest _ _ _ _ ih => exact ih (List.forall_mem_cons.mp hoperands).2 h

theorem apply_inRange (op : Operator) {env : Env N} (henv : env.feature.InRange)
    {operands : List (Value N)} (hoperands : ∀ w ∈ operands, w.InRange) {v : Value N}
    (h : op.apply env operands = .ok v) : v.InRange := by
  cases op with
  | constant | typeOf | toBoolean | geometryType | equal | unequal =>
    cases h
    exact Value.inRange_of_isPrimitive rfl
  | assertion kind => exact hoperands v (mem_of_firstOfType h)
  | toText | toNumber | zoom | sum | product | math | least | greatest | order | not | and | or
  | upper | lower | concat => exact inRange_of_primitive (fun _ => rfl) h
  | divide | remainder | power =>
    obtain ⟨a, -, h⟩ := Outcome.bind_eq_ok h
    exact inRange_of_primitive (fun _ => rfl) h
  | toChannels =>
    obtain ⟨c, -, h⟩ := Outcome.bind_eq_ok h
    cases h
    refine Value.inRange_array.mpr fun w hw => ?_
    obtain ⟨x, -, rfl⟩ := List.mem_map.mp hw
    exact Value.inRange_of_isPrimitive rfl
  | toColor =>
    obtain ⟨c, hc, h⟩ := Outcome.bind_eq_ok h
    cases h
    exact Value.inRange_color.mpr (inRange_of_firstColor hoperands hc)
  | rgb =>
    obtain ⟨r, -, h⟩ := Outcome.bind_eq_ok h
    obtain ⟨g, -, h⟩ := Outcome.bind_eq_ok h
    obtain ⟨b, -, h⟩ := Outcome.bind_eq_ok h
    obtain ⟨c, hc, h⟩ := Outcome.bind_eq_ok h
    cases h
    exact Value.inRange_color.mpr (Color.inRange_of_ofChannels hc)
  | rgba =>
    obtain ⟨r, -, h⟩ := Outcome.bind_eq_ok h
    obtain ⟨g, -, h⟩ := Outcome.bind_eq_ok h
    obtain ⟨b, -, h⟩ := Outcome.bind_eq_ok h
    obtain ⟨a, -, h⟩ := Outcome.bind_eq_ok h
    obtain ⟨c, hc, h⟩ := Outcome.bind_eq_ok h
    cases h
    exact Value.inRange_color.mpr (Color.inRange_of_ofChannels hc)
  | get =>
    obtain ⟨key, -, h⟩ := Outcome.bind_eq_ok h
    split at h
    · next object hobject => exact Value.inRange_of_atKey (Operand.inRange_get? hoperands hobject) h
    · exact Value.inRange_of_property henv.properties h
  | has =>
    obtain ⟨key, -, h⟩ := Outcome.bind_eq_ok h
    split at h
    · exact inRange_of_primitive (fun _ => rfl) h
    · cases h
      exact Value.inRange_of_isPrimitive rfl
  | item =>
    obtain ⟨index, -, h⟩ := Outcome.bind_eq_ok h
    obtain ⟨items, hitems, h⟩ := Outcome.bind_eq_ok h
    exact Operand.inRange_items hoperands hitems v ((Value.itemAt_yields index items).of_ok h)
  | length =>
    unfold apply at h
    dsimp only at h
    split at h
    · cases h
      exact Value.inRange_of_isPrimitive rfl
    · cases h
      exact Value.inRange_of_isPrimitive rfl
    · cases h
  | contains =>
    unfold apply at h
    dsimp only at h
    split at h
    · exact inRange_of_primitive (fun _ => rfl) h
    · cases h
  | properties =>
    cases h
    exact henv.properties
  | id =>
    cases h
    exact henv.id
  | minus =>
    unfold apply at h
    dsimp only at h
    split at h
    · exact inRange_of_primitive (fun _ => rfl) h
    · obtain ⟨a, -, h⟩ := Outcome.bind_eq_ok h
      exact inRange_of_primitive (fun _ => rfl) h
  | raise =>
    obtain ⟨message, -, h⟩ := Outcome.bind_eq_ok h
    cases h

end Operator

end MapStyle
