import MapStyle.Binary64.Scalar
import MapStyle.Proofs.Property.Constant

/-!
# Functions of constants

A style value that is no definition is a constant. Its raw expression is a literal, or for a color a
conversion of the value, which is not quoted. So an array that is given for a color is read as an
expression, and may look at the feature (`StyleFunction.exists_constant_reads_property`). All other
constants give functions that depend on nothing, and none gives one that depends on the zoom
(`StyleFunction.isConstant_of_ofJson`).
-/

namespace MapStyle

open Parse

variable {N : Type} [Scalar N] {spec : PropertySpec N} {raw value : Json N} {c : Context} {e : Expr N}

/-! ## Raw expressions of constants -/

/-- A failure with a given message depends on nothing. -/
theorem isConstant_of_spells_error {message : String}
    (h : Spells c (.call "error" [.string message]) e) :
    e.isZoomConstant = true ∧ e.isFeatureConstant = true := by
  have hcall : Spells (N := N) c (.call Operator.raise.symbol [.string message]) e := h
  obtain ⟨args, type, hlen, hargs, -, -, rfl⟩ := spells_operator_iff.mp hcall
  obtain ⟨arg, rfl⟩ := List.length_eq_one_iff.mp hlen
  obtain rfl := (hargs 0 (.string message) arg rfl rfl).eq_literal rfl
  exact ⟨rfl, rfl⟩

/-- A constant depends on nothing in the feature, or is an array that is converted to a color as the
expression that it spells. -/
theorem isFeatureConstant_or_of_spells_constant (h : Spells c (spec.constant value) e) :
    e.isFeatureConstant = true ∨ spec.kind = .color ∧ ∃ items arg, value = .array items ∧
      Spells (c.child 1 (some .value)) (.array items) arg ∧
      e = .apply c.key .color .toColor [arg] := by
  obtain ⟨type, v, rfl⟩ | ⟨hkind, arg, harg, rfl⟩ :=
    PropertySpec.literal_or_toColor_of_spells_constant h
  · exact .inl rfl
  · cases value with
    | array items => exact .inr ⟨hkind, items, arg, rfl, harg, rfl⟩
    | _ =>
      obtain rfl := harg.eq_literal rfl
      exact .inl rfl

/-! ## Functions -/

namespace StyleFunction

variable {f : StyleFunction N}

/-- Calls with one outcome have one answer. -/
theorem evaluate_congr {zoom zoom' : Option N} {properties properties' : Properties N}
    (h : f.outcome zoom properties = f.outcome zoom' properties') (warned : List String) :
    f.evaluate warned zoom properties = f.evaluate warned zoom' properties' := by
  unfold evaluate
  rw [h]

/-- What a constant is parsed to. -/
theorem isConstant_of_spells_given (hf : ofExpr e = .ok f)
    (h : Spells c ((spec.given raw).elim
      (.call "error" [.string "No default property value available"]) spec.constant) e) :
    e.isZoomConstant = true ∧ (e.isFeatureConstant = true ∨ spec.kind = .color ∧ ∃ items arg,
      spec.given raw = some (.array items) ∧ Spells (c.child 1 (some .value)) (.array items) arg ∧
      e = .apply c.key .color .toColor [arg]) := by
  cases hgiven : spec.given raw with
  | none =>
    rw [hgiven] at h
    obtain ⟨hzoom, hfeature⟩ := isConstant_of_spells_error h
    exact ⟨hzoom, .inl hfeature⟩
  | some value =>
    rw [hgiven] at h
    refine ⟨isZoomConstant_of_ofExpr hf (PropertySpec.zoomCurves_of_spells_constant h), ?_⟩
    obtain hfeature | ⟨hkind, items, arg, rfl, harg, rfl⟩ :=
      isFeatureConstant_or_of_spells_constant h
    · exact .inl hfeature
    · exact .inr ⟨hkind, items, arg, rfl, harg, rfl⟩

/-- The function of a style value that is no definition does not depend on the zoom. It does not depend
on the feature either, and so gives all calls one answer, unless the value, or the default in its place,
is an array for a color: then the function converts what the array spells as an expression. -/
theorem isConstant_of_ofJson (hconstant : Definition.isDefinition raw = false)
    (hf : ofJson spec raw = .ok f) :
    f.expression.isZoomConstant = true ∧
    (f.expression.isFeatureConstant = true ∨ spec.kind = .color ∧ ∃ items arg,
      spec.given raw = some (.array items) ∧
      (Expr.parser (.array items) ⟨[1], some .value, []⟩).result = some arg ∧
      f.expression = .apply [] .color .toColor [arg]) ∧
    ∀ zoom zoom' properties properties',
      (f.expression.isFeatureConstant = true ∨ properties = properties') →
      ∀ warned, f.evaluate warned zoom properties = f.evaluate warned zoom' properties' := by
  obtain ⟨written, e, hwritten, hparse, hfits⟩ := ofJson_eq_ok_iff.mp hf
  rw [PropertySpec.source_of_isDefinition_eq_false hconstant] at hwritten
  obtain rfl := Except.ok.inj hwritten
  obtain rfl := (ofExpr_eq_ok_iff.mp hfits).1
  obtain ⟨hzoom, hfeature⟩ := isConstant_of_spells_given hfits (Expr.parse_eq_ok_iff.mp hparse)
  obtain ⟨hsameFeature, hsameZoom⟩ := f.expression.eval_eq_of_isConstant []
  refine ⟨hzoom, hfeature.imp_right ?_, fun zoom zoom' properties properties' hsame warned => ?_⟩
  · rintro ⟨hkind, items, arg, hgiven, harg, he⟩
    exact ⟨hkind, items, arg, hgiven, Expr.parser_result_iff.mpr harg, he⟩
  · refine evaluate_congr ?_ warned
    calc f.outcome zoom properties
      _ = f.outcome zoom' properties := hsameZoom hzoom _ zoom zoom'
      _ = f.outcome zoom' properties' := by
        rcases hsame with hfeature | rfl
        · exact hsameFeature hfeature zoom' _ _
        · rfl

/-- An array that reads like an expression is quoted for an array property, so it is given as it is. -/
theorem isConstant_of_ofJson_array : ∃ f : StyleFunction Float,
    ofJson ⟨.array, none, none, none, none⟩ (.call "get" [.string "x"]) = .ok f ∧
      f.expression.isFeatureConstant = true ∧ f.expression.isZoomConstant = true ∧
      ∀ zoom properties, (f.evaluate [] zoom properties).1.value =
        some (.array [.string "get", .string "x"]) := by
  obtain ⟨f, hf, hvalue⟩ : ∃ f : StyleFunction Float,
      ofJson ⟨.array, none, none, none, none⟩ (.call "get" [.string "x"]) = .ok f ∧
        (f.evaluate [] none []).1.value = some (.array [.string "get", .string "x"]) := ⟨_, rfl, rfl⟩
  obtain ⟨hzoom, hfeature, hsame⟩ := isConstant_of_ofJson rfl hf
  have hconstant := hfeature.resolve_right nofun
  refine ⟨f, hf, hconstant, hzoom, fun zoom properties => ?_⟩
  rw [hsame zoom none properties [] (.inl hconstant) [], hvalue]

/-- An array that is given for a color is read as an expression, so it may look at the feature. -/
theorem exists_constant_reads_property : ∃ f : StyleFunction Float,
    Definition.isDefinition (N := Float) (.call "get" [.string "x"]) = false ∧
      ofJson ⟨.color, none, none, none, none⟩ (.call "get" [.string "x"]) = .ok f ∧
      f.expression.isFeatureConstant = false ∧
      (f.evaluate [] none [("x", .string "red")]).1.value.isSome = true ∧
      (f.evaluate [] none []).1.value = none :=
  ⟨_, rfl, rfl, rfl, rfl, rfl⟩

end StyleFunction

end MapStyle
