import MapStyle.Proofs.Evaluation.Answer
import MapStyle.Proofs.Expr.Constancy
import MapStyle.Proofs.Parse.Errors
import MapStyle.Proofs.Parse.Inversion
import MapStyle.Proofs.Property.ZoomCurve

/-!
# Constants of a style property

A style value is a constant that the property accepts (`PropertySpec.Accepts`) if it is no definition,
not null, and gives a style function. `Stands` says of a raw value that, wherever it is read where a
value of a type is asked for, it stands for an expression that does not depend on the zoom and has the
given reply to some calls. The raw expression of an accepted constant stands with the reply of the
constant by itself to all calls (`stands_constant`), so it has this reply also as an output of a curve
and as a fallback. What the raw expression of a constant spells is a literal, or for a color the
conversion of what the value spells (`PropertySpec.literal_or_toColor_of_spells_constant`).
-/

namespace MapStyle

variable {N : Type}

/-- What is answered at a zoom for the properties of a feature. -/
abbrev Reply (N : Type) := Option N → Properties N → Option (Value N)

/-- Calls of a style function, told by the zoom and the properties. -/
abbrev Calls (N : Type) := Option N → Properties N → Prop

/-! ## Curves over the zoom -/

namespace Expr

theorem isZoomConstant_iff {e : Expr N} : e.isZoomConstant = true ↔
    e.dependency ≠ .zoom ∧ ∀ c ∈ e.children, c.isZoomConstant = true := by
  unfold isZoomConstant
  simp only [Bool.not_eq_true']
  exact dependsOn_eq_false_iff

theorem zoomCurvesIn_eq_flatMap (args : List (Expr N)) :
    zoomCurvesIn args = args.flatMap zoomCurves :=
  eq_flatMap_of_cons rfl (fun _ _ => rfl) args

theorem zoomCurves_eq_nil {e : Expr N} (h : e.isZoomConstant = true) : e.zoomCurves = [] := by
  induction e using induction_on_children with
  | h e ih =>
    obtain ⟨-, hchild⟩ := isZoomConstant_iff.mp h
    cases e with
    | curve key type kind input stops =>
      unfold zoomCurves
      refine if_neg fun hinput => ?_
      obtain ⟨hnode, -⟩ := isZoomConstant_iff.mp (hchild input List.mem_cons_self)
      cases input with
      | apply _ _ op _ => cases op with
        | zoom => exact hnode rfl
        | _ => cases hinput
      | _ => cases hinput
    | letIn key bindings result =>
      have hresult : result ∈ (letIn key bindings result).children :=
        List.mem_append_right _ (List.mem_singleton.mpr rfl)
      exact ih result hresult (hchild result hresult)
    | coalesce key type args =>
      show zoomCurvesIn args = []
      rw [zoomCurvesIn_eq_flatMap, List.flatMap_eq_nil_iff]
      exact fun arg harg => ih arg harg (hchild arg harg)
    | _ => rfl

end Expr

/-- Whether a tree does not depend on the zoom, or has one curve over it. -/
def Expr.FitsZoom (e : Expr N) : Prop :=
  e.isZoomConstant = true ∨ ∃ curve, e.zoomCurves = [curve]

namespace StyleFunction

theorem exists_ofExpr {e : Expr N} (h : e.FitsZoom) : ∃ f, ofExpr e = .ok f ∧ f.expression = e := by
  cases hconstant : e.isZoomConstant with
  | true => exact ⟨⟨e, none⟩, ofExpr_eq_ok_iff.mpr ⟨rfl, .inl ⟨hconstant, rfl⟩⟩, rfl⟩
  | false =>
    obtain ⟨curve, hcurve⟩ := h.resolve_left (Bool.eq_false_iff.mp hconstant)
    exact ⟨⟨e, some curve⟩, ofExpr_eq_ok_iff.mpr ⟨rfl, .inr ⟨hconstant, curve, rfl, hcurve⟩⟩, rfl⟩

/-- A tree without curves over the zoom does not depend on the zoom if it is that of a function. -/
theorem isZoomConstant_of_ofExpr {e : Expr N} {f : StyleFunction N} (hf : ofExpr e = .ok f)
    (hcurves : e.zoomCurves = []) : e.isZoomConstant = true := by
  obtain ⟨-, ⟨hconstant, -⟩ | ⟨-, curve, -, hcurve⟩⟩ := ofExpr_eq_ok_iff.mp hf
  · exact hconstant
  · rw [hcurves] at hcurve
    cases hcurve

variable [Scalar N]

theorem value_evaluate (f : StyleFunction N) (warned : List String) (zoom : Option N)
    (properties : Properties N) :
    (f.evaluate warned zoom properties).1.value = answer (f.outcome zoom properties) := by
  unfold evaluate
  split
  next h => rw [h]; rfl
  next v hne h =>
    rw [h]
    exact (answer_ok (by cases v <;> first | rfl | exact absurd rfl hne)).symm
  next failure h =>
    rw [h]
    dsimp only
    split <;> rfl

end StyleFunction

/-! ## Accepted constants -/

section

variable [Scalar N]

namespace PropertySpec

/-- Whether a style value is a constant of the property: not null, no definition, and one that gives
a style function. -/
def Accepts (spec : PropertySpec N) (value : Json N) : Prop :=
  value.isNull = false ∧ Definition.isDefinition value = false ∧
    ∃ f, StyleFunction.ofJson spec value = .ok f

/-- What the style function of a constant answers. -/
def reply (spec : PropertySpec N) (value : Json N) : Reply N := fun zoom properties =>
  match StyleFunction.ofJson spec value with
  | .ok f => (f.evaluate [] zoom properties).1.value
  | .error _ => none

/-- What the style function of the default answers, where one is declared. -/
def defaultReply (spec : PropertySpec N) : Reply N := fun zoom properties =>
  spec.default.bind fun value => spec.reply value zoom properties

variable {spec : PropertySpec N} {value : Json N}

omit [Scalar N] in
theorem isNull_constant (h : value.isNull = false) : (spec.constant value).isNull = false := by
  unfold constant
  split
  · cases h
  · split
    · rfl
    · split
      · rfl
      · rfl
      · exact h

omit [Scalar N] in
/-- The constant that a style value gives a property: the value, or the default where it is null. -/
def given (spec : PropertySpec N) (raw : Json N) : Option (Json N) :=
  if raw.isNull then spec.default else some raw

theorem source_of_isDefinition_eq_false (h : Definition.isDefinition value = false) :
    StyleFunction.source spec value = .ok ((spec.given value).elim
      (.call "error" [.string "No default property value available"]) spec.constant) := by
  unfold StyleFunction.source
  rw [h, if_neg Bool.false_ne_true]
  cases hnull : value.isNull with
  | true =>
    obtain rfl : value = .null := by
      cases value with
      | null => rfl
      | _ => cases hnull
    show Except.ok spec.defaultExpression = _
    unfold defaultExpression given
    cases spec.default <;> rfl
  | false =>
    have hne : (spec.constant value).isNull = false := isNull_constant hnull
    unfold given
    rw [hnull, if_neg Bool.false_ne_true]
    split
    next heq =>
      rw [heq] at hne
      cases hne
    next => rfl

theorem source_of_accepts (h : spec.Accepts value) :
    StyleFunction.source spec value = .ok (spec.constant value) := by
  rw [source_of_isDefinition_eq_false h.2.1, given, h.1]
  rfl

/-! ## Expressions of constants -/

section

open Parse

variable {c : Context} {e : Expr N}

/-- A color is converted from the expression that its value spells. -/
theorem exists_of_spells_toColor (h : Spells c (.call "to-color" [value]) e) : ∃ arg,
    Spells (c.child 1 (some .value)) value arg ∧ e = .apply c.key .color .toColor [arg] := by
  have hcall : Spells c (.call Operator.toColor.symbol [value]) e := h
  obtain ⟨args, type, hlen, hargs, htype, -, rfl⟩ := spells_operator_iff.mp hcall
  obtain ⟨arg, rfl⟩ := List.length_eq_one_iff.mp hlen
  obtain ⟨overload, -, bound, -, -, rfl⟩ := Signature.resolve?_sound htype
  exact ⟨arg, hargs 0 value arg rfl rfl, rfl⟩

/-- A constant is a literal, or for a color the conversion of what its value spells. -/
theorem literal_or_toColor_of_spells_constant (h : Spells c (spec.constant value) e) :
    (∃ type v, e = .literal c.key type v) ∨ spec.kind = .color ∧ ∃ arg,
      Spells (c.child 1 (some .value)) value arg ∧ e = .apply c.key .color .toColor [arg] := by
  have hquoted : ∀ {raw : Json N}, Spells c (.call "literal" [raw]) e →
      ∃ type v, e = .literal c.key type v := by
    intro raw hraw
    obtain ⟨-, -, he⟩ := spells_literal_iff.mp hraw
    exact ⟨_, _, he⟩
  unfold constant at h
  split at h
  · exact .inl ⟨_, _, h.eq_literal rfl⟩
  · split at h
    next hkind => exact .inr ⟨hkind, exists_of_spells_toColor h⟩
    next =>
      split at h
      · exact .inl (hquoted h)
      · exact .inl (hquoted h)
      next harray _ =>
        refine .inl ⟨_, _, h.eq_literal ?_⟩
        cases value with
        | array items => exact absurd rfl (harray items)
        | _ => rfl

/-- A constant is no curve. -/
theorem zoomCurves_of_spells_constant (h : Spells c (spec.constant value) e) :
    e.zoomCurves = [] := by
  obtain ⟨type, v, rfl⟩ | ⟨-, arg, -, rfl⟩ := literal_or_toColor_of_spells_constant h
  · rfl
  · rfl

end

end PropertySpec

/-! ## Constants where values stand -/

/-- The numbers that are read can be compared: the zoom and the properties that are numbers are
numbers. -/
structure Comparable (zoom : Option N) (properties : Properties N) : Prop where
  zoom (x : N) (h : zoom = some x) : (x == x) = true
  property (name : String) (x : N) (h : properties.lookup name = some (.number x)) : (x == x) = true

/-- Whether an expression has the reply to the calls. -/
def Expr.HasReply (calls : Calls N) (e : Expr N) (reply : Reply N) : Prop :=
  ∀ zoom properties, calls zoom properties →
    answer (e.eval (StyleFunction.environment zoom properties)) = reply zoom properties

/-- Wherever a value of the type is asked for, the raw value stands for an expression that does not
depend on the zoom and has the reply to the calls. -/
def Stands (calls : Calls N) (type : Ty) (raw : Json N) (reply : Reply N) : Prop :=
  ∀ key : Path, ∃ e, Parse.Spells ⟨key, some type, []⟩ raw e ∧ e.isZoomConstant = true ∧
    e.HasReply calls reply

variable {spec : PropertySpec N} {value : Json N} {calls : Calls N}

/-- The raw expression of an accepted constant has the reply of the constant. -/
theorem stands_constant (h : spec.Accepts value) :
    Stands calls spec.expectedType (spec.constant value) (spec.reply value) := by
  intro key
  obtain ⟨f, hf⟩ := h.2.2
  obtain ⟨written, e, hwritten, hparse, hfit⟩ := StyleFunction.ofJson_eq_ok_iff.mp hf
  rw [PropertySpec.source_of_accepts h] at hwritten
  obtain rfl := Except.ok.inj hwritten
  have hspells := Expr.parse_eq_ok_iff.mp hparse
  have hconstant : e.isZoomConstant = true :=
    StyleFunction.isZoomConstant_of_ofExpr hfit (PropertySpec.zoomCurves_of_spells_constant hspells)
  refine ⟨_, hspells.atKey key, ?_, fun zoom properties _ => ?_⟩
  · unfold Expr.isZoomConstant Expr.rekey
    rw [Expr.dependsOn_mapParts]
    exact hconstant
  · unfold PropertySpec.reply
    rw [Expr.eval_rekey, hf]
    dsimp only
    rw [StyleFunction.value_evaluate, StyleFunction.outcome,
      (StyleFunction.ofExpr_eq_ok_iff.mp hfit).1]

/-- The expression of the default has the reply of the default, or none where none is declared. -/
theorem stands_default (h : ∀ value, spec.default = some value → spec.Accepts value) :
    Stands calls spec.expectedType spec.defaultExpression spec.defaultReply := by
  unfold PropertySpec.defaultExpression PropertySpec.defaultReply
  cases hdefault : spec.default with
  | some value => exact stands_constant (h value hdefault)
  | none =>
    intro key
    have hmessage : Parse.Spells (N := N) ⟨key ++ [1], some .string, []⟩
        (.string "No default property value available") (.literal (key ++ [1]) .string (.string
          "No default property value available")) :=
      .bare rfl rfl rfl (Context.accepts_expected rfl)
    exact ⟨_, Parse.Spells.unary .raise hmessage rfl fun expected _ => Ty.error_le expected,
      rfl, fun zoom properties _ => rfl⟩

end

end MapStyle
