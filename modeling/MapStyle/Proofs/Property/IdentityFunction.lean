import MapStyle.Binary64.Scalar
import MapStyle.Proofs.Expr.ArrayCheck
import MapStyle.Proofs.Property.LegacyFunction

/-!
# What identity functions answer

An identity definition reads a property of the feature as a value of the style property, and falls back
on the default where it cannot (`StyleFunction.evaluate_identity`). A color property reads the colors
that strings name, and all others read the values of their type as they are.

Array properties are an exception in two ways. There is no check for arrays of colors, nor one for
arrays of a length whose items can be of any kind, so the identity definitions of such properties give
no function (`StyleFunction.exists_identity_refused`). And the check for arrays with items of a kind
refuses the empty array, so the default is answered in place of it
(`StyleFunction.exists_empty_array_passed_over`).
-/

namespace MapStyle

open Parse

variable {N : Type} [Scalar N] {spec : PropertySpec N} {calls : Calls N}

/-! ## Reading -/

/-- The color that a string names. -/
def Value.namedColor? : Value N → Option (Value N)
  | .string text => (Color.ofCss? text).map .color
  | _ => none

omit [Scalar N] in
/-- The value itself, if its type is a subtype of the one asked for. -/
def Value.narrow? (type : Ty) (v : Value N) : Option (Value N) :=
  if v.type ≤ type then some v else none

omit [Scalar N] in
/-- What a property of the feature is read as. -/
def readProperty (name : String) (read : Value N → Option (Value N)) : Reply N := fun _ properties =>
  (properties.lookup name).bind read

namespace PropertySpec

omit [Scalar N] in
/-- Whether an expression can check for the type of the property: of arrays, those with items of a kind,
and those of any length with any items. -/
def IsCheckable (spec : PropertySpec N) : Prop :=
  spec.kind = .array → spec.itemType.IsCheckable ∧ (spec.itemType = .value → spec.length = none)

/-- Whether the property reads a value as another. A color property reads a string as the color that it
names, and all others read a value of their type as itself. The empty array is read only where the items
can be of any kind. -/
inductive Reads (spec : PropertySpec N) : Value N → Value N → Prop
  | color {text : String} {color : Color N} (hkind : spec.kind = .color)
      (hcolor : Color.ofCss? text = some color) : Reads spec (.string text) (.color color)
  | self {v : Value N} (hkind : spec.kind ≠ .color) (hv : v.Belongs spec.expectedType)
      (hempty : v = .array [] → spec.itemType = .value) : Reads spec v v

/-- What the property reads a value as. -/
def read? (spec : PropertySpec N) : Value N → Option (Value N) :=
  if spec.kind = .color then Value.namedColor? else Value.narrow? spec.expectedType

omit [Scalar N] in
/-- A property that is neither for colors nor for arrays has values of a kind, which an identity function
asserts. -/
theorem exists_assertedKind (hcolor : spec.kind ≠ .color) (harray : spec.kind ≠ .array) :
    ∃ kind : AssertedKind, spec.expectedType = kind.type ∧ ∀ name, Definition.identity spec name =
      .call (Operator.assertion kind).symbol [.call "get" [.string name]] := by
  unfold expectedType Definition.identity
  cases hkind : spec.kind with
  | color => exact absurd hkind hcolor
  | array => exact absurd hkind harray
  | string => exact ⟨.string, rfl, fun _ => rfl⟩
  | enumeration => exact ⟨.string, rfl, fun _ => rfl⟩
  | number => exact ⟨.number, rfl, fun _ => rfl⟩
  | boolean => exact ⟨.boolean, rfl, fun _ => rfl⟩

omit [Scalar N] in
theorem expectedType_of_array (hkind : spec.kind = .array) :
    spec.expectedType = .array spec.itemType spec.length := by
  unfold expectedType
  rw [hkind]

omit [Scalar N] in
/-- The type of a value lies below that of the property where the value belongs to it, but for the empty
array. -/
theorem type_le_expectedType_iff (hcheckable : spec.IsCheckable) (hcolor : spec.kind ≠ .color)
    (v : Value N) : v.type ≤ spec.expectedType ↔
      v.Belongs spec.expectedType ∧ (v = .array [] → spec.itemType = .value) := by
  by_cases harray : spec.kind = .array
  · rw [expectedType_of_array harray]
    exact Value.type_le_array_iff (hcheckable harray).1 spec.length v
  · obtain ⟨kind, htype, -⟩ := exists_assertedKind hcolor harray
    rw [htype, Value.type_le_kind_iff]
    refine ⟨fun hv => ⟨hv, ?_⟩, And.left⟩
    rintro rfl
    have hkind := Value.type_eq_of_belongs hv
    cases kind <;> cases hkind

theorem read?_eq_some_iff (hcheckable : spec.IsCheckable) {v w : Value N} :
    spec.read? v = some w ↔ spec.Reads v w := by
  unfold read?
  by_cases hcolor : spec.kind = .color
  · rw [if_pos hcolor]
    constructor
    · intro h
      unfold Value.namedColor? at h
      split at h
      next text =>
        obtain ⟨color, htext, rfl⟩ := Option.map_eq_some_iff.mp h
        exact .color hcolor htext
      · cases h
    · rintro (⟨-, htext⟩ | ⟨hne, -, -⟩)
      · exact Option.map_eq_some_iff.mpr ⟨_, htext, rfl⟩
      · exact absurd hcolor hne
  · rw [if_neg hcolor, Value.narrow?, Option.ite_none_right_eq_some,
      type_le_expectedType_iff hcheckable hcolor]
    constructor
    · rintro ⟨⟨hv, hempty⟩, heq⟩
      obtain rfl := Option.some.inj heq
      exact .self hcolor hv hempty
    · rintro (⟨hkind, -⟩ | ⟨-, hv, hempty⟩)
      · exact absurd hkind hcolor
      · exact ⟨⟨hv, hempty⟩, rfl⟩

end PropertySpec

/-! ## Checks of a property -/

omit [Scalar N] in
/-- A check of a property for a type without null answers with the property where it is of the type. -/
theorem answer_assertType {type : Ty} (hnull : ¬ Ty.null ≤ type) (name : String) (zoom : Option N)
    (properties : Properties N) :
    answer ((Value.property properties name).bind fun v => v.assertType type none) =
      readProperty name (Value.narrow? type) zoom properties := by
  unfold Value.property readProperty
  cases properties.lookup name with
  | none => rfl
  | some v =>
    show answer (v.assertType type none) = v.narrow? type
    unfold Value.assertType Value.narrow?
    by_cases htype : v.type ≤ type
    · rw [if_pos htype, if_pos htype, answer_ok]
      cases v with
      | null => exact absurd htype hnull
      | _ => rfl
    · rw [if_neg htype, if_neg htype]
      rfl

theorem stands_assertedProperty (kind : AssertedKind) (name : String) :
    Stands calls kind.type (.call (Operator.assertion kind).symbol [.call "get" [.string name]])
      (readProperty (N := N) name (Value.narrow? kind.type)) := by
  intro key
  obtain ⟨e, hspells, -, hconstant, heval⟩ := exists_assertedProperty (N := N) kind name
    (c := ⟨key, some kind.type, []⟩) (Context.accepts_expected rfl)
  refine ⟨e, hspells, hconstant, fun zoom properties _ => ?_⟩
  rw [heval]
  exact answer_assertType (by cases kind <;> exact nofun) name zoom properties

theorem stands_arrayProperty {raws : List (Json N)} {item : Ty} {length : Option Nat}
    (hcheck : arrayCheck? raws = some (item, length)) (name : String) :
    Stands calls (.array item length) (.call "array" (raws ++ [.call "get" [.string name]]))
      (readProperty (N := N) name (Value.narrow? (.array item length))) := by
  intro key
  have hget := spells_get (N := N) name (c := ⟨key ++ [raws.length + 1], some .value, []⟩)
    (Context.accepts_expected rfl)
  refine ⟨_, .arrayOf hcheck hget (Context.accepts_expected rfl), rfl, fun zoom properties _ => ?_⟩
  rw [Expr.eval_arrayOf, Expr.eval_get]
  exact answer_assertType (fun h => Bool.false_ne_true h) name zoom properties

theorem Operator.firstColor_string (text : String) :
    firstColor [.string text] = (Color.ofText text : Outcome N (Color N)) := by
  unfold firstColor
  dsimp only
  cases (Color.ofText text : Outcome N (Color N)) <;> rfl

/-- The conversion of a string to a color answers with the color that the string names. -/
theorem answer_toColor (v : Value N) :
    answer ((v.assertType .string none).bind fun v =>
      (Operator.firstColor [v]).bind fun c => .ok (.color c)) = v.namedColor? := by
  cases v with
  | string text =>
    have hstring : (Value.string (N := N) text).assertType .string none = .ok (.string text) := rfl
    have hnamed : (Value.string (N := N) text).namedColor? = (Color.ofCss? text).map .color := rfl
    rw [hstring, hnamed]
    dsimp only [Except.bind]
    rw [Operator.firstColor_string]
    unfold Color.ofText
    cases Color.ofCss? (N := N) text <;> rfl
  | _ => rfl

theorem stands_colorProperty (name : String) :
    Stands calls .color (.call "to-color" [.call "string" [.call "get" [.string name]]])
      (readProperty (N := N) name Value.namedColor?) := by
  intro key
  obtain ⟨e, hspells, htype, hconstant, heval⟩ := exists_assertedProperty (N := N) .string name
    (c := ⟨key ++ [1], some .value, []⟩) (Context.accepts_value rfl .string)
  refine ⟨.apply key .color .toColor [e], .unary .toColor hspells (by rw [htype]; rfl)
    (Context.accepts_expected rfl), ?_, fun zoom properties _ => ?_⟩
  · exact Expr.isZoomConstant_iff.mpr ⟨nofun, List.forall_mem_singleton.mpr hconstant⟩
  · rw [Expr.eval_unary rfl, heval]
    unfold assertedProperty Value.property readProperty
    cases properties.lookup name with
    | none => rfl
    | some v => exact answer_toColor v

/-! ## Identity definitions -/

namespace Definition

/-- What a check for an array of the type of the property is given before its input. -/
def checkArguments (spec : PropertySpec N) : List (Json N) :=
  match spec.itemType with
  | .string | .number | .boolean =>
    .string spec.itemType.text :: (spec.length.map fun n => .integer n).toList
  | _ => []

omit [Scalar N] in
theorem identity_of_array (hkind : spec.kind = .array) (name : String) :
    identity spec name = .call "array" (checkArguments spec ++ [.call "get" [.string name]]) := by
  unfold identity checkArguments
  rw [hkind]
  cases spec.itemType with
  | string | number | boolean => cases spec.length <;> rfl
  | _ => rfl

omit [Scalar N] in
theorem arrayCheck?_checkArguments (hitem : spec.itemType.IsCheckable)
    (hlength : spec.itemType = .value → spec.length = none) :
    arrayCheck? (checkArguments spec) = some (spec.itemType, spec.length) := by
  obtain hvalue | ⟨kind, hkind⟩ := hitem
  · unfold checkArguments
    rw [hlength hvalue, hvalue]
    rfl
  · have hobject : kind ≠ .object := by
      rintro rfl
      unfold PropertySpec.itemType at hkind
      split at hkind <;> cases hkind
    unfold checkArguments
    rw [hkind]
    cases kind with
    | object => exact absurd rfl hobject
    | _ => cases spec.length <;> rfl

/-- The expression of an identity function stands with what the property reads. -/
theorem stands_identity (hcheckable : spec.IsCheckable) (name : String) :
    Stands calls spec.expectedType (identity spec name) (readProperty name spec.read?) := by
  unfold PropertySpec.read?
  by_cases hcolor : spec.kind = .color
  · rw [if_pos hcolor]
    unfold identity PropertySpec.expectedType
    rw [hcolor]
    exact stands_colorProperty name
  · rw [if_neg hcolor]
    by_cases harray : spec.kind = .array
    · obtain ⟨hitem, hlength⟩ := hcheckable harray
      rw [PropertySpec.expectedType_of_array harray, identity_of_array harray]
      exact stands_arrayProperty (arrayCheck?_checkArguments hitem hlength) name
    · obtain ⟨kind, htype, hraw⟩ := PropertySpec.exists_assertedKind hcolor harray
      rw [htype, hraw]
      exact stands_assertedProperty kind name

/-- An identity function of an array property is an expression of its type only where the type can be
checked. -/
theorem isCheckable_of_spells {c : Context} {e : Expr N} {name : String}
    (hexpected : c.expected = some spec.expectedType) (h : Spells c (identity spec name) e) :
    spec.IsCheckable := by
  intro harray
  rw [identity_of_array harray] at h
  obtain ⟨item, length, input, hcheck, -, hc, -⟩ := spells_arrayOf_iff.mp h
  rw [PropertySpec.expectedType_of_array harray] at hexpected
  obtain ⟨hlength, hitem⟩ := Ty.array_le_array.mp (hc _ hexpected)
  -- Where the check is given a kind of items, that is the kind of the property.
  unfold checkArguments at hcheck
  split at hcheck
  next hkind => exact ⟨.inr ⟨.string, hkind⟩, fun hvalue => nomatch hkind.symm.trans hvalue⟩
  next hkind => exact ⟨.inr ⟨.number, hkind⟩, fun hvalue => nomatch hkind.symm.trans hvalue⟩
  next hkind => exact ⟨.inr ⟨.boolean, hkind⟩, fun hvalue => nomatch hkind.symm.trans hvalue⟩
  next =>
    cases hcheck
    exact ⟨.inl (Ty.value_le hitem), fun _ => hlength.elim id Eq.symm⟩

omit [Scalar N] in
/-- The definition that reads a property of the feature as it is. -/
def identityOf (name : String) : Json N :=
  .object [("property", .string name), ("type", .string "identity")]

/-- An identity definition is lowered to a `coalesce` of the property and its fallbacks. -/
theorem lower_identity {d : Definition N} {name : String} (hkind : d.kind = some .identity)
    (hproperty : d.property = some name) : lower spec d =
      .ok (.call "coalesce" (identity spec name :: (d.fallbacks spec).map (·.1))) := by
  unfold lower fallbacks
  rw [hkind, hproperty]
  cases d.default <;> rfl

end Definition

namespace StyleFunction

theorem source_identity (name : String) :
    source spec (Definition.identityOf name) =
      .ok (.call "coalesce" [Definition.identity spec name, spec.defaultExpression]) :=
  Definition.lower_identity (d := ⟨some .identity, some name, none, none, none⟩) rfl rfl

/-- An identity definition gives a function only where the type of the style property can be checked. -/
theorem isCheckable_of_ofJson {f : StyleFunction N} {name : String}
    (hf : ofJson spec (Definition.identityOf name) = .ok f) : spec.IsCheckable := by
  obtain ⟨written, e, hwritten, hparse, -⟩ := ofJson_eq_ok_iff.mp hf
  rw [source_identity] at hwritten
  obtain rfl := Except.ok.inj hwritten
  obtain ⟨-, args, type, hlen, hargs, -, -, -⟩ :=
    spells_coalesce_iff.mp (Expr.parse_eq_ok_iff.mp hparse)
  obtain ⟨first, rest, rfl⟩ := List.exists_cons_of_length_eq_add_one hlen
  have hfirst := hargs 0 (Definition.identity spec name) first rfl rfl
  rw [settle_outputHint rfl spec.expectedType_ne_value] at hfirst
  exact Definition.isCheckable_of_spells rfl hfirst

/-- Where the type of the style property can be checked, an identity definition gives a function, which
answers with what the style property reads, else with its default. -/
theorem exists_identity (hspec : ∀ value, spec.default = some value → spec.Accepts value)
    (hcheckable : spec.IsCheckable) (name : String) :
    ∃ f, ofJson spec (Definition.identityOf name) = .ok f ∧ ∀ warned zoom properties,
      (f.evaluate warned zoom properties).1.value =
        (readProperty name spec.read? zoom properties).or (spec.defaultReply zoom properties) := by
  have hbody : Stands (fun _ _ => True) spec.expectedType _ _ :=
    Definition.stands_identity hcheckable name
  obtain ⟨arg, hspells, hconstant, hreply⟩ := hbody [1]
  have hdefault : ∀ p ∈ [(spec.defaultExpression, spec.defaultReply)],
      Stands (fun _ _ => True) spec.expectedType p.1 p.2 :=
    List.forall_mem_singleton.mpr (stands_default hspec)
  obtain ⟨f, hf, hvalue⟩ := exists_ofJson_of_source (source_identity name)
    ⟨arg, hspells, .inl hconstant, hreply⟩ hdefault
  refine ⟨f, hf, fun warned zoom properties => ?_⟩
  rw [hvalue warned zoom properties trivial, List.findSome?_singleton]

/-- An identity definition gives a function just where an expression can check for the type of the style
property. The function answers with what the style property reads the property of the feature as, and
where it does not read it, with the default. -/
theorem evaluate_identity (hspec : ∀ value, spec.default = some value → spec.Accepts value)
    (name : String) :
    ((∃ f, ofJson spec (Definition.identityOf name) = .ok f) ↔ spec.IsCheckable) ∧
    ∀ f, ofJson spec (Definition.identityOf name) = .ok f → ∀ warned zoom properties,
      (∀ v w, properties.lookup name = some v → spec.Reads v w →
        (f.evaluate warned zoom properties).1.value = some w) ∧
      ((∀ v w, properties.lookup name = some v → ¬ spec.Reads v w) →
        (f.evaluate warned zoom properties).1.value = spec.defaultReply zoom properties) := by
  have hexists := fun hcheckable => exists_identity hspec hcheckable name
  constructor
  · refine ⟨fun ⟨f, hf⟩ => isCheckable_of_ofJson hf, fun hcheckable => ?_⟩
    obtain ⟨f, hf, -⟩ := hexists hcheckable
    exact ⟨f, hf⟩
  · intro f hf warned zoom properties
    have hcheckable := isCheckable_of_ofJson hf
    obtain ⟨f', hf', hvalue⟩ := hexists hcheckable
    obtain rfl : f = f' := Except.ok.inj (hf.symm.trans hf')
    rw [hvalue]
    unfold readProperty
    constructor
    · intro v w hlookup hreads
      rw [hlookup, Option.bind_some, (PropertySpec.read?_eq_some_iff hcheckable).mpr hreads,
        Option.some_or]
    · intro hnone
      have hread : (properties.lookup name).bind spec.read? = none := by
        rw [Option.bind_eq_none_iff]
        intro v hlookup
        rw [Option.eq_none_iff_forall_ne_some]
        intro w hw
        exact hnone v w hlookup ((PropertySpec.read?_eq_some_iff hcheckable).mp hw)
      rw [hread, Option.none_or]

/-- A color by a property: every string that names a color gives it, and all other strings give the
default, as does a missing property. -/
theorem evaluate_identity_color : ∃ f : StyleFunction Float,
    ofJson ⟨.color, some (.string "black"), none, none, none⟩ (Definition.identityOf "color") =
        .ok f ∧
      (∀ text color zoom, Color.ofCss? text = some color →
        (f.evaluate [] zoom [("color", .string text)]).1.value = some (.color color)) ∧
      ∀ properties : Properties Float, (properties = [] ∨
          ∃ text, properties = [("color", .string text)] ∧ Color.ofCss? (N := Float) text = none) →
        ∃ black, Color.ofCss? "black" = some black ∧
          (f.evaluate [] none properties).1.value = some (.color black) := by
  let spec : PropertySpec Float := ⟨.color, some (.string "black"), none, none, none⟩
  have hspec : ∀ value, spec.default = some value → spec.Accepts value := by
    rintro _ ⟨⟩
    exact ⟨rfl, rfl, _, rfl⟩
  obtain ⟨hgiven, hanswers⟩ := evaluate_identity hspec "color"
  obtain ⟨f, hf⟩ := hgiven.mpr nofun
  refine ⟨f, hf, fun text color zoom hcolor => ?_, fun properties hproperties => ?_⟩
  · exact (hanswers f hf [] zoom _).1 _ _ rfl (.color rfl hcolor)
  · refine ⟨_, rfl, ((hanswers f hf [] none properties).2 ?_).trans rfl⟩
    intro v w hlookup hreads
    obtain rfl | ⟨text, rfl, hnone⟩ := hproperties
    · cases hlookup
    · obtain rfl : Value.string text = v := Option.some.inj hlookup
      cases hreads with
      | color hkind hcolor => cases hnone.symm.trans hcolor
      | self hkind => exact hkind rfl

/-- Array properties of colors, and those of a length with any items, have no identity functions. -/
theorem exists_identity_refused :
    (∃ errors, ofJson (N := Float) ⟨.array, none, none, some 2, none⟩
      (Definition.identityOf "xy") = .error (.parse errors)) ∧
    ∃ errors, ofJson (N := Float) ⟨.array, none, some "color", none, none⟩
      (Definition.identityOf "xy") = .error (.parse errors) :=
  ⟨⟨_, rfl⟩, _, rfl⟩

/-- The empty array is an array of strings, but an identity function for these answers with the default
in place of it. -/
theorem exists_empty_array_passed_over : ∃ f : StyleFunction Float,
    ofJson ⟨.array, some (.array [.string "a"]), some "string", none, none⟩
        (Definition.identityOf "xs") = .ok f ∧
      (Value.array [] : Value Float).Belongs (.array .string none) ∧
      (f.evaluate [] none [("xs", .array [])]).1.value = some (.array [.string "a"]) :=
  ⟨_, rfl, Value.belongs_nil .string nofun, rfl⟩

end StyleFunction

end MapStyle
