import Mathlib.Data.List.Nodup
import MapStyle.Proofs.Parse.Results
import MapStyle.Proofs.Property.LegacyFunction

/-!
# Blank expressions

A field that is null or false does not make an object a definition, and where the object is none such
an `expression` counts as absent: the object is a constant then, and no property has objects as values
(`StyleFunction.ofJson_object`). Where stops or the type make it a definition, what stands in the field
`expression` is taken for the expression, blank or not: it is checked as a value of the property, and
the stops are not read (`StyleFunction.ofJson_blank_expression`,
`StyleFunction.exists_blank_expression_counts`).
-/

namespace MapStyle

open Parse

variable {N : Type}

theorem Checked.map_errors {α β : Type} (f : α → β) (a : Checked N α) :
    (f <$> a).errors = a.errors := by
  obtain ⟨result, errors⟩ := a
  cases result with
  | none => rfl
  | some x => exact List.append_nil errors

/-! ## Fields -/

namespace Json

/-- Null and false, by which a field does not make a definition. -/
def IsBlank (raw : Json N) : Prop := raw = .null ∨ raw = .boolean false

/-- The object without the field. -/
def without (name : String) : Json N → Json N
  | .object fields => .object (fields.filter (·.1 != name))
  | raw => raw

theorem field?_without_self (name : String) (raw : Json N) :
    (raw.without name).field? name = none := by
  cases raw with
  | object fields =>
    refine List.lookup_eq_none_iff.mpr fun entry hentry => ?_
    exact bne_iff_ne.mpr (bne_iff_ne.mp (List.mem_filter.mp hentry).2).symm
  | _ => rfl

theorem field?_without_of_ne {name other : String} (h : other ≠ name) (raw : Json N) :
    (raw.without name).field? other = raw.field? other := by
  cases raw with
  | object fields =>
    show (fields.filter (·.1 != name)).lookup other = fields.lookup other
    induction fields with
    | nil => rfl
    | cons entry rest ih =>
      by_cases hentry : entry.1 = name
      · have hother : (other == entry.1) = false := beq_false_of_ne (hentry ▸ h)
        rw [List.filter_cons_of_neg (by simp [hentry]), List.lookup_cons, hother, ih]
      · rw [List.filter_cons_of_pos (by simp [hentry]), List.lookup_cons, List.lookup_cons, ih]
  | _ => rfl

variable [Scalar N]

theorem IsBlank.isSafe {raw : Json N} (h : raw.IsBlank) : raw.isSafe = true := by
  obtain rfl | rfl := h <;> rfl

/-- A blank field holds no numbers. -/
theorem fieldsSafe_without {name : String} {fields : List (String × Json N)}
    (h : ∀ value, (name, value) ∈ fields → value.IsBlank) :
    fieldsSafe (fields.filter (·.1 != name)) = fieldsSafe fields := by
  induction fields with
  | nil => rfl
  | cons entry rest ih =>
    have hrest := ih fun value hvalue => h value (List.mem_cons_of_mem _ hvalue)
    by_cases hname : entry.1 = name
    · have hsafe : entry.2.isSafe = true := (h entry.2 (hname ▸ List.mem_cons_self)).isSafe
      rw [List.filter_cons_of_neg (by simp [hname]), hrest, fieldsSafe, hsafe, Bool.true_and]
    · rw [List.filter_cons_of_pos (by simp [hname]), fieldsSafe, fieldsSafe, hrest]

end Json

/-! ## Definitions -/

variable {fields : List (String × Json N)} {blank : Json N}

/-- Whether an object is a definition does not depend on a blank expression. -/
theorem Definition.isDefinition_without (hfield : fields.lookup "expression" = some blank)
    (hblank : blank.IsBlank) :
    isDefinition (Json.without "expression" (.object fields)) = isDefinition (.object fields) := by
  have hexpression : (Json.object fields).field? "expression" = some blank := hfield
  unfold isDefinition
  dsimp only
  rw [Json.field?_without_self, Json.field?_without_of_ne (by decide),
    Json.field?_without_of_ne (by decide), hexpression]
  obtain rfl | rfl := hblank <;> rfl

/-! ## Objects as constants -/

variable [Scalar N] {spec : PropertySpec N}

namespace PropertySpec

/-- The error of an object that is given as a constant. -/
def objectError (spec : PropertySpec N) (fields : List (String × Json N)) : ParseError N :=
  if spec.kind = .color then ⟨[1], .bareObject⟩
  else ⟨[], if Json.fieldsSafe fields then .typeMismatch spec.expectedType .object
    else .numberTooLarge⟩

omit [Scalar N] in
theorem not_object_le_expectedType (spec : PropertySpec N) : ¬Ty.object ≤ spec.expectedType := by
  unfold expectedType
  split <;> exact nofun

end PropertySpec

theorem Parse.parser_literal_object {c : Context} {t : Ty} (hc : c.expected = some t)
    (ht : ¬Ty.object ≤ t) (fields : List (String × Json N)) :
    Expr.parser (.call "literal" [.object fields]) c = .fail c.key
      (if Json.fieldsSafe fields then .typeMismatch t .object else .numberTooLarge) := by
  show literal c [.object fields] >>= c.expect = _
  unfold literal
  dsimp only
  rw [Json.isSafe]
  split
  · show c.expect _ = _
    unfold Context.expect
    rw [hc]
    exact if_neg ht
  · rfl

namespace StyleFunction

theorem ofJson_of_parse_eq_error {raw written : Json N} {errors : List (ParseError N)}
    (hsource : source spec raw = .ok written)
    (hparse : Expr.parse written (some spec.expectedType) = .error errors) :
    ofJson spec raw = .error (.parse errors) := by
  unfold ofJson
  rw [hsource]
  dsimp only
  rw [hparse]

/-- An object that is no definition is a constant, and no property has objects as values. -/
theorem ofJson_object (h : Definition.isDefinition (.object fields) = false) :
    ofJson spec (.object fields) = .error (.parse [spec.objectError fields]) := by
  refine ofJson_of_parse_eq_error (PropertySpec.source_of_isDefinition_eq_false h) ?_
  show Expr.parse (spec.constant (.object fields)) _ = _
  unfold PropertySpec.constant PropertySpec.objectError
  dsimp only
  split
  · rfl
  · exact Expr.parse_eq_error_of_eq
      (parser_literal_object rfl spec.not_object_le_expectedType fields)

end StyleFunction

/-! ## Blank expressions of definitions -/

/-- Of the values of properties only booleans can be blank. -/
theorem Json.IsBlank.type_le_iff (hblank : blank.IsBlank) :
    (Value.ofJson blank).type ≤ spec.expectedType ↔
      blank = .boolean false ∧ spec.kind = .boolean := by
  unfold PropertySpec.expectedType
  obtain rfl | rfl := hblank
  · refine iff_of_false ?_ nofun
    split <;> exact nofun
  · cases spec.kind with
    | boolean => exact iff_of_true (Ty.le_refl .boolean) ⟨rfl, rfl⟩
    | _ => exact iff_of_false nofun nofun

theorem parser_blank (hblank : blank.IsBlank) {c : Context} {t : Ty} (hc : c.expected = some t)
    (ht : ¬(Value.ofJson blank).type ≤ t) :
    Expr.parser blank c = .fail c.key (.typeMismatch t (Value.ofJson blank).type) := by
  have hparser : Expr.parser blank c =
      c.expect (.literal c.key (Value.ofJson blank).type (.ofJson blank)) := by
    obtain rfl | rfl := hblank <;> rfl
  rw [hparser]
  unfold Context.expect
  rw [hc]
  exact if_neg ht

/-- Where the first of two arguments fails, the errors of the second follow. -/
theorem parser_coalesce_of_fail {c : Context} {t : Ty} (hc : c.outputHint = some t) {key : Path}
    {problem : Problem N} {raw : Json N} (raw' : Json N)
    (h : Expr.parser raw (c.child 1 (some t)) = .fail key problem) :
    Expr.parser (.call "coalesce" [raw, raw']) c =
      ⟨none, ⟨key, problem⟩ :: (Expr.parser raw' (c.child 2 (some t))).errors⟩ := by
  have hstep : coalesceStep c (some t) (⟨raw, Expr.parser raw⟩, 1) = (some t, .fail key problem) := by
    unfold coalesceStep
    dsimp only
    rw [h]
    rfl
  have hsweep : (Checked.sweep (coalesceStep c) (some t)
      [(⟨raw, Expr.parser raw⟩, 1), (⟨raw', Expr.parser raw'⟩, 2)]).2 =
        ⟨none, ⟨key, problem⟩ :: (Expr.parser raw' (c.child 2 (some t))).errors⟩ := by
    rw [Checked.sweep_cons, hstep, Checked.sweep_cons]
    show Checked.mk none ([⟨key, problem⟩] ++ (_ <$> Checked.zip _ _).errors) = _
    rw [Checked.map_errors]
    exact congrArg (Checked.mk none) (congrArg (_ :: ·) (List.append_nil _))
  show Parse.coalesce c [⟨raw, Expr.parser raw⟩, ⟨raw', Expr.parser raw'⟩] >>= c.expect = _
  unfold Parse.coalesce
  rw [hc]
  show (_ <$> (Checked.sweep (coalesceStep c) (some t)
      [(⟨raw, Expr.parser raw⟩, 1), (⟨raw', Expr.parser raw'⟩, 2)]).2) >>= _ = _
  rw [hsweep]
  rfl

namespace StyleFunction

/-- What stands in the field is taken for the expression of a definition. -/
theorem source_of_expression (hfield : fields.lookup "expression" = some blank)
    (h : Definition.isDefinition (.object fields) = true) :
    source spec (.object fields) = .ok (.call "coalesce" [blank, spec.defaultExpression]) := by
  have hexpression : (Json.object fields).field? "expression" = some blank := hfield
  unfold source
  rw [if_pos h, hexpression]

theorem ofJson_of_blank (hfield : fields.lookup "expression" = some blank) (hblank : blank.IsBlank)
    (h : Definition.isDefinition (.object fields) = true)
    (hvalue : ¬(blank = .boolean false ∧ spec.kind = .boolean)) :
    ofJson spec (.object fields) = .error (.parse
      (⟨[1], .typeMismatch spec.expectedType (Value.ofJson blank).type⟩ ::
        (Expr.parser spec.defaultExpression ⟨[2], some spec.expectedType, []⟩).errors)) := by
  refine ofJson_of_parse_eq_error (source_of_expression hfield h) ?_
  have hfail := parser_blank hblank (c := ⟨[1], some spec.expectedType, []⟩) rfl
    (mt hblank.type_le_iff.mp hvalue)
  have hparser := parser_coalesce_of_fail (c := .root (some spec.expectedType))
    (Context.outputHint_eq rfl spec.expectedType_ne_value) spec.defaultExpression hfail
  exact Expr.parse_eq_error_of_eq hparser

theorem exists_ofJson_of_false (hfield : fields.lookup "expression" = some (.boolean false))
    (h : Definition.isDefinition (.object fields) = true) (hkind : spec.kind = .boolean)
    (hspec : ∀ value, spec.default = some value → spec.Accepts value) :
    ∃ f, ofJson spec (.object fields) = .ok f ∧ ∀ warned zoom properties,
      (f.evaluate warned zoom properties).1.value = some (.boolean false) := by
  have htype : spec.expectedType = .boolean := by
    unfold PropertySpec.expectedType
    rw [hkind]
  have hbody : ∃ e : Expr N, Spells ⟨[1], some spec.expectedType, []⟩ (.boolean false) e ∧
      e.FitsZoom ∧ e.HasReply (fun _ _ => True) fun _ _ => some (.boolean false) := by
    rw [htype]
    exact ⟨_, spells_boolean_iff.mpr ⟨Context.accepts_expected rfl, rfl⟩, .inl rfl, fun _ _ _ => rfl⟩
  have hdefault : ∀ p ∈ [(spec.defaultExpression, spec.defaultReply)],
      Stands (fun _ _ => True) spec.expectedType p.1 p.2 :=
    List.forall_mem_singleton.mpr (stands_default hspec)
  obtain ⟨f, hf, hvalue⟩ := exists_ofJson_of_source (source_of_expression hfield h) hbody hdefault
  exact ⟨f, hf, fun warned zoom properties => hvalue warned zoom properties trivial⟩

/-- A blank expression of an object that is no definition counts as none. Of a definition it is what is
evaluated: it is an error, or for a boolean property the value of all calls. -/
theorem ofJson_blank_expression (hnames : (fields.map (·.1)).Nodup)
    (hfield : fields.lookup "expression" = some blank) (hblank : blank.IsBlank)
    (spec : PropertySpec N) :
    (Definition.isDefinition (.object fields) = false →
      ofJson spec (.object fields) = ofJson spec (Json.without "expression" (.object fields))) ∧
    (Definition.isDefinition (.object fields) = true →
      (¬(blank = .boolean false ∧ spec.kind = .boolean) →
        ofJson spec (.object fields) = .error (.parse
          (⟨[1], .typeMismatch spec.expectedType (Value.ofJson blank).type⟩ ::
            (Expr.parser spec.defaultExpression ⟨[2], some spec.expectedType, []⟩).errors))) ∧
      (blank = .boolean false → spec.kind = .boolean →
        (∀ value, spec.default = some value → spec.Accepts value) →
        ∃ f, ofJson spec (.object fields) = .ok f ∧ ∀ warned zoom properties,
          (f.evaluate warned zoom properties).1.value = some (.boolean false))) := by
  refine ⟨fun h => ?_, fun h => ⟨ofJson_of_blank hfield hblank h, ?_⟩⟩
  · have hmem := mem_of_lookup_eq_some hfield
    have hfields : ∀ value, ("expression", value) ∈ fields → value.IsBlank := fun value hvalue => by
      cases List.inj_on_of_nodup_map hnames hvalue hmem rfl
      exact hblank
    have hwithout := (Definition.isDefinition_without hfield hblank).trans h
    have hremoved : ofJson spec (Json.without "expression" (.object fields)) =
        .error (.parse [spec.objectError (fields.filter (·.1 != "expression"))]) :=
      ofJson_object hwithout
    rw [ofJson_object h, hremoved]
    unfold PropertySpec.objectError
    rw [Json.fieldsSafe_without hfields]
  · rintro rfl
    exact exists_ofJson_of_false hfield h

/-- A constant with a null expression, a definition with one, and a definition with a false one. -/
theorem ofJson_blank_expression_null :
    ofJson (N := Float) ⟨.color, none, none, none, none⟩ (.object [("expression", .null)]) =
      ofJson ⟨.color, none, none, none, none⟩ (.object []) ∧
    (∃ errors, ofJson (N := Float) ⟨.number, none, none, none, none⟩ (.object [("expression", .null),
      ("stops", .array [.array [.integer 0, .integer 1]])]) =
        .error (.parse (⟨[1], .typeMismatch .number .null⟩ :: errors))) ∧
    ∃ f, ofJson (N := Float) ⟨.boolean, none, none, none, none⟩ (.object [
      ("expression", .boolean false), ("stops", .array [.array [.integer 0, .boolean true]])]) = .ok f ∧
        ∀ warned zoom properties,
          (f.evaluate warned zoom properties).1.value = some (.boolean false) := by
  refine ⟨?_, ?_, ?_⟩
  · exact (ofJson_blank_expression (by decide) rfl (.inl rfl) _).1 rfl
  · exact ⟨_, ((ofJson_blank_expression (by decide) rfl (.inl rfl) _).2 rfl).1 nofun⟩
  · exact ((ofJson_blank_expression (by decide) rfl (.inr rfl) _).2 rfl).2 rfl rfl nofun

/-- Stops are not read where a null expression stands beside them. -/
theorem exists_blank_expression_counts :
    ∃ (errors : List (ParseError Float)) (f : StyleFunction Float),
      ofJson ⟨.number, none, none, none, none⟩ (.object [("expression", .null),
        ("stops", .array [.array [.integer 0, .integer 1]])]) = .error (.parse errors) ∧
      ofJson ⟨.number, none, none, none, none⟩ (Json.without "expression" (.object [
        ("expression", .null), ("stops", .array [.array [.integer 0, .integer 1]])])) = .ok f :=
  ⟨_, _, rfl, rfl⟩

end StyleFunction

end MapStyle
