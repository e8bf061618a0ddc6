import MapStyle.Proofs.Property.Category
import MapStyle.Proofs.Property.LegacyFunction

/-!
# What categorical functions answer

A categorical definition with sound categories gives a style function, and evaluating it yields what
`Definition.categories` says (`StyleFunction.evaluate_eq_categories`). Categories are read by the
property alone, or at each zoom by those of one level.

A definition over the property alone falls back on its own default wherever no key is equal. One over
the zoom and the property does so only where the property is missing or of another kind: a property of
the kind of the keys that equals none is answered with the default of the property declaration, since
the levels are lowered without the default of the definition (`StyleFunction.exists_default_passed_over`).
-/

namespace MapStyle

open Parse

variable {N : Type}

/-- The stops of a categorical definition. -/
inductive Catalogue (N : Type) where
  /-- Outputs by keys. -/
  | plain (stops : List (Json N × Json N))
  /-- For each zoom, outputs by keys. -/
  | levelled (levels : List (N × List (Json N × Json N)))

variable [Scalar N]

/-! ## Reading -/

namespace PropertySpec

/-- Outputs by keys with their replies. -/
def keyRows (spec : PropertySpec N) (stops : List (Json N × Json N)) : List (Json N × Reply N) :=
  stops.map fun stop => (stop.1, spec.reply stop.2)

/-- Whether stops are sound categories for a property: one or more, with keys of one kind of which no
two are equal, and outputs that the property accepts. -/
structure Sorts (spec : PropertySpec N) (kind : AssertedKind) (stops : List (Json N × Json N)) :
    Prop where
  ne_nil : stops ≠ []
  keys : ∀ stop ∈ stops, IsKey kind stop.1
  distinct : stops.Pairwise fun earlier later =>
    (Value.ofJson later.1 == Value.ofJson earlier.1) = false
  accepted : ∀ stop ∈ stops, spec.Accepts stop.2

end PropertySpec

/-- What a catalogue answers for a property. Where it is of the kind of the keys and equals none, that
is nothing without levels, and on a level the default of the property declaration. -/
def Catalogue.reading (spec : PropertySpec N) (name : String) (kind : AssertedKind) :
    Catalogue N → Reply N
  | .plain stops => readKeys name kind (spec.keyRows stops) fun _ _ => none
  | .levelled levels => readRows none spec.outputKind (fun zoom _ => zoom) (levels.map fun level =>
    (level.1, readKeys name kind (spec.keyRows level.2) spec.defaultReply))

/-- Whether a catalogue is sound for a property: its stops are, and its levels ascend. -/
def Catalogue.Fits (spec : PropertySpec N) (kind : AssertedKind) : Catalogue N → Prop
  | .plain stops => spec.Sorts kind stops
  | .levelled levels => levels ≠ [] ∧ Ascending (levels.map (·.1)) ∧
    ∀ level ∈ levels, spec.Sorts kind level.2

namespace Definition

variable {spec : PropertySpec N}

/-- What a definition answers by its catalogue: what that reads, else the default of the definition,
else that of the property declaration. -/
def categories (spec : PropertySpec N) (d : Definition N) (name : String) (kind : AssertedKind)
    (catalogue : Catalogue N) : Reply N := fun zoom properties =>
  ((catalogue.reading spec name kind zoom properties).or
    (d.default.bind fun value => spec.reply value zoom properties)).or
      (spec.defaultReply zoom properties)

/-- Whether a raw input names the zoom and the key. -/
def NamesKey (input : Json N) (zoom : N) (key : Json N) : Prop :=
  (input.field? "zoom").bind Json.number? = some zoom ∧ input.field? "value" = some key

/-- Whether raw stops write a level down: they all name one zoom, and that of the level is what the
first names. -/
structure WritesGroup (raws : List (Json N × Json N)) (level : N × List (Json N × Json N)) : Prop where
  first : ∃ raw key, raws.head? = some raw ∧ NamesKey raw.1 level.1 key
  stops : List.Forall₂ (fun raw stop => (∃ zoom, (level.1 == zoom) = true ∧
    NamesKey raw.1 zoom stop.1) ∧ raw.2 = stop.2) raws level.2

/-- Whether a definition writes a catalogue down. -/
def Lists (d : Definition N) : Catalogue N → Prop
  | .plain stops => d.stops = some stops
  | .levelled levels => ∃ parts, d.stops = some parts.flatten ∧ List.Forall₂ WritesGroup parts levels

theorem Lists.exists_stops {d : Definition N} {catalogue : Catalogue N} (h : d.Lists catalogue) :
    ∃ stops, d.stops = some stops := by
  cases catalogue with
  | plain stops => exact ⟨stops, h⟩
  | levelled levels =>
    obtain ⟨parts, hparts, -⟩ := h
    exact ⟨parts.flatten, hparts⟩

/-! ## Lowering -/

/-- The choice that categories are lowered to. -/
def choice (spec : PropertySpec N) (name : String) (kind : AssertedKind) (fallback : Json N)
    (stops : List (Json N × Json N)) : Json N :=
  if kind = .boolean then
    .call "case" (alternate ((convertStops spec stops).map fun pair =>
      (.call "==" [keyInput name .boolean, pair.1], pair.2)) ++ [fallback])
  else .call "match" (keyInput name kind :: alternate (convertStops spec stops) ++ [fallback])

variable {kind : AssertedKind} {stops : List (Json N × Json N)} {calls : Calls N}

theorem kind_ne_object (h : spec.Sorts kind stops) : kind ≠ .object := by
  rintro rfl
  obtain ⟨stop, hstop⟩ := List.exists_mem_of_ne_nil stops h.ne_nil
  exact h.keys stop hstop

/-- Sound categories are lowered to a choice. -/
theorem categorical_eq (h : spec.Sorts kind stops) (name : String) (default : Option (Json N)) :
    categorical spec name stops default =
      .ok (choice spec name kind ((default.map spec.constant).getD spec.defaultExpression) stops) := by
  have hkinds : ∀ stop ∈ stops, stop.1.kind = (Operator.assertion kind).symbol := fun stop hstop =>
    (h.keys stop hstop).kind_eq
  obtain ⟨first, rest, rfl⟩ := List.exists_cons_of_ne_nil h.ne_nil
  have hsame : ((first :: rest).any fun stop => stop.1.kind != (Operator.assertion kind).symbol) =
      false := by
    rw [List.any_eq_false]
    intro stop hstop
    rw [hkinds stop hstop, bne_self_eq_false]
    exact Bool.false_ne_true
  have hcase : ∀ choices : List (Json N × Json N), alternate (choices.map fun pair =>
      (Json.call "==" [keyInput name .boolean, pair.1], pair.2)) = choices.flatMap fun pair =>
        [.call "==" [keyInput name .boolean, pair.1], pair.2] := fun choices => by
    rw [alternate_eq_flatMap, List.flatMap_map]
  unfold categorical choice
  dsimp only
  rw [hkinds first List.mem_cons_self, hsame, hcase, alternate_eq_flatMap]
  cases kind with
  | object => exact absurd rfl (kind_ne_object h)
  | _ => rfl

theorem Sorts.stand (h : spec.Sorts kind stops) :
    KeysStand calls spec.expectedType kind (convertStops spec stops) (spec.keyRows stops) where
  ne_nil := fun hnil => h.ne_nil (List.map_eq_nil_iff.mp hnil)
  keys := List.forall_mem_map.mpr h.keys
  distinct := List.pairwise_map.mpr h.distinct
  stand := by
    rw [convertStops, PropertySpec.keyRows, List.forall₂_map_left_iff, List.forall₂_map_right_iff,
      List.forall₂_same]
    exact fun stop hstop => ⟨rfl, stands_constant (h.accepted stop hstop)⟩

/-- The choice that sound categories are lowered to has the reply by keys. -/
theorem stands_choice (h : spec.Sorts kind stops) (name : String) {fallback : Json N}
    {other : Reply N} (hother : Stands calls spec.expectedType fallback other) :
    Stands calls spec.expectedType (choice spec name kind fallback stops)
      (readKeys name kind (spec.keyRows stops) other) := by
  have hstand : KeysStand calls spec.expectedType kind _ _ := Sorts.stand h
  unfold choice
  split
  · next hkind =>
    subst hkind
    exact stands_conditional spec.expectedType_ne_value hstand hother name
  · next hkind => exact stands_matching spec.expectedType_ne_value hkind hstand hother name

/-! ## Bodies -/

/-- The reply of the expression that the stops of a categorical definition are lowered to. -/
def choiceReply (spec : PropertySpec N) (d : Definition N) (name : String) (kind : AssertedKind) :
    Catalogue N → Reply N
  | .plain stops => readKeys name kind (spec.keyRows stops)
    (d.default.elim spec.defaultReply spec.reply)
  | .levelled levels => (Catalogue.levelled levels).reading spec name kind

theorem WritesGroup.exists_placed {raws : List (Json N × Json N)}
    {level : N × List (Json N × Json N)} (h : WritesGroup raws level) : ∃ placed,
      List.Forall₂ (fun raw (p : N × Json N × Json N) =>
        zoomAndValue raw.1 = .ok (p.1, p.2.1) ∧ raw.2 = p.2.2) raws placed ∧
      PlacedLevel Eq placed level := by
  obtain ⟨raw, key, hhead, hnames⟩ := h.first
  refine Definition.exists_placed ⟨raw, key, hhead, zoomAndValue_eq_ok_iff.mpr hnames⟩ (h.stops.imp ?_)
  rintro raw stop ⟨⟨zoom, hsame, hnames⟩, houtput⟩
  exact ⟨zoom, stop.1, hsame, zoomAndValue_eq_ok_iff.mpr hnames, Prod.ext rfl houtput⟩

variable [LawfulOrder N]

/-- Levels of sound categories are lowered to a step curve over choices. -/
theorem exists_levelled (calls : Calls N) (base : Option N) (name : String)
    {parts : List (List (Json N × Json N))} {levels : List (N × List (Json N × Json N))}
    (hwrites : List.Forall₂ WritesGroup parts levels)
    (hfits : (Catalogue.levelled levels).Fits spec kind)
    (hspec : ∀ value, spec.default = some value → spec.Accepts value) :
    ∃ outputs, composite spec .categorical base name parts.flatten =
        .ok (curve (.call "step" []) (.call "zoom" []) outputs) ∧
      StopsStand calls spec.expectedType outputs (levels.map fun level =>
        (level.1, readKeys name kind (spec.keyRows level.2) spec.defaultReply)) := by
  obtain ⟨hne, hascending, hsorts⟩ := hfits
  obtain ⟨placed, hplaced, hlevels⟩ :=
    exists_forall₂_comp hwrites fun _ _ => WritesGroup.exists_placed
  have hgathered := forall₂_and_right (levels_flatten hlevels hascending) hsorts
  have houtput : ∀ level ∈ Definition.levels placed.flatten,
      ofProperty spec .categorical base name level.2 none =
        .ok (choice spec name kind spec.defaultExpression level.2) := by
    refine forall_left_of_forall₂ hgathered ?_
    rintro level row ⟨⟨-, -, hstops⟩, hsort⟩
    rw [List.forall₂_eq_eq_eq] at hstops
    rw [hstops]
    exact categorical_eq hsort name none
  refine ⟨_, composite_eq (List.rel_flatten hplaced) houtput,
    fun hnil => hne (List.map_eq_nil_iff.mp hnil), ?_, ?_⟩
  · rw [List.map_map]
    exact hascending
  · rw [List.forall₂_map_left_iff, List.forall₂_map_right_iff]
    refine hgathered.imp ?_
    rintro level row ⟨⟨hzoom, hfinite, hstops⟩, hsort⟩
    rw [List.forall₂_eq_eq_eq] at hstops
    rw [hstops]
    refine ⟨?_, stands_choice hsort name (stands_default hspec)⟩
    show Json.finite? level.1 = some row.1
    rw [hzoom]
    exact if_pos hfinite

/-- Calls at a zoom that can be compared. -/
def ZoomComparable : Calls N := fun zoom _ => ∀ x, zoom = some x → (x == x) = true

/-- The stops of a categorical definition are lowered to an expression with the reply by keys. -/
theorem exists_categorical_body {d : Definition N} {name : String} {catalogue : Catalogue N}
    (hproperty : d.property = some name) (hlists : d.Lists catalogue)
    (hfits : catalogue.Fits spec kind)
    (hspec : ∀ value, spec.default = some value → spec.Accepts value)
    (hdefault : ∀ value, d.default = some value → spec.Accepts value) :
    ∃ raw, body spec .categorical d (d.stops.getD []) = .ok raw ∧ ∀ key, ∃ e,
      Spells ⟨key, some spec.expectedType, []⟩ raw e ∧ e.FitsZoom ∧
        e.HasReply ZoomComparable (d.choiceReply spec name kind catalogue) := by
  cases catalogue with
  | plain stops =>
    obtain ⟨first, rest, hfirst⟩ := List.exists_cons_of_ne_nil hfits.ne_nil
    have hobject : first.1.isObject = false :=
      (hfits.keys first (hfirst ▸ List.mem_cons_self)).isObject_eq
    have hfallback : Stands ZoomComparable spec.expectedType
        ((d.default.map spec.constant).getD spec.defaultExpression)
        (d.default.elim spec.defaultReply spec.reply) := by
      cases hd : d.default with
      | none => exact stands_default hspec
      | some value => exact stands_constant (hdefault value hd)
    refine ⟨choice spec name kind ((d.default.map spec.constant).getD spec.defaultExpression) stops,
      ?_, fun key => ?_⟩
    · rw [show d.stops = some stops from hlists, Option.getD_some, ← categorical_eq hfits, hfirst]
      unfold body
      dsimp only
      rw [hproperty, hobject]
      exact if_pos rfl
    · obtain ⟨e, hspells, hconstant, hreply⟩ := stands_choice hfits name hfallback key
      exact ⟨e, hspells, .inl hconstant, hreply⟩
  | levelled levels =>
    obtain ⟨parts, hparts, hgroups⟩ := hlists
    obtain ⟨first, rest, hfirst, hobject⟩ := exists_first_level hgroups hfits.1
      fun part level ⟨⟨raw, _, hhead, hzoom, _⟩, _⟩ => ⟨raw, hhead, isObject_of_field hzoom⟩
    obtain ⟨outputs, hcomposite, hstand⟩ := exists_levelled ZoomComparable d.base name hgroups
      hfits hspec
    refine ⟨curve (.call "step" []) (.call "zoom" []) outputs, ?_, fun key => ?_⟩
    · rw [hparts, Option.getD_some, ← hcomposite, hfirst]
      unfold body
      dsimp only
      rw [hproperty, hobject]
    · obtain ⟨e, c, hspells, hcurve, hreply⟩ := exists_zoomCurve spec.expectedType_ne_value
        (blendsAs_step _) hstand (fun zoom _ x hcall => hcall x) key
      exact ⟨e, hspells, .inr ⟨c, hcurve⟩, hreply⟩

omit [LawfulOrder N] in
/-- Without levels, a choice that falls back on the default of the definition by itself answers no
other than one that leaves this to what follows. -/
theorem readKeys_or_fallbacks (d : Definition N) (name : String)
    (stops : List (Json N × Json N)) (zoom : Option N) (properties : Properties N) :
    (readKeys name kind (spec.keyRows stops) (d.default.elim spec.defaultReply spec.reply)
        zoom properties).or ((d.fallbacks spec).findSome? fun p => p.2 zoom properties) =
      (readKeys name kind (spec.keyRows stops) (fun _ _ => none) zoom properties).or
        ((d.fallbacks spec).findSome? fun p => p.2 zoom properties) := by
  have hfallbacks : (d.default.elim spec.defaultReply spec.reply zoom properties).or
      ((d.fallbacks spec).findSome? fun p => p.2 zoom properties) =
        (d.fallbacks spec).findSome? fun p => p.2 zoom properties := by
    rw [findSome?_fallbacks]
    cases d.default with
    | none => exact Option.or_self
    | some value =>
      rw [Option.elim_some, Option.bind_some, ← Option.or_assoc, Option.or_self]
  unfold readKeys
  cases properties.lookup name with
  | none => rfl
  | some v =>
    rw [Option.bind_some, Option.bind_some]
    split
    · cases (spec.keyRows stops).find? fun row => Value.ofJson row.1 == v with
      | none => exact hfallbacks
      | some row => rfl
    · rfl

omit [LawfulOrder N] in
theorem categories_eq (d : Definition N) (name : String) (catalogue : Catalogue N)
    (zoom : Option N) (properties : Properties N) :
    d.categories spec name kind catalogue zoom properties =
      (d.choiceReply spec name kind catalogue zoom properties).or
        ((d.fallbacks spec).findSome? fun fallback => fallback.2 zoom properties) := by
  have hreading : d.categories spec name kind catalogue zoom properties =
      (catalogue.reading spec name kind zoom properties).or
        ((d.fallbacks spec).findSome? fun fallback => fallback.2 zoom properties) := by
    rw [findSome?_fallbacks, ← Option.or_assoc]
    rfl
  rw [hreading]
  cases catalogue with
  | plain stops => exact (readKeys_or_fallbacks d name stops zoom properties).symm
  | levelled => rfl

end Definition

namespace StyleFunction

variable {spec : PropertySpec N} [LawfulOrder N]

/-- A categorical definition of a property whose stops are a sound catalogue gives a style function, if
the property accepts the defaults. Evaluating it yields what its stops are lowered to, else a default. -/
theorem exists_ofJson_categorical {fields : List (String × Json N)} {d : Definition N} {name : String}
    {kind : AssertedKind} {catalogue : Catalogue N}
    (hspec : ∀ value, spec.default = some value → spec.Accepts value)
    (hd : Definition.ofJson? (.object fields) = some d)
    (hexpression : fields.lookup "expression" = none) (hkind : d.kind = some .categorical)
    (hproperty : d.property = some name)
    (hdefault : ∀ value, d.default = some value → spec.Accepts value) (hlists : d.Lists catalogue)
    (hfits : catalogue.Fits spec kind) :
    ∃ f, ofJson spec (.object fields) = .ok f ∧ ∀ warned zoom properties,
      Definition.ZoomComparable zoom properties →
        (f.evaluate warned zoom properties).1.value =
          (d.choiceReply spec name kind catalogue zoom properties).or
            ((d.fallbacks spec).findSome? fun fallback => fallback.2 zoom properties) := by
  have hread : d.readKind spec = .categorical := by rw [Definition.readKind, hkind, Option.getD_some]
  obtain ⟨raw, hbody, hspells⟩ :=
    Definition.exists_categorical_body hproperty hlists hfits hspec hdefault
  obtain ⟨stops, hstops⟩ := hlists.exists_stops
  exact exists_ofJson_of_body hspec hd hexpression hstops (by rw [hread]; decide) hdefault
    (by rw [hread]; exact hbody) (hspells [1])

/-- A categorical definition of a property whose stops are a sound catalogue, and whose defaults the
property accepts, gives a style function. Evaluating it for any properties, at a zoom that can be
compared, yields what the definition says by its catalogue. -/
theorem evaluate_eq_categories {fields : List (String × Json N)} {d : Definition N} {name : String}
    {kind : AssertedKind} {catalogue : Catalogue N}
    (hspec : ∀ value, spec.default = some value → spec.Accepts value)
    (hd : Definition.ofJson? (.object fields) = some d)
    (hexpression : fields.lookup "expression" = none) (hkind : d.kind = some .categorical)
    (hproperty : d.property = some name)
    (hdefault : ∀ value, d.default = some value → spec.Accepts value) (hlists : d.Lists catalogue)
    (hfits : catalogue.Fits spec kind) :
    ∃ f, ofJson spec (.object fields) = .ok f ∧ ∀ warned zoom properties,
      (∀ x, zoom = some x → (x == x) = true) →
        (f.evaluate warned zoom properties).1.value =
          d.categories spec name kind catalogue zoom properties := by
  obtain ⟨f, hf, hvalue⟩ :=
    exists_ofJson_categorical hspec hd hexpression hkind hproperty hdefault hlists hfits
  refine ⟨f, hf, fun warned zoom properties hcomparable => ?_⟩
  rw [Definition.categories_eq]
  exact hvalue warned zoom properties hcomparable

/-- A property of strings with a default. -/
def plainText : PropertySpec Float := ⟨.string, some (.string "plain"), none, none, none⟩

theorem accepts_plainText (s : String) : plainText.Accepts (.string s) := ⟨rfl, rfl, _, rfl⟩

theorem accepts_default_plainText : ∀ value, plainText.default = some value →
    plainText.Accepts value := by
  rintro _ ⟨⟩
  exact accepts_plainText "plain"

theorem sorts_plainText (output : String) :
    plainText.Sorts .string [(.string "a", .string output)] where
  ne_nil := List.cons_ne_nil _ _
  keys := List.forall_mem_singleton.mpr ⟨_, rfl⟩
  distinct := List.pairwise_singleton _ _
  accepted := List.forall_mem_singleton.mpr (accepts_plainText output)

/-- A stop at a zoom writes a level of one category down. -/
theorem writesGroup_singleton (zoom : Int) (output : Json Float)
    (hzoom : Json.number? (.integer zoom) = some (Scalar.ofInt zoom : Float))
    (hself : ((Scalar.ofInt zoom : Float) == Scalar.ofInt zoom) = true) :
    Definition.WritesGroup
      [(.object [("value", .string "a"), ("zoom", .integer zoom)], output)]
      (Scalar.ofInt zoom, [(.string "a", output)]) where
  first := ⟨_, _, rfl, hzoom, rfl⟩
  stops := .cons ⟨⟨_, hself, hzoom, rfl⟩, rfl⟩ .nil

/-- A string by zoom and class: a class of a level has its output, a missing class and one that is no
string have the default of the definition, and any other class has that of the declaration. -/
theorem evaluate_eq_categories_levels :
    ∃ f : StyleFunction Float, ofJson ⟨.string, some (.string "plain"), none, none, none⟩
        (.object [("default", .string "other"), ("property", .string "class"), ("stops", .array [
          .array [.object [("value", .string "a"), ("zoom", .integer 0)], .string "low"],
          .array [.object [("value", .string "a"), ("zoom", .integer 10)], .string "high"]]),
          ("type", .string "categorical")]) = .ok f ∧
      (f.evaluate [] (some 0) [("class", .string "a")]).1.value = some (.string "low") ∧
      (f.evaluate [] (some 12) [("class", .string "a")]).1.value = some (.string "high") ∧
      (f.evaluate [] (some 12) []).1.value = some (.string "other") ∧
      (f.evaluate [] (some 12) [("class", .boolean true)]).1.value = some (.string "other") ∧
      (f.evaluate [] (some 12) [("class", .string "b")]).1.value = some (.string "plain") := by
  have hd : Definition.ofJson? (N := Float) (.object [("default", .string "other"),
      ("property", .string "class"), ("stops", .array [
        .array [.object [("value", .string "a"), ("zoom", .integer 0)], .string "low"],
        .array [.object [("value", .string "a"), ("zoom", .integer 10)], .string "high"]]),
      ("type", .string "categorical")]) =
      some ⟨some .categorical, some "class", some (List.flatten [
        [(.object [("value", .string "a"), ("zoom", .integer 0)], .string "low")],
        [(.object [("value", .string "a"), ("zoom", .integer 10)], .string "high")]]), none,
        some (.string "other")⟩ := rfl
  obtain ⟨f, hf, hread⟩ := evaluate_eq_categories accepts_default_plainText hd rfl rfl rfl
    (by rintro _ ⟨⟩; exact accepts_plainText "other")
    (show Definition.Lists _ (.levelled [_, _]) from
      ⟨_, rfl, .cons (writesGroup_singleton 0 (.string "low") rfl rfl)
        (.cons (writesGroup_singleton 10 (.string "high") rfl rfl) .nil)⟩)
    ⟨List.cons_ne_nil _ _, .cons (List.forall_mem_singleton.mpr rfl) (.cons nofun .nil),
      List.forall_mem_cons.mpr ⟨sorts_plainText "low",
        List.forall_mem_singleton.mpr (sorts_plainText "high")⟩⟩
  have hself (n : Float) (h : (n == n) = true) : ∀ x, some n = some x → (x == x) = true := by
    rintro _ ⟨⟩
    exact h
  refine ⟨f, hf, ?_, ?_, ?_, ?_, ?_⟩
  · exact (hread _ _ _ (hself _ rfl)).trans rfl
  · exact (hread _ _ _ (hself _ rfl)).trans rfl
  · exact (hread _ _ _ (hself _ rfl)).trans rfl
  · exact (hread _ _ _ (hself _ rfl)).trans rfl
  · exact (hread _ _ _ (hself _ rfl)).trans rfl

/-- The default of a definition over the zoom and a property is passed over where the property is of the
kind of the keys and equals none, although it is a constant of the property and has a value. -/
theorem exists_default_passed_over :
    ∃ f : StyleFunction Float, ofJson ⟨.string, some (.string "plain"), none, none, none⟩
        (.object [("default", .string "other"), ("property", .string "class"), ("stops", .array [
          .array [.object [("value", .string "a"), ("zoom", .integer 0)], .string "low"]]),
          ("type", .string "categorical")]) = .ok f ∧
      PropertySpec.reply ⟨.string, some (.string "plain"), none, none, none⟩ (.string "other")
        (some (1 : Float)) [("class", .string "b")] = some (.string "other") ∧
      (f.evaluate [] (some 1) [("class", .string "b")]).1.value ≠ some (.string "other") := by
  have hd : Definition.ofJson? (N := Float) (.object [("default", .string "other"),
      ("property", .string "class"), ("stops", .array [
        .array [.object [("value", .string "a"), ("zoom", .integer 0)], .string "low"]]),
      ("type", .string "categorical")]) =
      some ⟨some .categorical, some "class", some (List.flatten [
        [(.object [("value", .string "a"), ("zoom", .integer 0)], .string "low")]]), none,
        some (.string "other")⟩ := rfl
  obtain ⟨f, hf, hvalue⟩ := exists_ofJson_categorical accepts_default_plainText hd rfl rfl rfl
    (by rintro _ ⟨⟩; exact accepts_plainText "other")
    (show Definition.Lists _ (.levelled [_]) from
      ⟨_, rfl, .cons (writesGroup_singleton 0 (.string "low") rfl rfl) .nil⟩)
    ⟨List.cons_ne_nil _ _, .cons nofun .nil, List.forall_mem_singleton.mpr (sorts_plainText "low")⟩
  refine ⟨f, hf, rfl, fun h => ?_⟩
  have hreply := hvalue [] (some 1) [("class", .string "b")] (by rintro _ ⟨⟩; rfl)
  have hplain : some (Value.string (N := Float) "plain") = some (.string "other") :=
    Eq.trans rfl (hreply.symm.trans h)
  exact absurd (Value.string.inj (Option.some.inj hplain)) (by decide)

end StyleFunction

end MapStyle
