import MapStyle.Proofs.Property.Stops

/-!
# Tables of stops

A `Table` is what the stops of a definition say, with their inputs read as numbers. `Definition.Writes`
tells which table a definition writes down, `Table.Fits` which tables are sound for a property, and
`Definition.reading` what a definition answers by its table, with no expression in between.

A definition over the zoom and a property writes one list of stops down, and is lowered by gathering
neighbours with one zoom. That gives the levels of its table back (`levels_flatten`).
-/

namespace MapStyle

variable {N : Type}

/-- The stops of a definition, with the inputs as numbers. -/
inductive Table (N : Type) where
  /-- Outputs at zooms. -/
  | overZoom (stops : List (N × Json N))
  /-- Outputs at numbers that a property may be. -/
  | overProperty (name : String) (stops : List (N × Json N))
  /-- For each zoom, outputs at numbers that a property may be. -/
  | overBoth (name : String) (levels : List (N × List (N × Json N)))

section

variable [Scalar N]

/-! ## Reading -/

namespace PropertySpec

variable (spec : PropertySpec N)

/-- Stops with the replies of their outputs. -/
def rows (stops : List (N × Json N)) : List (N × Reply N) :=
  stops.map fun stop => (stop.1, spec.reply stop.2)

/-- How values of the property are blended. -/
def outputKind : Curve.OutputKind := .ofType spec.expectedType

end PropertySpec

/-- What a table answers: its stops are read at the zoom or the property, and those of levels at the
zoom over what each level reads at the property. -/
def Table.reading (spec : PropertySpec N) (base : Option N) : Table N → Reply N
  | .overZoom stops => readRows base spec.outputKind (fun zoom _ => zoom) (spec.rows stops)
  | .overProperty name stops =>
    readRows base spec.outputKind (numberProperty name) (spec.rows stops)
  | .overBoth name levels => readRows base spec.outputKind (fun zoom _ => zoom) (levels.map fun level =>
    (level.1, readRows base spec.outputKind (numberProperty name) (spec.rows level.2)))

namespace Definition

/-- The base by which outputs are blended, one where none is given. An interval function does not
blend, nor do values that cannot be blended. -/
def blendBase (spec : PropertySpec N) (d : Definition N) : Option N :=
  if d.kind = some .interval ∨ spec.outputKind = .discrete then none
  else some (d.base.getD (Scalar.ofInt 1))

/-- What a definition answers by its table: what that reads, else the default of the definition, else
that of the property. -/
def reading (spec : PropertySpec N) (d : Definition N) (table : Table N) : Reply N :=
  fun zoom properties =>
    ((table.reading spec (d.blendBase spec) zoom properties).or
      (d.default.bind fun value => spec.reply value zoom properties)).or
        (spec.defaultReply zoom properties)

/-! ## Tables as written -/

/-- Whether raw stops write stops down. -/
def WritesStops (raws : List (Json N × Json N)) (stops : List (N × Json N)) : Prop :=
  List.Forall₂ (fun raw stop => raw.1.number? = some stop.1 ∧ raw.2 = stop.2) raws stops

/-- Whether a raw input names the zoom and the number. -/
def Names (input : Json N) (zoom x : N) : Prop :=
  (input.field? "zoom").bind Json.number? = some zoom ∧
    (input.field? "value").bind Json.number? = some x

/-- Whether raw stops write a level down: they all name one zoom, and that of the level is what the
first names. -/
structure WritesLevel (raws : List (Json N × Json N)) (level : N × List (N × Json N)) : Prop where
  first : ∃ raw x, raws.head? = some raw ∧ Names raw.1 level.1 x
  stops : List.Forall₂ (fun raw stop => (∃ zoom, (level.1 == zoom) = true ∧
    Names raw.1 zoom stop.1) ∧ raw.2 = stop.2) raws level.2

/-- Whether a definition writes a table down. -/
def Writes (d : Definition N) : Table N → Prop
  | .overZoom stops => d.property = none ∧ ∃ raws, d.stops = some raws ∧ WritesStops raws stops
  | .overProperty name stops =>
    d.property = some name ∧ ∃ raws, d.stops = some raws ∧ WritesStops raws stops
  | .overBoth name levels => d.property = some name ∧
    ∃ parts, d.stops = some parts.flatten ∧ List.Forall₂ WritesLevel parts levels

end Definition

/-- Whether there are stops, with ascending inputs, whose outputs the property accepts. -/
structure PropertySpec.Suits (spec : PropertySpec N) (stops : List (N × Json N)) : Prop where
  ne_nil : stops ≠ []
  ascending : Ascending (stops.map (·.1))
  accepted : ∀ stop ∈ stops, spec.Accepts stop.2

/-- Whether a table is sound for a property: there are stops, their inputs ascend, and the property
accepts their outputs. -/
def Table.Fits (spec : PropertySpec N) : Table N → Prop
  | .overZoom stops | .overProperty _ stops => spec.Suits stops
  | .overBoth _ levels => levels ≠ [] ∧ Ascending (levels.map (·.1)) ∧
    ∀ level ∈ levels, spec.Suits level.2

/-! ## Stops lowered -/

/-- Stops that suit a property stand when they are converted. -/
theorem PropertySpec.Suits.stand {spec : PropertySpec N} {calls : Calls N}
    {raws : List (Json N × Json N)} {stops : List (N × Json N)} (h : spec.Suits stops)
    (hwrites : Definition.WritesStops raws stops) :
    StopsStand calls spec.expectedType (Definition.convertStops spec raws) (spec.rows stops) where
  ne_nil := fun hnil => h.ne_nil (List.map_eq_nil_iff.mp hnil)
  ascending := by
    rw [PropertySpec.rows, List.map_map]
    exact h.ascending
  stand := by
    rw [Definition.convertStops, PropertySpec.rows, List.forall₂_map_left_iff,
      List.forall₂_map_right_iff]
    refine (forall₂_and_right hwrites h.accepted).imp fun raw stop => ?_
    rintro ⟨⟨hinput, houtput⟩, haccepted⟩
    refine ⟨hinput, ?_⟩
    show Stands calls spec.expectedType (spec.constant raw.2) (spec.reply stop.2)
    rw [houtput]
    exact stands_constant haccepted

end

/-! ## Levels -/

namespace Definition

variable [Scalar N] [LawfulOrder N]

omit [LawfulOrder N] in
theorem levels_cons (first : N × Json N × Json N) (rest : List (N × Json N × Json N)) :
    levels (first :: rest) = match levels rest with
      | (next, stops) :: others =>
        if first.1 == next then (first.1, first.2 :: stops) :: others
        else (first.1, [first.2]) :: (next, stops) :: others
      | [] => [(first.1, [first.2])] := rfl

/-- Neighbours with one zoom, in front of levels with greater zooms, are gathered into a level. -/
theorem levels_append {zoom : N} {first : N × Json N × Json N}
    {part rest : List (N × Json N × Json N)} (hsame : ∀ p ∈ first :: part, (zoom == p.1) = true)
    (hnext : ∀ next ∈ (levels rest).head?, Scalar.less zoom next.1 = true) :
    levels (first :: part ++ rest) = (first.1, (first :: part).map (·.2)) :: levels rest := by
  induction part generalizing first with
  | nil =>
    rw [List.forall_mem_singleton] at hsame
    show levels (first :: rest) = _
    rw [levels_cons]
    cases hlevels : levels rest with
    | nil => rfl
    | cons next others =>
      have hne := Scalar.not_beq_of_less hsame (hnext next (by rw [hlevels]; rfl))
      exact if_neg (by rw [hne]; exact Bool.false_ne_true)
  | cons second part ih =>
    rw [List.forall_mem_cons] at hsame
    show levels (first :: (second :: part ++ rest)) = _
    rw [levels_cons, ih hsame.2]
    exact if_pos (Scalar.beq_of_beq_left hsame.1 (hsame.2 second List.mem_cons_self))

section

variable {α : Type} {R : Json N × Json N → α → Prop}

/-- Whether stops that have been placed at zooms are those of a level, where `R` tells which placed
stop is which stop of the level. -/
structure PlacedLevel (R : Json N × Json N → α → Prop) (placed : List (N × Json N × Json N))
    (level : N × List α) : Prop where
  finite : Scalar.isFinite level.1 = true
  first : (placed.head?).map (·.1) = some level.1
  zoom : ∀ p ∈ placed, (level.1 == p.1) = true
  stops : List.Forall₂ R (placed.map (·.2)) level.2

/-- Placed stops of ascending levels are gathered into the levels. -/
theorem levels_flatten {parts : List (List (N × Json N × Json N))} {table : List (N × List α)}
    (h : List.Forall₂ (PlacedLevel R) parts table) (hascending : Ascending (table.map (·.1))) :
    List.Forall₂ (fun level row => level.1 = row.1 ∧ Scalar.isFinite row.1 = true ∧
      List.Forall₂ R level.2 row.2) (levels parts.flatten) table := by
  induction h with
  | nil => exact .nil
  | @cons part row parts table hpart hparts ih =>
    obtain ⟨hless, hrest⟩ := List.pairwise_cons.mp hascending
    have hlevels := ih hrest
    cases part with
    | nil => cases hpart.first
    | cons first part =>
      have hfirst : first.1 = row.1 := Option.some.inj hpart.first
      rw [List.flatten_cons, levels_append hpart.zoom]
      · exact .cons ⟨hfirst, hpart.finite, hpart.stops⟩ hlevels
      · intro next hnext
        obtain ⟨others, hothers⟩ := List.head?_eq_some_iff.mp hnext
        rw [hothers] at hlevels
        cases hlevels with
        | cons hrow _ =>
          rw [hrow.1]
          exact hless _ List.mem_cons_self

end

end Definition

end MapStyle
