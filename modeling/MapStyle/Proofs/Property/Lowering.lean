import MapStyle.Proofs.Property.Table

/-!
# What the stops of a definition are lowered to

The stops of an exponential or interval definition are lowered to a curve. Where they write down a table
that suits the property, the curve is spelled and reads the table (`Definition.exists_body`).

* The raw interpolation blends just where the table is read so (`blendsAs_interpolation`): the property
  says that its values can be blended where the type of the curve can (`isInterpolatable_iff`).
* Stops over the zoom and a property become a curve over the zoom, with one curve over the property for
  each level (`exists_composite`).
-/

namespace MapStyle

open Parse

variable {N : Type} [Scalar N] {spec : PropertySpec N}

/-! ## Interpolation -/

namespace PropertySpec

omit [Scalar N] in
theorem expectedType_ne_value (spec : PropertySpec N) : spec.expectedType ≠ .value := by
  unfold expectedType
  split <;> exact nofun

omit [Scalar N] in
/-- The property says that its values can be blended just where their type can. -/
theorem isInterpolatable_iff : spec.isInterpolatable = true ↔ spec.outputKind ≠ .discrete := by
  unfold isInterpolatable outputKind expectedType
  cases spec.kind with
  | array =>
    show (spec.item == some "number") = true ↔ Curve.OutputKind.ofType (.array _ _) ≠ .discrete
    rw [beq_iff_eq]
    by_cases h : spec.item = some "number"
    · simp [itemType, h, Curve.OutputKind.ofType]
    · refine iff_of_false h (not_not.mpr ?_)
      unfold itemType
      split
      all_goals first | rfl | exact absurd ‹_› h
  | _ => simp [Curve.OutputKind.ofType]

end PropertySpec

theorem blendsAs_step (type : Ty) : BlendsAs (N := N) type (.call "step" []) none :=
  ⟨.step, rfl, rfl, .inl rfl⟩

section

variable [LawfulOrder N]

/-- A base that equals one blends on a straight line. -/
theorem blendsAs_linear {type : Ty} (htype : Curve.OutputKind.ofType type ≠ .discrete) {base : N}
    (hbase : (base == Scalar.ofInt 1) = true) :
    BlendsAs type (.call "linear" []) (some base) := by
  refine ⟨.linear, rfl, ⟨nofun, fun x lower upper => ?_⟩, .inr htype⟩
  have hone : ((Scalar.ofInt 1 : N) == Scalar.ofInt 1) = true := Scalar.beq_of_beq_left hbase hbase
  show Interpolation.exponentialFactor (Scalar.ofInt 1) x lower upper = _
  unfold Interpolation.exponentialFactor
  dsimp only
  rw [if_pos hone, if_pos hbase]

omit [LawfulOrder N] in
theorem blendsAs_exponential {type : Ty} (htype : Curve.OutputKind.ofType type ≠ .discrete) {base : N}
    (hbase : Scalar.isFinite base = true) :
    BlendsAs type (.call "exponential" [.real base]) (some base) := by
  refine ⟨.exponential base, readInterpolation_exponential ?_, ⟨nofun, fun _ _ _ => rfl⟩, .inr htype⟩
  have hread : (Json.real base).number? = some base := if_pos hbase
  rw [List.mapM_cons, hread]
  rfl

namespace Definition

/-- How the stops of a definition are read, where it has no type of its own by what the property
allows. -/
def readKind (spec : PropertySpec N) (d : Definition N) : FunctionKind :=
  d.kind.getD (if spec.isInterpolatable then .exponential else .interval)

/-- Whether the stops of a definition are read by their order: it is exponential or interval, or has no
type. The base, if there is one, is finite. -/
structure IsGraded (d : Definition N) : Prop where
  ne_identity : d.kind ≠ some .identity
  ne_categorical : d.kind ≠ some .categorical
  isFinite : ∀ base, d.base = some base → Scalar.isFinite base = true

omit [Scalar N] [LawfulOrder N] in
/-- A definition without a type is read in one of the two ways that interpolate or step. -/
theorem readKind_ne {d : Definition N} {kind : FunctionKind} (h : d.kind ≠ some kind)
    (hexponential : kind ≠ .exponential) (hinterval : kind ≠ .interval) : d.readKind spec ≠ kind := by
  unfold readKind
  cases hd : d.kind with
  | none =>
    rw [Option.getD_none]
    split
    · exact hexponential.symm
    · exact hinterval.symm
  | some own => exact fun heq => h (hd.trans (congrArg some heq))

/-- The interpolation that an exponential or interval definition is lowered to blends as its table
is read. -/
theorem blendsAs_interpolation {d : Definition N} (h : d.IsGraded) :
    BlendsAs spec.expectedType (interpolation spec (d.readKind spec) d.base) (d.blendBase spec) := by
  unfold interpolation blendBase
  by_cases hstep : d.kind = some .interval ∨ spec.outputKind = .discrete
  · have hkind : ¬(d.readKind spec = .exponential ∧ spec.isInterpolatable = true) := by
      rintro ⟨hexponential, hinterpolatable⟩
      refine hstep.elim (fun hinterval => ?_) (PropertySpec.isInterpolatable_iff.mp hinterpolatable)
      rw [readKind, hinterval] at hexponential
      cases hexponential
    rw [if_pos hstep, if_neg hkind]
    exact blendsAs_step _
  · rw [not_or] at hstep
    have hinterpolatable := PropertySpec.isInterpolatable_iff.mpr hstep.2
    have hkind : d.readKind spec = .exponential := by
      unfold readKind
      cases hd : d.kind with
      | none => rw [Option.getD_none, if_pos hinterpolatable]
      | some kind => cases kind with
        | exponential => rfl
        | identity => exact absurd hd h.ne_identity
        | interval => exact absurd hd hstep.1
        | categorical => exact absurd hd h.ne_categorical
    rw [if_neg (not_or.mpr hstep), if_pos ⟨hkind, hinterpolatable⟩]
    cases hd : d.base with
    | none => exact ⟨.linear, rfl, ⟨nofun, fun _ _ _ => rfl⟩, .inr hstep.2⟩
    | some base =>
      dsimp only
      split
      next hone => exact blendsAs_linear hstep.2 hone
      next => exact blendsAs_exponential hstep.2 (h.isFinite base hd)

/-! ## Levels -/

omit [LawfulOrder N] in
theorem zoomAndValue_eq_ok_iff {input value : Json N} {zoom : N} :
    zoomAndValue input = .ok (zoom, value) ↔
      (input.field? "zoom").bind Json.number? = some zoom ∧ input.field? "value" = some value := by
  unfold zoomAndValue
  cases (input.field? "zoom").bind Json.number? with
  | none => exact ⟨nofun, nofun⟩
  | some zoom' =>
    cases input.field? "value" with
    | none => exact ⟨nofun, nofun⟩
    | some value' =>
      rw [Except.ok.injEq, Prod.mk.injEq, Option.some.injEq, Option.some.injEq]

omit [LawfulOrder N] in
/-- The raw stops of a level are placed at its zoom. -/
theorem exists_placed {α : Type} {R : Json N × Json N → α → Prop} {raws : List (Json N × Json N)}
    {level : N × List α}
    (hfirst : ∃ raw value, raws.head? = some raw ∧ zoomAndValue raw.1 = .ok (level.1, value))
    (hstops : List.Forall₂ (fun raw stop => ∃ zoom value, (level.1 == zoom) = true ∧
      zoomAndValue raw.1 = .ok (zoom, value) ∧ R (value, raw.2) stop) raws level.2) :
    ∃ placed, List.Forall₂ (fun raw (p : N × Json N × Json N) =>
        zoomAndValue raw.1 = .ok (p.1, p.2.1) ∧ raw.2 = p.2.2) raws placed ∧
      PlacedLevel R placed level := by
  obtain ⟨placed, hplaced, hlevel⟩ := exists_forall₂_comp hstops
    (S := fun raw (p : N × Json N × Json N) =>
      zoomAndValue raw.1 = .ok (p.1, p.2.1) ∧ raw.2 = p.2.2)
    (T := fun p stop => (level.1 == p.1) = true ∧ R p.2 stop)
    (by
      rintro raw stop ⟨zoom, value, hzoom, hplace, hstop⟩
      exact ⟨(zoom, value, raw.2), ⟨hplace, rfl⟩, hzoom, hstop⟩)
  obtain ⟨raw, value, hhead, hplace⟩ := hfirst
  refine ⟨placed, hplaced, ?_, ?_, forall_left_of_forall₂ hlevel fun _ _ hp => hp.1,
    List.forall₂_map_left_iff.mpr (hlevel.imp fun _ _ hp => hp.2)⟩
  · obtain ⟨hzoom, -⟩ := zoomAndValue_eq_ok_iff.mp hplace
    obtain ⟨zoom, -, hnumber⟩ := Option.bind_eq_some_iff.mp hzoom
    exact Json.isFinite_of_number? hnumber
  · cases hplaced with
    | nil => cases hhead
    | cons hp _ =>
      cases hhead
      have hzooms := (Except.ok.inj (hp.1.symm.trans hplace))
      exact congrArg (some ·.1) hzooms

omit [LawfulOrder N] in
/-- The raw stops of a level that is written down are placed at its zoom. -/
theorem WritesLevel.exists_placed {raws : List (Json N × Json N)} {level : N × List (N × Json N)}
    (h : WritesLevel raws level) : ∃ placed,
      List.Forall₂ (fun raw (p : N × Json N × Json N) =>
        zoomAndValue raw.1 = .ok (p.1, p.2.1) ∧ raw.2 = p.2.2) raws placed ∧
      PlacedLevel (fun raw stop => raw.1.number? = some stop.1 ∧ raw.2 = stop.2) placed level := by
  obtain ⟨raw, x, hhead, hzoom, hvalue⟩ := h.first
  obtain ⟨value, hfield, -⟩ := Option.bind_eq_some_iff.mp hvalue
  refine Definition.exists_placed ⟨raw, value, hhead, zoomAndValue_eq_ok_iff.mpr ⟨hzoom, hfield⟩⟩
    (h.stops.imp ?_)
  rintro raw stop ⟨⟨zoom, hsame, hzoom, hvalue⟩, houtput⟩
  obtain ⟨value, hfield, hnumber⟩ := Option.bind_eq_some_iff.mp hvalue
  exact ⟨zoom, value, hsame, zoomAndValue_eq_ok_iff.mpr ⟨hzoom, hfield⟩, hnumber, houtput⟩

omit [LawfulOrder N] in
/-- Stops that have been placed are gathered, and each level becomes an output of a curve over the
zoom. -/
theorem composite_eq {kind : FunctionKind} {base : Option N} {name : String}
    {raws : List (Json N × Json N)} {placed : List (N × Json N × Json N)}
    (hplaced : List.Forall₂ (fun raw (p : N × Json N × Json N) =>
      zoomAndValue raw.1 = .ok (p.1, p.2.1) ∧ raw.2 = p.2.2) raws placed)
    {output : List (Json N × Json N) → Json N} (houtput : ∀ level ∈ levels placed,
      ofProperty spec kind base name level.2 none = .ok (output level.2)) :
    composite spec kind base name raws = .ok (curve
      (if kind = .categorical then .call "step" [] else interpolation spec kind base)
      (.call "zoom" []) ((levels placed).map fun level => (.real level.1, output level.2))) := by
  unfold composite
  refine (mapM_bind_eq (hplaced.imp fun raw p => ?_)).trans ((mapM_bind_eq
    (List.forall₂_map_right_iff.mpr (List.forall₂_same.mpr fun level hlevel => ?_))).trans rfl)
  · rintro ⟨hplace, hsame⟩
    dsimp only
    rw [hplace, hsame]
    rfl
  · dsimp only
    rw [houtput level hlevel]
    rfl

/-- The curve over a property that stops which are no categories are lowered to. -/
def propertyCurve (spec : PropertySpec N) (kind : FunctionKind) (base : Option N) (name : String)
    (stops : List (Json N × Json N)) : Json N :=
  curve (interpolation spec kind base) (.call "number" [.call "get" [.string name]])
    (convertStops spec stops)

omit [LawfulOrder N] in
theorem ofProperty_eq {kind : FunctionKind} (h : kind ≠ .categorical) (base : Option N)
    (name : String) (stops : List (Json N × Json N)) (default : Option (Json N)) :
    ofProperty spec kind base name stops default = .ok (propertyCurve spec kind base name stops) :=
  if_neg h

/-- Levels that suit the property are lowered to a curve over curves that read the levels. -/
theorem exists_composite {d : Definition N} (h : d.IsGraded) (name : String)
    {parts : List (List (Json N × Json N))} {table : List (N × List (N × Json N))}
    (hwrites : List.Forall₂ WritesLevel parts table)
    (hfits : (Table.overBoth name table).Fits spec) :
    ∃ outputs, composite spec (d.readKind spec) d.base name parts.flatten =
        .ok (curve (interpolation spec (d.readKind spec) d.base) (.call "zoom" []) outputs) ∧
      StopsStand Comparable spec.expectedType outputs (table.map fun level =>
        (level.1, readRows (d.blendBase spec) spec.outputKind (numberProperty name)
          (spec.rows level.2))) := by
  obtain ⟨hne, hascending, hsuits⟩ := hfits
  obtain ⟨placed, hplaced, hlevels⟩ :=
    exists_forall₂_comp hwrites fun _ _ => WritesLevel.exists_placed
  have hgathered := levels_flatten hlevels hascending
  have hkind : d.readKind spec ≠ .categorical := readKind_ne h.ne_categorical nofun nofun
  have houtput : ∀ level ∈ levels placed.flatten,
      ofProperty spec (d.readKind spec) d.base name level.2 none =
        .ok (propertyCurve spec (d.readKind spec) d.base name level.2) :=
    fun level _ => ofProperty_eq hkind d.base name level.2 none
  have hcomposite := composite_eq (List.rel_flatten hplaced) houtput
  rw [if_neg hkind] at hcomposite
  refine ⟨_, hcomposite, ?_, ?_, ?_⟩
  · exact fun hnil => hne (List.map_eq_nil_iff.mp hnil)
  · rw [List.map_map]
    exact hascending
  · rw [List.forall₂_map_left_iff, List.forall₂_map_right_iff]
    refine (forall₂_and_right hgathered hsuits).imp fun level row => ?_
    rintro ⟨⟨hzoom, hfinite, hwrites⟩, hsuit⟩
    refine ⟨?_, stands_propertyCurve spec.expectedType_ne_value
      (blendsAs_interpolation h) (hsuit.stand hwrites) name⟩
    show Json.finite? level.1 = some row.1
    rw [hzoom]
    exact if_pos hfinite

/-! ## Bodies -/

omit [LawfulOrder N] in
theorem exists_first {raws : List (Json N × Json N)} {stops : List (N × Json N)}
    (hwrites : WritesStops raws stops) (hne : stops ≠ []) :
    ∃ first rest, raws = first :: rest ∧ first.1.isObject = false := by
  cases hwrites with
  | nil => exact absurd rfl hne
  | @cons first _ rest _ hfirst _ =>
    refine ⟨first, rest, rfl, ?_⟩
    cases hinput : first.1 with
    | object => rw [hinput] at hfirst; cases hfirst.1
    | _ => rfl

omit [Scalar N] [LawfulOrder N] in
theorem isObject_of_field {α : Type} {input : Json N} {name : String} {read : Json N → Option α}
    {a : α} (h : (input.field? name).bind read = some a) : input.isObject = true := by
  cases input with
  | object => rfl
  | _ => cases h

omit [Scalar N] [LawfulOrder N] in
/-- The first stop of levels is the first of the first level. -/
theorem exists_first_level {α : Type} {R : List (Json N × Json N) → α → Prop}
    {parts : List (List (Json N × Json N))} {table : List α} (hparts : List.Forall₂ R parts table)
    (hne : table ≠ [])
    (hfirst : ∀ part level, R part level → ∃ first, part.head? = some first ∧
      first.1.isObject = true) :
    ∃ first rest, parts.flatten = first :: rest ∧ first.1.isObject = true := by
  cases hparts with
  | nil => exact absurd rfl hne
  | @cons part _ parts _ hpart _ =>
    obtain ⟨first, hhead, hobject⟩ := hfirst _ _ hpart
    obtain ⟨rest, rfl⟩ := List.head?_eq_some_iff.mp hhead
    exact ⟨first, rest ++ parts.flatten, rfl, hobject⟩

/-- The stops of a definition are lowered to a curve that reads the table. -/
theorem exists_body {d : Definition N} {table : Table N} (h : d.IsGraded)
    (hwrites : d.Writes table) (hfits : table.Fits spec) :
    ∃ raw, body spec (d.readKind spec) d (d.stops.getD []) = .ok raw ∧ ∀ key, ∃ e,
      Spells ⟨key, some spec.expectedType, []⟩ raw e ∧ e.FitsZoom ∧
        e.HasReply Comparable (table.reading spec (d.blendBase spec)) := by
  have hblends : BlendsAs spec.expectedType _ _ := blendsAs_interpolation h
  have hvalue := spec.expectedType_ne_value
  have hself (zoom : Option N) (properties : Properties N) (x : N)
      (h : Comparable zoom properties) : zoom = some x → (x == x) = true := h.zoom x
  cases table with
  | overZoom stops =>
    obtain ⟨hproperty, raws, hraws, hstops⟩ := hwrites
    obtain ⟨first, rest, hfirst, hobject⟩ := exists_first hstops hfits.ne_nil
    refine ⟨curve (interpolation spec (d.readKind spec) d.base) (.call "zoom" [])
      (convertStops spec raws), ?_, fun key => ?_⟩
    · rw [hraws, Option.getD_some, hfirst]
      unfold body
      dsimp only
      rw [hproperty, hobject]
    · obtain ⟨e, c, hspells, hcurve, hanswers⟩ :=
        exists_zoomCurve hvalue hblends (hfits.stand hstops) hself key
      exact ⟨e, hspells, .inr ⟨c, hcurve⟩, hanswers⟩
  | overProperty name stops =>
    obtain ⟨hproperty, raws, hraws, hstops⟩ := hwrites
    obtain ⟨first, rest, hfirst, hobject⟩ := exists_first hstops hfits.ne_nil
    refine ⟨curve (interpolation spec (d.readKind spec) d.base)
      (.call "number" [.call "get" [.string name]]) (convertStops spec raws), ?_, fun key => ?_⟩
    · rw [hraws, Option.getD_some, hfirst]
      unfold body
      dsimp only
      rw [hproperty, hobject]
      exact ofProperty_eq (readKind_ne h.ne_categorical nofun nofun) ..
    · obtain ⟨e, hspells, hconstant, hanswers⟩ :=
        stands_propertyCurve hvalue hblends (hfits.stand hstops) name key
      exact ⟨e, hspells, .inl hconstant, hanswers⟩
  | overBoth name levels =>
    obtain ⟨hproperty, parts, hparts, hlevels⟩ := hwrites
    obtain ⟨first, rest, hfirst, hobject⟩ := exists_first_level hlevels hfits.1
      fun part level ⟨⟨raw, _, hhead, hzoom, _⟩, _⟩ => ⟨raw, hhead, isObject_of_field hzoom⟩
    obtain ⟨outputs, hcomposite, hstand⟩ := exists_composite h name hlevels hfits
    refine ⟨curve (interpolation spec (d.readKind spec) d.base) (.call "zoom" []) outputs, ?_,
      fun key => ?_⟩
    · rw [hparts, Option.getD_some, ← hcomposite, hfirst]
      unfold body
      dsimp only
      rw [hproperty, hobject]
    · obtain ⟨e, c, hspells, hcurve, hanswers⟩ := exists_zoomCurve hvalue hblends hstand hself key
      exact ⟨e, hspells, .inr ⟨c, hcurve⟩, hanswers⟩

end Definition

end

end MapStyle
