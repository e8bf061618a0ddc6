import MapStyle.Binary64.Scalar
import MapStyle.Proofs.Expr.TypeSoundness
import MapStyle.Proofs.Expr.Widening
import MapStyle.Proofs.Parse.Inversion

/-!
# Asking for a wider type

An expression that parses where no type is asked for parses also where a type above its own is asked
for, and then has the same outcomes (`Expr.parse_of_type_le`). The tree changes in types only: its
outputs take the type asked for.

There is one exception. A curve takes the type asked for as its own, and an array of any items cannot
be blended. So where such an array is asked for, no output may be a curve that interpolates.
-/

namespace MapStyle

variable {N : Type}

/-- The surroundings where another type is asked for. -/
def Context.asking (c : Context) (t : Ty) : Context := { c with expected := some t }

/-- To ask for `value` is to ask for nothing. -/
theorem Context.outputHint_asking_value {c : Context} (hc : c.expected = none) :
    c.outputHint = (c.asking .value).outputHint := by
  unfold outputHint asking
  rw [hc]
  rfl

namespace Parse

/-- A literal whose type lies below the one asked for has such a type there too. -/
theorem literalType_le {v : Value N} {expected : Option Ty} {t : Ty}
    (hle : literalType v expected ≤ t) : literalType v (some t) ≤ t := by
  unfold literalType at hle ⊢
  -- Only the empty array has a type that depends on the one asked for.
  split
  next item hitem =>
    cases hitem
    exact Ty.le_refl _
  next item hitem =>
    cases hitem
    exact Ty.le_refl _
  next hloose hempty =>
    split at hle
    next item =>
      cases t with
      | value => exact Ty.le_value _
      | array item' length =>
        obtain ⟨rfl | hlength, -⟩ := Ty.array_le_array.mp hle
        · exact absurd rfl (hloose item' rfl)
        · cases hlength
          exact absurd rfl (hloose item' rfl)
      | _ => cases hle
    next item =>
      cases t with
      | value => exact Ty.le_value _
      | array item' length =>
        obtain ⟨rfl | hlength, -⟩ := Ty.array_le_array.mp hle
        · exact absurd rfl (hloose item' rfl)
        · cases hlength
          exact absurd rfl (hempty item' rfl)
      | _ => cases hle
    · exact hle

variable [Scalar N] {c : Context} {raw : Json N} {e : Expr N} {t : Ty}

/-- What a raw value spells where `value` is asked for is what it spells where nothing is. -/
theorem Spells.asking_value (h : Spells c raw e) (hc : c.expected = none) :
    Spells (c.asking .value) raw e := by
  have haccepts (c : Context) : ∀ type, (c.asking .value).Accepts type := Context.accepts_value rfl
  have hliteral (v : Value N) : literalType v (some .value) = literalType v none := by
    cases v with
    | array items => cases items <;> rfl
    | _ => rfl
  induction h with
  | @bare c raw harray hobject hsafe =>
    rw [hc, ← hliteral]
    exact .bare harray hobject hsafe (haccepts c _)
  | @literal c raw hsafe =>
    rw [hc, ← hliteral]
    exact .literal hsafe (haccepts c _)
  | @var c _ _ hlookup => exact .var hlookup (haccepts c _)
  | letIn hne hlen hnames hvalues _ _ ihresult =>
    exact .letIn hne hlen hnames hvalues (ihresult hc)
  | @coalesce c raws args type hne hlen hargs htype =>
    rw [Context.outputHint_asking_value hc] at hargs htype
    exact .coalesce hne hlen hargs htype (haccepts c _)
  | @conditional c pairs branches raw otherwise type hne hlen htests houtputs hotherwise htype =>
    rw [Context.outputHint_asking_value hc] at houtputs hotherwise htype
    exact .conditional hne hlen htests houtputs hotherwise htype (haccepts c _)
  | @matching c pairs branches rawInput raw input otherwise type hne hlen hlabels hdistinct houtputs
      hinput hotherwise htype =>
    rw [Context.outputHint_asking_value hc] at houtputs hotherwise htype
    exact .matching hne hlen hlabels hdistinct houtputs hinput hotherwise htype (haccepts c _)
  | @curve c pairs stops rawKind rawInput kind input type hne hlen hkind hinput hstops hascending
      houtputs htype hblend =>
    rw [Context.outputHint_asking_value hc] at houtputs htype
    exact .curve hne hlen hkind hinput hstops hascending houtputs htype hblend (haccepts c _)
  | @arrayOf c _ _ _ _ _ hcheck hinput => exact .arrayOf hcheck hinput (haccepts c _)
  | @apply c _ _ _ _ hlen hargs htype => exact .apply hlen hargs htype (haccepts c _)

/-- Where a wider type is asked for, a raw value spells the widened tree. -/
theorem Spells.asking (h : Spells c raw e) (hsuits : e.Suits t) (ht : t ≠ .value) :
    Spells (c.asking t) raw (e.widen t) := by
  have haccepts : ∀ c : Context, (c.asking t).Accepts t := by
    rintro c _ ⟨⟩
    exact Ty.le_refl t
  have hsettle : ∀ (c : Context) (outputs : List (Expr N)),
      settle (c.asking t).outputHint outputs = some t := fun c => settle_outputHint rfl ht
  have houtput {d : Expr N} (hd : d ∈ e.outputs) : d.Suits t := hsuits.output h.wellTyped hd
  induction e using Expr.induction_on_children generalizing c raw with
  | h e ih =>
    have hchild {c' : Context} {raw' : Json N} {d : Expr N} (hd : d ∈ e.outputs)
        (hspells : Spells c' raw' d) : Spells (c'.asking t) raw' (d.widen t) :=
      ih d (e.outputs_subset_children hd) hspells (houtput hd)
        fun hd' => (houtput hd).output hspells.wellTyped hd'
    cases h with
    | bare harray hobject hsafe hc =>
      refine .bare harray hobject hsafe ?_
      rintro _ ⟨⟩
      exact literalType_le hsuits.le
    | literal hsafe hc =>
      refine .literal hsafe ?_
      rintro _ ⟨⟩
      exact literalType_le hsuits.le
    | var hlookup hc =>
      refine .var hlookup ?_
      rintro _ ⟨⟩
      exact hsuits.le
    | letIn hne hlen hnames hvalues hresult =>
      exact .letIn hne hlen hnames hvalues (hchild (List.mem_singleton.mpr rfl) hresult)
    | @coalesce _ raws args type hne hlen hargs htype hc =>
      rw [Expr.widen, Expr.widenArgs_eq_map]
      refine .coalesce hne ?_ (forall_getElem?_map_right.mpr fun i raw a hraw ha => ?_) ?_
        (haccepts c)
      · rw [List.length_map, hlen]
      · rw [hsettle]
        exact hchild (List.mem_of_getElem? ha) (hargs i raw a hraw ha)
      · rw [hsettle]
        rfl
    | @conditional _ pairs branches raw otherwise type hne hlen htests houtputs hotherwise htype hc =>
      rw [Expr.widen, Expr.widenBranches_eq_map]
      refine .conditional hne ?_ (forall_getElem?_map_right.mpr htests)
        (forall_getElem?_map_right.mpr fun i p b hp hb => ?_) ?_ ?_ (haccepts c)
      · rw [List.length_map, hlen]
      · rw [hsettle]
        have hb' := List.mem_map_of_mem (f := Prod.snd) (List.mem_of_getElem? hb)
        exact hchild (List.mem_append_left _ hb') (houtputs i p b hp hb)
      · rw [hsettle]
        exact hchild (List.mem_append_right _ (List.mem_singleton.mpr rfl)) hotherwise
      · rw [hsettle]
        rfl
    | @matching _ pairs branches rawInput raw input otherwise type hne hlen hlabels hdistinct houtputs
        hinput hotherwise htype hc =>
      have hlabelled : (branches.map fun b => (b.1, b.2.widen t)).flatMap (·.1) =
          branches.flatMap (·.1) := List.flatMap_map ..
      rw [Expr.widen, Expr.widenLabelled_eq_map]
      refine .matching hne ?_ (forall_getElem?_map_right.mpr hlabels) (hlabelled ▸ hdistinct)
        (forall_getElem?_map_right.mpr fun i p b hp hb => ?_) (hlabelled ▸ hinput) ?_ ?_
        (haccepts c)
      · rw [List.length_map, hlen]
      · rw [hsettle]
        have hb' := List.mem_map_of_mem (f := Prod.snd) (List.mem_of_getElem? hb)
        exact hchild (List.mem_append_left _ hb') (houtputs i p b hp hb)
      · rw [hsettle]
        exact hchild (List.mem_append_right _ (List.mem_singleton.mpr rfl)) hotherwise
      · rw [hsettle]
        rfl
    | @curve _ pairs stops rawKind rawInput kind input type hne hlen hkind hinput hstops hascending
        houtputs htype hblend hc =>
      rw [Expr.widen, Expr.widenStops_eq_map]
      refine .curve hne ?_ hkind hinput (forall_getElem?_map_right.mpr hstops) ?_
        (forall_getElem?_map_right.mpr fun i p s hp hs => ?_) ?_ ?_ (haccepts c)
      · rw [List.length_map, hlen]
      · rw [List.map_map]
        exact hascending
      · rw [hsettle]
        exact hchild (List.mem_map_of_mem (List.mem_of_getElem? hs)) (houtputs i p s hp hs)
      · rw [hsettle]
        rfl
      · cases hstep : kind.isStep with
        | true => exact .inl rfl
        | false =>
          have hne := hblend.resolve_left (by rw [hstep]; exact Bool.false_ne_true)
          rw [Curve.OutputKind.ofType_of_le hne hsuits.le ht fun hloose =>
            hsuits.blends hloose (.curve hstep)]
          exact .inr hne
    | arrayOf hcheck hinput hc =>
      refine .arrayOf hcheck hinput ?_
      rintro _ ⟨⟩
      exact hsuits.le
    | apply hlen hargs htype hc =>
      refine .apply hlen hargs htype ?_
      rintro _ ⟨⟩
      exact hsuits.le

/-- A raw value that spells an interpolating tree spells none where arrays of any items are asked
for. -/
theorem Spells.not_of_interpolates {c' : Context} {e' : Expr N} (hi : e.Interpolates)
    (h : Spells c raw e) (hc' : c'.expected = some t) (ht : t.IsLooseArray) :
    ¬Spells c' raw e' := by
  obtain ⟨length, rfl⟩ := ht
  have hsettle {c : Context} (hc : c.expected = some (.array .value length)) :
      ∀ outputs : List (Expr N), settle c.outputHint outputs = some (.array .value length) :=
    settle_outputHint hc nofun
  -- At each step the outputs are read against the type asked for, down to a curve that interpolates.
  induction hi generalizing c raw c' e' with
  | curve hkind =>
    intro h'
    cases h with
    | curve _ _ hread =>
      obtain ⟨-, kind, input, stops, type, -, hread', -, -, -, -, htype, hblend, -⟩ :=
        spells_curve_iff.mp h'
      rw [hread] at hread'
      cases hread'
      rw [hsettle hc'] at htype
      obtain rfl : Ty.array .value length = type := htype
      rcases hblend with hstep | hne
      · rw [hkind] at hstep
        cases hstep
      · exact hne rfl
  | @output e d hd _ ih =>
    intro h'
    cases h with
    | bare | literal | var | arrayOf | apply => cases hd
    | letIn _ _ _ _ hresult =>
      obtain rfl := List.mem_singleton.mp hd
      obtain ⟨-, bindings, result, -, -, -, hresult', -⟩ := spells_letIn_iff.mp h'
      refine ih hresult ?_ hresult'
      exact hc'
    | coalesce _ hlen hargs =>
      obtain ⟨i, raw, hraw, ha⟩ := exists_getElem?_of_mem hlen hd
      obtain ⟨-, args, type, hlen', hargs', -⟩ := spells_coalesce_iff.mp h'
      obtain ⟨a', ha'⟩ := exists_getElem?_of_getElem? hlen'.symm hraw
      have hspells := hargs' i raw a' hraw ha'
      rw [hsettle hc'] at hspells
      exact ih (hargs i raw d hraw ha) rfl hspells
    | @conditional _ pairs branches raw otherwise type hne hlen htests houtputs hotherwise =>
      obtain ⟨-, branches', otherwise', type', hlen', -, houtputs', hotherwise', -⟩ :=
        spells_conditional_iff.mp h'
      rcases List.mem_append.mp hd with hbranch | hlast
      · obtain ⟨b, hb, rfl⟩ := List.mem_map.mp hbranch
        obtain ⟨i, p, hp, hb⟩ := exists_getElem?_of_mem hlen hb
        obtain ⟨b', hb'⟩ := exists_getElem?_of_getElem? hlen'.symm hp
        have hspells := houtputs' i p b' hp hb'
        rw [hsettle hc'] at hspells
        exact ih (houtputs i p b hp hb) rfl hspells
      · obtain rfl := List.mem_singleton.mp hlast
        rw [hsettle hc'] at hotherwise'
        exact ih hotherwise rfl hotherwise'
    | @matching _ pairs branches rawInput raw input otherwise type hne hlen hlabels hdistinct houtputs
        hinput hotherwise =>
      obtain ⟨-, input', branches', otherwise', type', hlen', -, -, houtputs', -, hotherwise', -⟩ :=
        spells_matching_iff.mp h'
      rcases List.mem_append.mp hd with hbranch | hlast
      · obtain ⟨b, hb, rfl⟩ := List.mem_map.mp hbranch
        obtain ⟨i, p, hp, hb⟩ := exists_getElem?_of_mem hlen hb
        obtain ⟨b', hb'⟩ := exists_getElem?_of_getElem? hlen'.symm hp
        have hspells := houtputs' i p b' hp hb'
        rw [hsettle hc'] at hspells
        exact ih (houtputs i p b hp hb) rfl hspells
      · obtain rfl := List.mem_singleton.mp hlast
        rw [hsettle hc'] at hotherwise'
        exact ih hotherwise rfl hotherwise'
    | @curve _ pairs stops rawKind rawInput kind input type hne hlen hkind hinput hstops hascending
        houtputs =>
      obtain ⟨-, kind', input', stops', type', hlen', -, -, -, -, houtputs', -⟩ :=
        spells_curve_iff.mp h'
      obtain ⟨s, hs, rfl⟩ := List.mem_map.mp hd
      obtain ⟨i, p, hp, hs⟩ := exists_getElem?_of_mem hlen hs
      obtain ⟨s', hs'⟩ := exists_getElem?_of_getElem? hlen'.symm hp
      have hspells := houtputs' i p s' hp hs'
      rw [hsettle hc'] at hspells
      exact ih (houtputs i p s hp hs) rfl hspells

end Parse

namespace Expr

variable [Scalar N] {raw : Json N} {e : Expr N} {t : Ty}

/-- Where an expression parses that no type is asked of, it parses also against every type above its
own, and with the same outcomes; but not where arrays of any items are asked for and an output is a
curve that interpolates. -/
theorem parse_of_type_le (h : parse raw none = .ok e) (hle : e.type ≤ t) :
    ((∃ e', parse raw (some t) = .ok e') ↔ ¬(t.IsLooseArray ∧ e.Interpolates)) ∧
    ∀ e', parse raw (some t) = .ok e' → ∀ (zoom : Option N) (feature : Feature N),
      e'.eval ⟨zoom, feature, []⟩ = e.eval ⟨zoom, feature, []⟩ := by
  have hspells : Parse.Spells (.root none) raw e := parse_eq_ok_iff.mp h
  have hdenied : (∃ e', parse raw (some t) = .ok e') → ¬(t.IsLooseArray ∧ e.Interpolates) := by
    rintro ⟨e', h'⟩ ⟨hloose, hi⟩
    exact hspells.not_of_interpolates hi rfl hloose (parse_eq_ok_iff.mp h')
  have hwidened (hallowed : ¬(t.IsLooseArray ∧ e.Interpolates)) :
      ∃ e', parse raw (some t) = .ok e' ∧ e'.eval = e.eval := by
    by_cases ht : t = .value
    · subst ht
      exact ⟨e, parse_eq_ok_iff.mpr (hspells.asking_value rfl), rfl⟩
    · have hsuits : Suits t e := ⟨hle, fun hloose hi => hallowed ⟨hloose, hi⟩⟩
      exact ⟨e.widen t, parse_eq_ok_iff.mpr (hspells.asking hsuits ht),
        eval_widen hspells.wellTyped hsuits ht⟩
  refine ⟨⟨hdenied, fun hallowed => ?_⟩, fun e' h' zoom feature => ?_⟩
  · obtain ⟨e', h', -⟩ := hwidened hallowed
    exact ⟨e', h'⟩
  · obtain ⟨e'', h'', heval⟩ := hwidened (hdenied ⟨e', h'⟩)
    rw [h'] at h''
    cases h''
    rw [heval]

/-! ### A curve of arrays -/

section

/-- A curve from one array of two numbers to another. -/
def segment : Json Float :=
  .call "curve" [.call "linear" [], .call "zoom" [],
    .integer 0, .call "literal" [.array [.integer 1, .integer 2]],
    .integer 10, .call "literal" [.array [.integer 3, .integer 4]]]

/-- The tree of `segment`. -/
def segmentTree : Expr Float :=
  .curve [] (.array .number (some 2)) .linear (.apply [2] .number .zoom [])
    [(Scalar.ofInt 0, .literal [4] (.array .number (some 2)) (.ofJson (.array [.integer 1, .integer 2]))),
      (Scalar.ofInt 10,
        .literal [6] (.array .number (some 2)) (.ofJson (.array [.integer 3, .integer 4])))]

theorem spells_segment : Parse.Spells (.root none) segment segmentTree :=
  .curveOverZoom rfl rfl rfl rfl (.literal rfl nofun) (.literal rfl (Context.accepts_expected rfl))
    rfl (.inr nofun) nofun

theorem parse_segment : parse segment none = .ok segmentTree := parse_eq_ok_iff.mpr spells_segment

theorem parse_of_type_le_curve :
    ∃ e e' : Expr Float,
      parse (.call "curve" [.call "linear" [], .call "zoom" [],
        .integer 0, .call "literal" [.array [.integer 1, .integer 2]],
        .integer 10, .call "literal" [.array [.integer 3, .integer 4]]]) none = .ok e ∧
      e.type ≤ .array .number none ∧
      parse (.call "curve" [.call "linear" [], .call "zoom" [],
        .integer 0, .call "literal" [.array [.integer 1, .integer 2]],
        .integer 10, .call "literal" [.array [.integer 3, .integer 4]]])
        (some (.array .number none)) = .ok e' ∧
      ∀ zoom feature, e'.eval ⟨zoom, feature, []⟩ = e.eval ⟨zoom, feature, []⟩ := by
  have hle : segmentTree.type ≤ .array .number none := rfl
  obtain ⟨hiff, heval⟩ := parse_of_type_le parse_segment hle
  obtain ⟨e', he'⟩ := hiff.mpr fun ⟨⟨length, hloose⟩, _⟩ => by cases hloose
  exact ⟨segmentTree, e', parse_segment, hle, he', heval e' he'⟩

/-- The exception occurs: arrays of numbers are blended, but not where arrays of any items are asked
for. -/
theorem exists_parse_error_of_type_le :
    ∃ (e : Expr Float) (errors : List (ParseError Float)),
      parse (.call "curve" [.call "linear" [], .call "zoom" [],
        .integer 0, .call "literal" [.array [.integer 1, .integer 2]],
        .integer 10, .call "literal" [.array [.integer 3, .integer 4]]]) none = .ok e ∧
      e.type ≤ .array .value none ∧
      parse (.call "curve" [.call "linear" [], .call "zoom" [],
        .integer 0, .call "literal" [.array [.integer 1, .integer 2]],
        .integer 10, .call "literal" [.array [.integer 3, .integer 4]]])
        (some (.array .value none)) = .error errors := by
  have hblends : segmentTree.Interpolates := .curve rfl
  have hdenied : ∀ e', parse segment (some (.array .value none)) ≠ .ok e' := fun e' h' =>
    spells_segment.not_of_interpolates hblends rfl ⟨none, rfl⟩ (parse_eq_ok_iff.mp h')
  cases hparse : parse segment (some (.array .value none)) with
  | ok e' => exact absurd hparse (hdenied e')
  | error errors => exact ⟨segmentTree, errors, parse_segment, rfl, hparse⟩

end

end Expr

end MapStyle
