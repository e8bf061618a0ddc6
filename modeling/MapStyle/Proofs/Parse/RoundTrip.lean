import MapStyle.Binary64.Scalar
import MapStyle.Proofs.Binary64.Equality
import MapStyle.Proofs.Parse.Errors
import MapStyle.Proofs.Parse.Reading

/-!
# Parsing undoes writing

* `Spells.toJson`: where a raw value spells an expression, what the expression is written as spells
  its canonical form, in the same context. The types that parts are parsed against come from the
  context and from the types of the parts before, which the canonical form keeps.
* `Spells.alike`: an expression that is spelled is alike its canonical form.

`Expr.parse_toJson` puts both together for whole expressions.
-/

namespace MapStyle

variable {N : Type} [Scalar N]

namespace Parse

theorem head?_type_canonical (labels : List (Label N)) :
    (labels.map Label.canonical).head?.map Label.type = labels.head?.map Label.type := by
  cases labels with
  | nil => rfl
  | cons l rest => exact congrArg some l.type_canonical

/-! ## Writing keeps spellings -/

variable [LawfulEq N]

theorem Spells.toJson {c : Context} {raw : Json N} {e : Expr N} (h : Spells c raw e) :
    Spells c e.toJson e.canonical := by
  -- The context of each part is rebuilt from types, which the canonical form keeps.
  induction h with
  | @bare c raw harray hobject hsafe hc =>
    exact spells_literalToJson (Value.readsBack_ofJson raw hsafe) (isColor_ofJson raw) hc
  | @literal c raw hsafe hc =>
    exact spells_literalToJson (Value.readsBack_ofJson raw hsafe) (isColor_ofJson raw) hc
  | var hlookup hc => exact .var hlookup hc
  | @letIn c pairs bindings raw result hne hlen hnames hvalues hresult ihvalues ihresult =>
    rw [Expr.toJson, Expr.canonical, Expr.mapParts, Expr.bindingsToJson_eq, Expr.mapBindings_eq_map]
    refine .letIn ?_ ?_ ?_ ?_ ?_
    · simpa using ne_nil_of_length_eq hne hlen
    · simp
    · refine forall_getElem?_map₂ fun i b hb => ?_
      obtain ⟨p, hp⟩ := exists_getElem?_of_getElem? hlen hb
      exact ⟨rfl, (hnames i p b hp hb).2⟩
    · refine forall_getElem?_map₂ fun i b hb => ?_
      obtain ⟨p, hp⟩ := exists_getElem?_of_getElem? hlen hb
      exact ihvalues i p b hp hb
    · rw [Expr.boundTypes_mapParts, List.length_map, hlen]
      exact ihresult
  | @coalesce c raws args type hne hlen hargs htype hc ihargs =>
    rw [Expr.toJson, Expr.canonical, Expr.mapParts, Expr.argsToJson_eq_map, Expr.mapArgs_eq_map]
    refine .coalesce ?_ ?_ ?_ ?_ hc
    · simpa using ne_nil_of_length_eq hne hlen
    · simp
    · refine forall_getElem?_map₂ fun i a ha => ?_
      obtain ⟨raw, hraw⟩ := exists_getElem?_of_getElem? hlen ha
      rw [← List.map_take, settle_mapParts]
      exact ihargs i raw a hraw ha
    · rw [settle_mapParts, htype]
  | @conditional c pairs branches raw otherwise type hne hlen htests houtputs hotherwise htype hc
      ihtests ihoutputs ihotherwise =>
    rw [Expr.toJson, Expr.canonical, Expr.mapParts, Expr.branchesToJson_eq, Expr.mapBranches_eq_map]
    have htypes := fun b : Expr N × Expr N => b.2.type_mapParts Expr.canonicalParts
    refine .conditional ?_ ?_ ?_ ?_ ?_ ?_ hc
    · simpa using ne_nil_of_length_eq hne hlen
    · simp
    · refine forall_getElem?_map₂ fun i b hb => ?_
      obtain ⟨p, hp⟩ := exists_getElem?_of_getElem? hlen hb
      exact ihtests i p b hp hb
    · refine forall_getElem?_map₂ fun i b hb => ?_
      obtain ⟨p, hp⟩ := exists_getElem?_of_getElem? hlen hb
      rw [← List.map_take, settle_map htypes]
      exact ihoutputs i p b hp hb
    · rw [settle_map htypes, List.length_map, hlen]
      exact ihotherwise
    · rw [settle_map_concat htypes (otherwise.type_mapParts _), htype]
  | @matching c pairs branches rawInput raw input otherwise type hne hlen hlabels hdistinct houtputs
      hinput hotherwise htype hc ihoutputs ihinput ihotherwise =>
    rw [Expr.toJson, Expr.canonical, Expr.mapParts, Expr.labelledToJson_eq, Expr.mapLabelled_eq_map]
    have hreads : ∀ b ∈ branches, b.1 ≠ [] ∧ ∀ l ∈ b.1, l.ReadsBack := fun b hb => by
      obtain ⟨i, p, hp, hb⟩ := exists_getElem?_of_mem hlen hb
      exact readsBack_of_spellsLabels (hlabels i p b hp hb)
    have htypes := fun b : List (Label N) × Expr N => b.2.type_mapParts Expr.canonicalParts
    have hlabelled : (branches.map fun b => (Expr.canonicalParts.labels b.1,
        b.2.mapParts Expr.canonicalParts)).flatMap (·.1) =
          (branches.flatMap (·.1)).map Label.canonical := by
      rw [List.flatMap_map, List.map_flatMap]
      rfl
    refine .matching ?_ ?_ ?_ ?_ ?_ ?_ ?_ ?_ hc
    · simpa using ne_nil_of_length_eq hne hlen
    · simp
    · refine forall_getElem?_map₂ fun i b hb => ?_
      obtain ⟨hlabelsNe, hreadsBack⟩ := hreads b (List.mem_of_getElem? hb)
      exact spellsLabels_labelsToJson hlabelsNe hreadsBack
    · rw [hlabelled]
      refine distinct_canonical (fun l hl => ?_) hdistinct
      obtain ⟨b, hb, hl⟩ := List.mem_flatMap.mp hl
      exact (hreads b hb).2 l hl
    · refine forall_getElem?_map₂ fun i b hb => ?_
      obtain ⟨p, hp⟩ := exists_getElem?_of_getElem? hlen hb
      rw [← List.map_take, settle_map htypes]
      exact ihoutputs i p b hp hb
    · rw [hlabelled, head?_type_canonical]
      exact ihinput
    · rw [settle_map htypes, List.length_map, hlen]
      exact ihotherwise
    · rw [settle_map_concat htypes (otherwise.type_mapParts _), htype]
  | @curve c pairs stops rawKind rawInput kind input type hne hlen hkind hinput hstops hascending
      houtputs htype hblend hc ihinput ihoutputs =>
    rw [Expr.toJson, Expr.canonical, Expr.mapParts, Expr.stopsToJson_eq, Expr.mapStops_eq_map]
    have hfinite := isFinite_of_stops hlen hstops
    have htypes := fun s : N × Expr N => s.2.type_mapParts Expr.canonicalParts
    refine .curve ?_ ?_ (readsBack_of_readInterpolation hkind).read ihinput ?_ ?_ ?_ ?_ ?_ hc
    · simpa using ne_nil_of_length_eq hne hlen
    · simp
    · refine forall_getElem?_map₂ fun i s hs => ?_
      exact Json.number?_ofNumber (hfinite s (List.mem_of_getElem? hs))
    · have hinputs := ascending_canonical (List.forall_mem_map.mpr hfinite) hascending
      rw [List.map_map] at hinputs ⊢
      exact hinputs
    · refine forall_getElem?_map₂ fun i s hs => ?_
      obtain ⟨p, hp⟩ := exists_getElem?_of_getElem? hlen hs
      rw [← List.map_take, settle_map htypes]
      exact ihoutputs i p s hp hs
    · rw [settle_map htypes, htype]
    · rwa [← kind.isStep_canonical] at hblend
  | @arrayOf c raws item length raw input hcheck hinput hc ihinput =>
    rw [Expr.toJson, Expr.canonical, Expr.mapParts]
    obtain ⟨hwritten, hcount⟩ := arrayCheck?_arrayArguments hcheck
    exact .arrayOf hwritten (hcount ▸ ihinput) hc
  | @apply c op raws args type hlen hargs htype hc ihargs =>
    rw [Expr.toJson, Expr.canonical, Expr.mapParts, Expr.argsToJson_eq_map, Expr.mapArgs_eq_map]
    refine .apply ?_ ?_ ?_ hc
    · simp
    · refine forall_getElem?_map₂ fun i a ha => ?_
      obtain ⟨raw, hraw⟩ := exists_getElem?_of_getElem? hlen ha
      exact ihargs i raw a hraw ha
    · rw [Expr.map_type_mapParts, htype]

/-! ## Parsed expressions and their canonical form -/

omit [LawfulEq N] in
theorem forall₂_alike_map {α β : Type} {f f' : β → Expr N} {as : List α} {bs : List β}
    (hlen : bs.length = as.length)
    (h : ∀ (i : Nat) a b, as[i]? = some a → bs[i]? = some b → (f b).Alike (f' b)) :
    List.Forall₂ Expr.Alike (bs.map f) (bs.map f') := by
  rw [List.forall₂_map_left_iff, List.forall₂_map_right_iff, List.forall₂_same]
  intro b hb
  obtain ⟨i, a, ha, hb⟩ := exists_getElem?_of_mem hlen hb
  exact h i a b ha hb

theorem Spells.alike {c : Context} {raw : Json N} {e : Expr N} (h : Spells c raw e) :
    e.Alike e.canonical := by
  induction h with
  | @bare c raw harray hobject hsafe hc => exact .literal (Value.readsBack_ofJson raw hsafe).same
  | @literal c raw hsafe hc => exact .literal (Value.readsBack_ofJson raw hsafe).same
  | var => exact .var
  | @letIn c pairs bindings raw result hne hlen hnames hvalues hresult ihvalues ihresult =>
    rw [Expr.canonical, Expr.mapParts, Expr.mapBindings_eq_map]
    refine .letIn ?_ ?_ ihresult
    · rw [List.map_map]
      rfl
    · rw [List.map_map]
      exact forall₂_alike_map hlen ihvalues
  | @coalesce c raws args type hne hlen hargs htype hc ihargs =>
    rw [Expr.canonical, Expr.mapParts, Expr.mapArgs_eq_map]
    have hargs := forall₂_alike_map hlen ihargs
    rw [List.map_id'] at hargs
    exact .coalesce hargs
  | @conditional c pairs branches raw otherwise type hne hlen htests houtputs hotherwise htype hc
      ihtests ihoutputs ihotherwise =>
    rw [Expr.canonical, Expr.mapParts, Expr.mapBranches_eq_map]
    refine .conditional ?_ ?_ ihotherwise
    · rw [List.map_map]
      exact forall₂_alike_map hlen ihtests
    · rw [List.map_map]
      exact forall₂_alike_map hlen ihoutputs
  | @matching c pairs branches rawInput raw input otherwise type hne hlen hlabels hdistinct houtputs
      hinput hotherwise htype hc ihoutputs ihinput ihotherwise =>
    rw [Expr.canonical, Expr.mapParts, Expr.mapLabelled_eq_map]
    refine .matching ihinput ?_ ?_ ihotherwise
    · rw [List.map_map]
      refine beq_map_of_forall fun b hb => ?_
      obtain ⟨i, p, hp, hb⟩ := exists_getElem?_of_mem hlen hb
      exact beq_map_right_of_forall fun l hl =>
        ((readsBack_of_spellsLabels (hlabels i p b hp hb)).2 l hl).same
    · rw [List.map_map]
      exact forall₂_alike_map hlen ihoutputs
  | @curve c pairs stops rawKind rawInput kind input type hne hlen hkind hinput hstops hascending
      houtputs htype hblend hc ihinput ihoutputs =>
    rw [Expr.canonical, Expr.mapParts, Expr.mapStops_eq_map]
    refine .curve (readsBack_of_readInterpolation hkind).alike ihinput ?_ ?_
    · rw [List.map_map]
      refine beq_map_of_forall fun s hs => ?_
      exact Scalar.beq_canonical (isFinite_of_stops hlen hstops s hs)
    · rw [List.map_map]
      exact forall₂_alike_map hlen ihoutputs
  | arrayOf hcheck hinput hc ihinput => exact .arrayOf ihinput
  | @apply c op raws args type hlen hargs htype hc ihargs =>
    rw [Expr.canonical, Expr.mapParts, Expr.mapArgs_eq_map]
    have hargs := forall₂_alike_map hlen ihargs
    rw [List.map_id'] at hargs
    exact .apply hargs

end Parse

namespace Expr

open Parse

/-! ## The round trip -/

/-- What a parsed expression is written as parses, for the same expected type, to an expression
alike, which is written in the same way. -/
theorem parse_toJson {raw : Json Float} {expected : Option Ty} {e : Expr Float}
    (h : parse raw expected = .ok e) :
    ∃ e', parse e.toJson expected = .ok e' ∧ e.Alike e' ∧ e'.toJson = e.toJson := by
  have hspells := parse_eq_ok_iff.mp h
  exact ⟨e.canonical, parse_eq_ok_iff.mpr hspells.toJson, hspells.alike, e.toJson_canonical⟩

theorem parse_toJson_match :
    ∃ e : Expr Float,
      parse (.call "match" [.call "number" [.call "id" []], .array [.integer 1],
        .call "literal" [.array []], .call "literal" [.array [.real (-0.0)]]])
        (some (.array .number none)) = .ok e ∧
      ∃ e', parse e.toJson (some (.array .number none)) = .ok e' ∧ e.Alike e' ∧
        e'.toJson = e.toJson := by
  have hparse : parse (.call "match" [.call "number" [.call "id" []], .array [.integer 1],
      .call "literal" [.array []], .call "literal" [.array [.real (-0.0)]]])
      (some (.array .number none)) = .ok (.matching [] (.array .number none)
        (.apply [1] .number (.assertion .number) [.apply [1, 1] .value .id []])
        [([.number (Scalar.ofInt 1)], .literal [3] (.array .number none) (.array []))]
        (.literal [4] (.array .number (some 1)) (.array [.number (-0.0)]))) := rfl
  exact ⟨_, hparse, parse_toJson hparse⟩

end Expr

end MapStyle
