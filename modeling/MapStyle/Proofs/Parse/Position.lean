import MapStyle.Proofs.Parse.Results
import MapStyle.Proofs.Parse.Spelling

/-!
# Places of expressions

What a raw value spells depends on the place where it stands only in its keys (`Spells.rekey`).
-/

namespace MapStyle

variable {N : Type}

/-- The surroundings at another place. -/
def Context.rekey (f : Path → Path) (c : Context) : Context := { c with key := f c.key }

/-- Whether `f` takes the places below `key` along with it. -/
def Moves (f : Path → Path) (key : Path) : Prop := ∀ rest, f (key ++ rest) = f key ++ rest

theorem Moves.child {f : Path → Path} {key : Path} (h : Moves f key) (i : Nat) :
    Moves f (key ++ [i]) := by
  intro rest
  rw [List.append_assoc, h, h, List.append_assoc]

theorem Context.childWith_rekey {f : Path → Path} {c : Context} (h : Moves f c.key) (i : Nat)
    (expected : Option Ty) (bindings : List (String × Ty)) :
    (c.childWith i expected bindings).rekey f = (c.rekey f).childWith i expected bindings := by
  unfold Context.childWith Context.rekey
  rw [h]

theorem Context.child_rekey {f : Path → Path} {c : Context} (h : Moves f c.key) (i : Nat)
    (expected : Option Ty) : (c.child i expected).rekey f = (c.rekey f).child i expected :=
  c.childWith_rekey h i expected []

namespace Parse

variable [Scalar N]

theorem Spells.rekey {f : Path → Path} {c : Context} {raw : Json N} {e : Expr N}
    (h : Spells c raw e) (hf : Moves f c.key) : Spells (c.rekey f) raw (e.rekey f) := by
  -- Moving a context and then going to a part is going to the part and then moving.
  induction h with
  | bare harray hobject hsafe hc => exact .bare harray hobject hsafe hc
  | literal hsafe hc => exact .literal hsafe hc
  | var hlookup hc => exact .var hlookup hc
  | @letIn c pairs bindings raw result hne hlen hnames hvalues hresult ihvalues ihresult =>
    rw [Expr.rekey, Expr.mapParts, Expr.mapBindings_eq_map]
    refine .letIn hne ?_ (forall_getElem?_map_right.mpr hnames)
      (forall_getElem?_map_right.mpr fun i p b hp hb => ?_) ?_
    · rw [List.length_map, hlen]
    · exact Context.child_rekey hf _ _ ▸ ihvalues i p b hp hb (hf.child _)
    · rw [Expr.boundTypes_mapParts]
      exact Context.childWith_rekey hf _ _ _ ▸ ihresult (hf.child _)
  | @coalesce c raws args type hne hlen hargs htype hc ihargs =>
    rw [Expr.rekey, Expr.mapParts, Expr.mapArgs_eq_map]
    refine .coalesce hne ?_ (forall_getElem?_map_right.mpr fun i raw a hraw ha => ?_) ?_ hc
    · rw [List.length_map, hlen]
    · rw [← List.map_take, settle_mapParts]
      exact Context.child_rekey hf _ _ ▸ ihargs i raw a hraw ha (hf.child _)
    · rw [settle_mapParts]
      exact htype
  | @conditional c pairs branches raw otherwise type hne hlen htests houtputs hotherwise htype hc
      ihtests ihoutputs ihotherwise =>
    rw [Expr.rekey, Expr.mapParts, Expr.mapBranches_eq_map]
    have htypes := fun b : Expr N × Expr N => b.2.type_mapParts { key := f }
    refine .conditional hne ?_ (forall_getElem?_map_right.mpr fun i p b hp hb => ?_)
      (forall_getElem?_map_right.mpr fun i p b hp hb => ?_) ?_ ?_ hc
    · rw [List.length_map, hlen]
    · exact Context.child_rekey hf _ _ ▸ ihtests i p b hp hb (hf.child _)
    · rw [← List.map_take, settle_map htypes]
      exact Context.child_rekey hf _ _ ▸ ihoutputs i p b hp hb (hf.child _)
    · rw [settle_map htypes]
      exact Context.child_rekey hf _ _ ▸ ihotherwise (hf.child _)
    · rw [settle_map_concat htypes (otherwise.type_mapParts _)]
      exact htype
  | @matching c pairs branches rawInput raw input otherwise type hne hlen hlabels hdistinct houtputs
      hinput hotherwise htype hc ihoutputs ihinput ihotherwise =>
    rw [Expr.rekey, Expr.mapParts, Expr.mapLabelled_eq_map]
    have htypes := fun b : List (Label N) × Expr N => b.2.type_mapParts { key := f }
    have hlabelled : (branches.map fun b => (b.1, b.2.mapParts { key := f })).flatMap (·.1) =
        branches.flatMap (·.1) := List.flatMap_map ..
    refine .matching hne ?_ (forall_getElem?_map_right.mpr hlabels) (hlabelled ▸ hdistinct)
      (forall_getElem?_map_right.mpr fun i p b hp hb => ?_) ?_ ?_ ?_ hc
    · rw [List.length_map, hlen]
    · rw [← List.map_take, settle_map htypes]
      exact Context.child_rekey hf _ _ ▸ ihoutputs i p b hp hb (hf.child _)
    · exact hlabelled.symm ▸ Context.child_rekey hf _ _ ▸ ihinput (hf.child _)
    · rw [settle_map htypes]
      exact Context.child_rekey hf _ _ ▸ ihotherwise (hf.child _)
    · rw [settle_map_concat htypes (otherwise.type_mapParts _)]
      exact htype
  | @curve c pairs stops rawKind rawInput kind input type hne hlen hkind hinput hstops hascending
      houtputs htype hblend hc ihinput ihoutputs =>
    rw [Expr.rekey, Expr.mapParts, Expr.mapStops_eq_map]
    have htypes := fun s : N × Expr N => s.2.type_mapParts { key := f }
    refine .curve hne ?_ hkind ?_ (forall_getElem?_map_right.mpr hstops) ?_
      (forall_getElem?_map_right.mpr fun i p s hp hs => ?_) ?_ hblend hc
    · rw [List.length_map, hlen]
    · exact Context.child_rekey hf _ _ ▸ ihinput (hf.child _)
    · rw [List.map_map]
      exact hascending
    · rw [← List.map_take, settle_map htypes]
      exact Context.child_rekey hf _ _ ▸ ihoutputs i p s hp hs (hf.child _)
    · rw [settle_map htypes]
      exact htype
  | arrayOf hcheck hinput hc ihinput =>
    exact .arrayOf hcheck (Context.child_rekey hf _ _ ▸ ihinput (hf.child _)) hc
  | @apply c op raws args type hlen hargs htype hc ihargs =>
    rw [Expr.rekey, Expr.mapParts, Expr.mapArgs_eq_map]
    refine .apply ?_ (forall_getElem?_map_right.mpr fun i raw a hraw ha => ?_) ?_ hc
    · rw [List.length_map, hlen]
    · exact Context.child_rekey hf _ _ ▸ ihargs i raw a hraw ha (hf.child _)
    · rw [Expr.map_type_mapParts, htype]

end Parse

end MapStyle
