import MapStyle.Proofs.Parse.Choices
import MapStyle.Proofs.Parse.Curves
import MapStyle.Proofs.Parse.Forms

/-!
# The parser gives what is spelled

`Expr.parser_result_iff`: the parser has a result for a raw value exactly when the value spells it.
Each form contributes one step from results to spellings, and each rule of `Spells` one step back.
-/

namespace MapStyle

variable {N : Type} [Scalar N]

namespace Parse

/-! ## From results to spellings -/

/-- Whether an argument gives only what its raw value spells. -/
def Sound (a : Argument N) : Prop := ∀ c e, (a.parse c).result = some e → Spells c a.raw e

/-- A pair of arguments as written. -/
def rawPair (p : Argument N × Argument N) : Json N × Json N := (p.1.raw, p.2.raw)

omit [Scalar N] in
theorem map_raw_alternate (pairs : List (Argument N × Argument N)) :
    (alternate pairs).map Argument.raw = alternate (pairs.map rawPair) := map_alternate ..

theorem sound_of_alternate {args : List (Argument N)} (pairs : List (Argument N × Argument N))
    (hargs : ∀ a ∈ args, Sound a) (hpairs : ∀ a ∈ alternate pairs, a ∈ args) {i : Nat}
    {p : Argument N × Argument N} (hp : pairs[i]? = some p) : Sound p.1 ∧ Sound p.2 := by
  have hmem := List.mem_of_getElem? hp
  exact ⟨hargs _ (hpairs _ (mem_alternate.mpr ⟨p, hmem, .inl rfl⟩)),
    hargs _ (hpairs _ (mem_alternate.mpr ⟨p, hmem, .inr rfl⟩))⟩

section

variable {c : Context} {e : Expr N} {args : List (Argument N)}

theorem spells_letIn (hargs : ∀ a ∈ args, Sound a) (h : (letIn c args).result = some e) :
    Spells c (.call "let" (args.map Argument.raw)) e := by
  obtain ⟨pairs, last, hne, rfl⟩ := letIn_shape h
  obtain ⟨bindings, result, hlen, hparts, hresult, rfl⟩ := (letIn_result_iff hne).mp h
  have hsound := fun {i p} => sound_of_alternate (i := i) (p := p) pairs hargs
    fun a ha => List.mem_append_left _ ha
  rw [List.map_append, map_raw_alternate]
  refine .letIn (by simpa using hne) (by simpa using hlen)
    (forall_getElem?_map_left.mpr fun i p b hp hb => (hparts i p b hp hb).1)
    (forall_getElem?_map_left.mpr fun i p b hp hb => ?_) ?_
  · exact (hsound hp).2 _ _ (hparts i p b hp hb).2
  · rw [List.length_map]
    exact hargs last (by simp) _ _ hresult

theorem spells_coalesce (hargs : ∀ a ∈ args, Sound a) (h : (coalesce c args).result = some e)
    (hc : c.Accepts e.type) : Spells c (.call "coalesce" (args.map Argument.raw)) e := by
  have hne := coalesce_shape h
  obtain ⟨es, hlen, hparts, rfl⟩ := (coalesce_result_iff hne).mp h
  refine .coalesce (by simpa using hne) (by simpa using hlen)
    (forall_getElem?_map_left.mpr fun i a e ha he => ?_) rfl hc
  exact hargs a (List.mem_of_getElem? ha) _ _ (hparts i a e ha he)

theorem spells_conditional (hargs : ∀ a ∈ args, Sound a) (h : (conditional c args).result = some e)
    (hc : c.Accepts e.type) : Spells c (.call "case" (args.map Argument.raw)) e := by
  obtain ⟨pairs, last, hne, rfl⟩ := conditional_shape h
  obtain ⟨branches, otherwise, hlen, hparts, hotherwise, rfl⟩ := (conditional_result_iff hne).mp h
  have hsound := fun {i p} => sound_of_alternate (i := i) (p := p) pairs hargs
    fun a ha => List.mem_append_left _ ha
  rw [List.map_append, map_raw_alternate]
  refine .conditional (by simpa using hne) (by simpa using hlen)
    (forall_getElem?_map_left.mpr fun i p b hp hb => ?_)
    (forall_getElem?_map_left.mpr fun i p b hp hb => ?_) ?_ rfl hc
  · exact (hsound hp).1 _ _ (hparts i p b hp hb).1
  · exact (hsound hp).2 _ _ (hparts i p b hp hb).2
  · rw [List.length_map]
    exact hargs last (by simp) _ _ hotherwise

theorem spells_matching (hargs : ∀ a ∈ args, Sound a) (h : (matching c args).result = some e)
    (hc : c.Accepts e.type) : Spells c (.call "match" (args.map Argument.raw)) e := by
  obtain ⟨first, pairs, last, hne, rfl⟩ := matching_shape h
  obtain ⟨branches, input, otherwise, hlen, hparts, hdistinct, hinput, hotherwise, rfl⟩ :=
    (matching_result_iff hne).mp h
  have hsound := fun {i p} => sound_of_alternate (i := i) (p := p) pairs hargs
    fun a ha => List.mem_append_left _ (List.mem_cons_of_mem _ ha)
  rw [List.map_append, List.map_cons, map_raw_alternate]
  refine .matching (by simpa using hne) (by simpa using hlen)
    (forall_getElem?_map_left.mpr fun i p b hp hb => (hparts i p b hp hb).1) hdistinct
    (forall_getElem?_map_left.mpr fun i p b hp hb => ?_) ?_ ?_ rfl hc
  · exact (hsound hp).2 _ _ (hparts i p b hp hb).2
  · exact hargs first (by simp) _ _ hinput
  · rw [List.length_map]
    exact hargs last (by simp) _ _ hotherwise

theorem spells_curve (hargs : ∀ a ∈ args, Sound a) (h : (curve c args).result = some e)
    (hc : c.Accepts e.type) : Spells c (.call "curve" (args.map Argument.raw)) e := by
  obtain ⟨kind, input, pairs, hne, rfl⟩ := curve_shape h
  obtain ⟨kind', input', stops, hlen, hkind, hinput, hparts, hascending, hblend, rfl⟩ :=
    (curve_result_iff hne).mp h
  have hsound := fun {i p} => sound_of_alternate (i := i) (p := p) pairs hargs
    fun a ha => List.mem_cons_of_mem _ (List.mem_cons_of_mem _ ha)
  rw [List.map_cons, List.map_cons, map_raw_alternate]
  refine .curve (by simpa using hne) (by simpa using hlen) hkind ?_
    (forall_getElem?_map_left.mpr fun i p s hp hs => (hparts i p s hp hs).1) hascending
    (forall_getElem?_map_left.mpr fun i p s hp hs => ?_) rfl hblend hc
  · exact hargs input (by simp) _ _ hinput
  · exact (hsound hp).2 _ _ (hparts i p s hp hs).2

theorem spells_arrayOf (hargs : ∀ a ∈ args, Sound a) (h : (arrayOf c args).result = some e)
    (hc : c.Accepts e.type) : Spells c (.call "array" (args.map Argument.raw)) e := by
  obtain ⟨checks, input, item, length, input', rfl, hcheck, hinput, rfl⟩ := arrayOf_result_iff.mp h
  rw [List.map_append]
  refine .arrayOf hcheck ?_ hc
  rw [List.length_map]
  exact hargs input (by simp) _ _ hinput

theorem spells_application {op : Operator} (hargs : ∀ a ∈ args, Sound a)
    (h : (application c op args).result = some e) (hc : c.Accepts e.type) :
    Spells c (.call op.symbol (args.map Argument.raw)) e := by
  obtain ⟨es, type, hlen, hparts, htype, rfl⟩ := application_result_iff.mp h
  refine .apply (by simpa using hlen) (forall_getElem?_map_left.mpr fun i a e ha he => ?_) htype hc
  exact hargs a (List.mem_of_getElem? ha) _ _ (hparts i a e ha he)

theorem spells_named {name : String} (hargs : ∀ a ∈ args, Sound a)
    (h : (named c name args).result = some e) (hc : c.Accepts e.type) :
    Spells c (.call name (args.map Argument.raw)) e := by
  unfold named at h
  split at h
  · obtain ⟨raw, hraw, hsafe, rfl⟩ := literal_result_iff.mp h
    rw [hraw]
    exact .literal hsafe hc
  · obtain ⟨name, type, hraw, hlookup, rfl⟩ := var_result_iff.mp h
    rw [hraw]
    exact .var hlookup hc
  · exact spells_letIn hargs h
  · exact spells_coalesce hargs h hc
  · exact spells_conditional hargs h hc
  · exact spells_matching hargs h hc
  · exact spells_curve hargs h hc
  · exact spells_arrayOf hargs h hc
  · split at h
    · next op hop =>
      rw [← Operator.symbol_of_ofSymbol? hop]
      exact spells_application hargs h hc
    · cases h

theorem spells_form (hargs : ∀ a ∈ args, Sound a) (h : (form c args).result = some e) :
    Spells c (.array (args.map Argument.raw)) e := by
  unfold form at h
  split at h
  · cases h
  · next head rest =>
    split at h
    · next name hname =>
      obtain ⟨hnamed, hc⟩ := Context.bind_expect_result_iff.mp h
      rw [List.map_cons, hname]
      exact spells_named (fun a ha => hargs a (List.mem_cons_of_mem _ ha)) hnamed hc
    · cases h

end

end Parse

namespace Expr

open Parse

theorem spells_primitive {c : Context} {raw : Json N} {e : Expr N} (harray : raw.isArray = false)
    (hobject : raw.isObject = false)
    (h : (Parse.literal c [raw] >>= c.expect).result = some e) : Spells c raw e := by
  obtain ⟨hliteral, hc⟩ := Context.bind_expect_result_iff.mp h
  obtain ⟨_, ⟨⟩, hsafe, rfl⟩ := literal_result_iff.mp hliteral
  exact .bare harray hobject hsafe hc

theorem arguments_eq_map (items : List (Json N)) :
    arguments items = items.map fun item => ⟨item, parser item⟩ :=
  eq_map_of_cons rfl (fun _ _ => rfl) items

theorem map_raw_arguments (items : List (Json N)) :
    (arguments items).map Argument.raw = items := by
  rw [arguments_eq_map, List.map_map]
  exact List.map_id items

mutual

theorem parser_sound : ∀ raw : Json N, Sound ⟨raw, parser raw⟩
  | .array items => fun c e h => by
    have hspells := spells_form (arguments_sound items) h
    rwa [map_raw_arguments] at hspells
  | .object _ => fun c e h => by cases h
  | .null | .boolean _ | .integer _ | .real _ | .string _ => fun c e h => spells_primitive rfl rfl h

theorem arguments_sound : ∀ items : List (Json N), ∀ a ∈ arguments items, Sound a
  | [] => fun _ h => absurd h List.not_mem_nil
  | item :: rest => List.forall_mem_cons.mpr ⟨parser_sound item, arguments_sound rest⟩

end

/-! ## From spellings to results -/

theorem parser_call (name : String) (raws : List (Json N)) (c : Context) :
    parser (.call name raws) c = named c name (arguments raws) >>= c.expect := rfl

/-- The argument that a raw value makes. -/
def argument (raw : Json N) : Argument N := ⟨raw, parser raw⟩

theorem arguments_alternate (pairs : List (Json N × Json N)) :
    arguments (alternate pairs) =
      alternate (pairs.map fun p => (argument p.1, argument p.2)) := by
  rw [arguments_eq_map]
  exact map_alternate argument pairs

end Expr

/-- An expression suits the context in which it is spelled. -/
theorem Parse.Spells.accepts {c : Context} {raw : Json N} {e : Expr N} (h : Spells c raw e) :
    c.Accepts e.type := by
  induction h with
  | letIn _ _ _ _ _ _ hresult => exact hresult
  | bare _ _ _ hc | literal _ hc | var _ hc | coalesce _ _ _ _ hc | conditional _ _ _ _ _ _ hc
  | matching _ _ _ _ _ _ _ _ hc | curve _ _ _ _ _ _ _ _ _ hc | arrayOf _ _ hc
  | apply _ _ _ hc => exact hc

namespace Expr

open Parse

theorem parser_result_of_spells {c : Context} {raw : Json N} {e : Expr N} (h : Spells c raw e) :
    (parser raw c).result = some e := by
  induction h with
  | @bare c raw harray hobject hsafe hc =>
    have hliteral := literal_result_iff (c := c).mpr ⟨raw, rfl, hsafe, rfl⟩
    have hresult := Context.bind_expect_result_iff.mpr ⟨hliteral, hc⟩
    cases raw with
    | array => cases harray
    | object => cases hobject
    | _ => exact hresult
  | @literal c raw hsafe hc =>
    exact Context.bind_expect_result_iff.mpr ⟨literal_result_iff.mpr ⟨raw, rfl, hsafe, rfl⟩, hc⟩
  | @var c name type hlookup hc =>
    exact Context.bind_expect_result_iff.mpr ⟨var_result_iff.mpr ⟨name, type, rfl, hlookup, rfl⟩, hc⟩
  | @letIn c pairs bindings raw result hne hlen hnames hvalues hresult ihvalues ihresult =>
    rw [parser_call, arguments_eq_map, List.map_append, ← arguments_eq_map, arguments_alternate]
    refine Context.bind_expect_result_iff.mpr ⟨(letIn_result_iff (by simpa using hne)).mpr
      ⟨bindings, result, by simpa using hlen, forall_getElem?_map_left.mpr fun i p b hp hb => ?_, ?_,
        rfl⟩, hresult.accepts⟩
    · exact ⟨hnames i p b hp hb, ihvalues i p b hp hb⟩
    · rw [List.length_map]
      exact ihresult
  | @coalesce c raws args type hne hlen hargs htype hc ihargs =>
    subst htype
    rw [parser_call, arguments_eq_map]
    refine Context.bind_expect_result_iff.mpr ⟨(coalesce_result_iff (by simpa using hne)).mpr
      ⟨args, by simpa using hlen, forall_getElem?_map_left.mpr ihargs, rfl⟩, hc⟩
  | @conditional c pairs branches raw otherwise type hne hlen htests houtputs hotherwise htype hc
      ihtests ihoutputs ihotherwise =>
    subst htype
    rw [parser_call, arguments_eq_map, List.map_append, ← arguments_eq_map, arguments_alternate]
    refine Context.bind_expect_result_iff.mpr ⟨(conditional_result_iff (by simpa using hne)).mpr
      ⟨branches, otherwise, by simpa using hlen,
        forall_getElem?_map_left.mpr fun i p b hp hb => ?_, ?_, rfl⟩, hc⟩
    · exact ⟨ihtests i p b hp hb, ihoutputs i p b hp hb⟩
    · rw [List.length_map]
      exact ihotherwise
  | @matching c pairs branches rawInput raw input otherwise type hne hlen hlabels hdistinct houtputs
      hinput hotherwise htype hc ihoutputs ihinput ihotherwise =>
    subst htype
    rw [parser_call, arguments_eq_map, List.map_append, List.map_cons, ← arguments_eq_map,
      arguments_alternate]
    refine Context.bind_expect_result_iff.mpr ⟨(matching_result_iff (by simpa using hne)).mpr
      ⟨branches, input, otherwise, by simpa using hlen,
        forall_getElem?_map_left.mpr fun i p b hp hb => ?_, hdistinct, ihinput, ?_, rfl⟩, hc⟩
    · exact ⟨hlabels i p b hp hb, ihoutputs i p b hp hb⟩
    · rw [List.length_map]
      exact ihotherwise
  | @curve c pairs stops rawKind rawInput kind input type hne hlen hkind hinput hstops hascending
      houtputs htype hblend hc ihinput ihoutputs =>
    subst htype
    rw [parser_call, arguments_eq_map, List.map_cons, List.map_cons, ← arguments_eq_map,
      arguments_alternate]
    refine Context.bind_expect_result_iff.mpr ⟨(curve_result_iff (by simpa using hne)).mpr
      ⟨kind, input, stops, by simpa using hlen, hkind, ihinput,
        forall_getElem?_map_left.mpr fun i p s hp hs => ?_, hascending, hblend, rfl⟩, hc⟩
    exact ⟨hstops i p s hp hs, ihoutputs i p s hp hs⟩
  | @arrayOf c raws item length raw input hcheck hinput hc ihinput =>
    rw [parser_call, arguments_eq_map, List.map_append, ← arguments_eq_map]
    refine Context.bind_expect_result_iff.mpr ⟨arrayOf_result_iff.mpr
      ⟨arguments raws, argument raw, item, length, input, rfl, ?_, ?_, rfl⟩, hc⟩
    · rw [map_raw_arguments]
      exact hcheck
    · rw [arguments_eq_map, List.length_map]
      exact ihinput
  | @apply c op raws args type hlen hargs htype hc ihargs =>
    rw [parser_call, arguments_eq_map, named_symbol]
    exact Context.bind_expect_result_iff.mpr ⟨application_result_iff.mpr
      ⟨args, type, by simpa using hlen, forall_getElem?_map_left.mpr ihargs, htype, rfl⟩, hc⟩

/-- The parser gives exactly what a raw value spells. -/
theorem parser_result_iff {c : Context} {raw : Json N} {e : Expr N} :
    (parser raw c).result = some e ↔ Spells c raw e :=
  ⟨parser_sound raw c e, parser_result_of_spells⟩

end Expr

end MapStyle
