import MapStyle.Proofs.Binary64.Order
import MapStyle.Proofs.Property.Lowering

/-!
# What legacy functions answer

An exponential or interval definition whose stops are a table that suits the property gives a style
function, and evaluating it yields what the definition says by its table
(`StyleFunction.evaluate_eq_reading`). The definition is lowered to a `coalesce` of the curve that reads
the table and of the defaults, and this answers with the first answer of its arguments. For that it does
not matter what the first argument is (`StyleFunction.exists_ofJson_of_source`).
-/

namespace MapStyle

open Parse

variable {N : Type} [Scalar N] {spec : PropertySpec N}

/-! ## Fields of a definition -/

omit [Scalar N] in
/-- A field that is read off a record is there. -/
theorem Json.exists_of_optional {α : Type} {read : Json N → Option α} {name : String}
    {fields : List (String × Json N)} {a : α} (h : optional read name fields = some (some a)) :
    ∃ raw, fields.lookup name = some raw ∧ read raw = some a := by
  unfold optional at h
  split at h
  · cases h
  · cases h
  next raw _ hraw =>
    obtain ⟨a', ha', heq⟩ := Option.map_eq_some_iff.mp h
    cases heq
    exact ⟨raw, hraw, ha'⟩

namespace Definition

/-- The stops and the base of a definition are fields of the object that writes it. -/
theorem optional_of_ofJson? {fields : List (String × Json N)} {d : Definition N}
    (h : ofJson? (.object fields) = some d) : Json.optional stops? "stops" fields = some d.stops ∧
      Json.optional Json.number? "base" fields = some d.base := by
  unfold ofJson? at h
  obtain ⟨fields', hfields, h⟩ := Option.bind_eq_some_iff.mp h
  cases hfields
  obtain ⟨kind, -, h⟩ := Option.bind_eq_some_iff.mp h
  obtain ⟨property, -, h⟩ := Option.bind_eq_some_iff.mp h
  obtain ⟨stops, hstops, h⟩ := Option.bind_eq_some_iff.mp h
  obtain ⟨base, hbase, h⟩ := Option.bind_eq_some_iff.mp h
  obtain ⟨default, -, h⟩ := Option.bind_eq_some_iff.mp h
  cases h
  exact ⟨hstops, hbase⟩

theorem isFinite_base {fields : List (String × Json N)} {d : Definition N}
    (h : ofJson? (.object fields) = some d) (base : N) (hbase : d.base = some base) :
    Scalar.isFinite base = true := by
  obtain ⟨-, hfield⟩ := optional_of_ofJson? h
  rw [hbase] at hfield
  obtain ⟨raw, -, hraw⟩ := Json.exists_of_optional hfield
  exact Json.isFinite_of_number? hraw

/-- An object with stops is a definition. -/
theorem isDefinition_of_stops {fields : List (String × Json N)} {d : Definition N}
    {stops : List (Json N × Json N)} (h : ofJson? (.object fields) = some d)
    (hstops : d.stops = some stops) : isDefinition (.object fields) = true := by
  obtain ⟨hfield, -⟩ := optional_of_ofJson? h
  rw [hstops] at hfield
  obtain ⟨raw, hraw, hread⟩ := Json.exists_of_optional hfield
  have hfield : (Json.object fields).field? "stops" = some raw := hraw
  unfold isDefinition
  dsimp only
  rw [hfield]
  cases raw with
  | array => rw [Bool.or_true, Bool.true_or]
  | _ => cases hread

theorem Writes.exists_stops {d : Definition N} {table : Table N} (h : d.Writes table) :
    ∃ stops, d.stops = some stops := by
  cases table with
  | overZoom | overProperty =>
    obtain ⟨-, raws, hraws, -⟩ := h
    exact ⟨raws, hraws⟩
  | overBoth =>
    obtain ⟨-, parts, hparts, -⟩ := h
    exact ⟨parts.flatten, hparts⟩

/-! ## Fallbacks -/

/-- The defaults that a definition falls back on, with their replies. -/
def fallbacks (spec : PropertySpec N) (d : Definition N) : List (Json N × Reply N) :=
  d.default.toList.map (fun value => (spec.constant value, spec.reply value)) ++
    [(spec.defaultExpression, spec.defaultReply)]

theorem stands_fallbacks {calls : Calls N} {d : Definition N}
    (hspec : ∀ value, spec.default = some value → spec.Accepts value)
    (hdefault : ∀ value, d.default = some value → spec.Accepts value) :
    ∀ fallback ∈ d.fallbacks spec, Stands calls spec.expectedType fallback.1 fallback.2 := by
  unfold fallbacks
  rw [List.forall_mem_append, List.forall_mem_map, List.forall_mem_singleton]
  exact ⟨fun value hvalue => stands_constant (hdefault value (Option.mem_toList.mp hvalue)),
    stands_default hspec⟩

/-- The first reply of the fallbacks is that of the default of the definition, else that of the
property. -/
theorem findSome?_fallbacks (d : Definition N) (zoom : Option N) (properties : Properties N) :
    ((d.fallbacks spec).findSome? fun fallback => fallback.2 zoom properties) =
      (d.default.bind fun value => spec.reply value zoom properties).or
        (spec.defaultReply zoom properties) := by
  have hown : (d.default.toList.map fun value => (spec.constant value, spec.reply value)).findSome?
      (fun fallback => fallback.2 zoom properties) =
        d.default.bind fun value => spec.reply value zoom properties := by
    cases d.default with
    | none => rfl
    | some value => exact List.findSome?_singleton
  unfold fallbacks
  rw [List.findSome?_append, hown, List.findSome?_singleton]

theorem reading_eq (d : Definition N) (table : Table N) (zoom : Option N)
    (properties : Properties N) : d.reading spec table zoom properties =
      (table.reading spec (d.blendBase spec) zoom properties).or
        ((d.fallbacks spec).findSome? fun fallback => fallback.2 zoom properties) := by
  rw [findSome?_fallbacks, ← Option.or_assoc]
  rfl

/-- A definition is lowered to a `coalesce` of its body and its fallbacks. -/
theorem lower_eq {d : Definition N} {raw : Json N} (hkind : d.readKind spec ≠ .identity)
    (hbody : body spec (d.readKind spec) d (d.stops.getD []) = .ok raw) :
    lower spec d = .ok (.call "coalesce" (raw :: (d.fallbacks spec).map (·.1))) := by
  unfold lower fallbacks
  refine (if_neg hkind).trans ?_
  show Except.bind (body spec (d.readKind spec) d (d.stops.getD [])) _ = _
  rw [hbody]
  cases d.default <;> rfl

end Definition

/-- A `coalesce` of a body and of fallbacks that stand answers with the first answer. -/
theorem exists_coalesce {calls : Calls N} {type : Ty} (htype : type ≠ .value) {raw : Json N}
    {reply : Reply N}
    (hbody : ∃ e, Spells ⟨[1], some type, []⟩ raw e ∧ e.FitsZoom ∧ e.HasReply calls reply)
    {fallbacks : List (Json N × Reply N)} (h : ∀ p ∈ fallbacks, Stands calls type p.1 p.2) :
    ∃ e, Spells (.root (some type)) (.call "coalesce" (raw :: fallbacks.map (·.1))) e ∧ e.FitsZoom ∧
      e.HasReply calls fun zoom properties => (reply zoom properties).or
        (fallbacks.findSome? fun p => p.2 zoom properties) := by
  obtain ⟨e, hspells, hfits, hanswers⟩ := hbody
  have hstand : List.Forall₂ (fun p p' => p = p' ∧ Stands calls type p.1 p.2) fallbacks fallbacks :=
    List.forall₂_same.mpr fun p hp => ⟨rfl, h p hp⟩
  obtain ⟨es, hlen, hes, hrows⟩ := exists_forall₂_getElem?
    (P := fun i p e => Spells ⟨[i + 2], some type, []⟩ p.1 e)
    (Q := fun e p => e.isZoomConstant = true ∧ e.HasReply calls p.2) hstand
    fun i p p' ⟨hp, hstand⟩ => hp ▸ hstand [i + 2]
  refine ⟨.coalesce [] type (e :: es), .coalesce_of_expected rfl htype (List.cons_ne_nil _ _) ?_
    (forall_getElem?_cons.mpr ⟨hspells, fun i raw' arg hraw harg => ?_⟩), ?_,
    fun zoom properties hcall => ?_⟩
  · rw [List.length_cons, List.length_cons, List.length_map, hlen]
  · rw [List.getElem?_map, Option.map_eq_some_iff] at hraw
    obtain ⟨p, hp, rfl⟩ := hraw
    exact hes i p arg hp harg
  · have hconstants : ∀ e' ∈ es, e'.isZoomConstant = true :=
      forall_left_of_forall₂ hrows fun _ _ he => he.1
    rcases hfits with hconstant | ⟨curve, hcurve⟩
    · exact .inl (Expr.isZoomConstant_iff.mpr
        ⟨nofun, List.forall_mem_cons.mpr ⟨hconstant, hconstants⟩⟩)
    · refine .inr ⟨curve, ?_⟩
      show e.zoomCurves ++ Expr.zoomCurvesIn es = [curve]
      rw [hcurve, Expr.zoomCurvesIn_eq_flatMap, List.flatMap_eq_nil_iff.mpr fun e' he' =>
        Expr.zoomCurves_eq_nil (hconstants e' he')]
      rfl
  · have hrest : (es.map fun e => answer (e.eval (StyleFunction.environment zoom properties))) =
        fallbacks.map fun p => p.2 zoom properties :=
      map_eq_map_of_forall₂ hrows fun e p he => he.2 zoom properties hcall
    have hfirst := congrArg (List.findSome? id) hrest
    rw [List.findSome?_map, List.findSome?_map] at hfirst
    rw [Expr.eval_coalesce, answer_coalesce, List.map_cons, List.findSome?_cons,
      hanswers zoom properties hcall, List.findSome?_map]
    refine Eq.trans ?_ (congrArg (Option.or _) hfirst)
    cases reply zoom properties <;> rfl

namespace StyleFunction

/-- An expression that has a reply, with fallbacks that stand, makes a style function. Evaluating it
yields the reply, else what the fallbacks reply. -/
theorem exists_ofJson_of_source {value raw : Json N} {calls : Calls N} {reply : Reply N}
    {fallbacks : List (Json N × Reply N)}
    (hsource : source spec value = .ok (.call "coalesce" (raw :: fallbacks.map (·.1))))
    (hbody : ∃ e, Spells ⟨[1], some spec.expectedType, []⟩ raw e ∧ e.FitsZoom ∧
      e.HasReply calls reply)
    (hfallbacks : ∀ p ∈ fallbacks, Stands calls spec.expectedType p.1 p.2) :
    ∃ f, ofJson spec value = .ok f ∧ ∀ warned zoom properties, calls zoom properties →
      (f.evaluate warned zoom properties).1.value = (reply zoom properties).or
        (fallbacks.findSome? fun p => p.2 zoom properties) := by
  obtain ⟨e, hcoalesce, hzoom, hanswers⟩ := exists_coalesce spec.expectedType_ne_value hbody hfallbacks
  obtain ⟨f, hf, hexpr⟩ := exists_ofExpr hzoom
  refine ⟨f, ofJson_eq_ok_iff.mpr ⟨_, e, hsource, Expr.parse_eq_ok_iff.mpr hcoalesce, hf⟩,
    fun warned zoom properties hcall => ?_⟩
  rw [value_evaluate, outcome, hexpr]
  exact hanswers zoom properties hcall

/-- A definition whose stops are lowered to an expression that has a reply gives a style function, if
the property accepts the defaults. Evaluating it yields the reply, else what the defaults reply. -/
theorem exists_ofJson_of_body {fields : List (String × Json N)} {d : Definition N}
    {stops : List (Json N × Json N)} {raw : Json N} {calls : Calls N} {reply : Reply N}
    (hspec : ∀ value, spec.default = some value → spec.Accepts value)
    (hd : Definition.ofJson? (.object fields) = some d)
    (hexpression : fields.lookup "expression" = none) (hstops : d.stops = some stops)
    (hkind : d.readKind spec ≠ .identity)
    (hdefault : ∀ value, d.default = some value → spec.Accepts value)
    (hbody : Definition.body spec (d.readKind spec) d (d.stops.getD []) = .ok raw)
    (hspells : ∃ e, Spells ⟨[1], some spec.expectedType, []⟩ raw e ∧ e.FitsZoom ∧
      e.HasReply calls reply) :
    ∃ f, ofJson spec (.object fields) = .ok f ∧ ∀ warned zoom properties, calls zoom properties →
      (f.evaluate warned zoom properties).1.value = (reply zoom properties).or
        ((d.fallbacks spec).findSome? fun fallback => fallback.2 zoom properties) := by
  have hfield : (Json.object fields).field? "expression" = none := hexpression
  refine exists_ofJson_of_source ?_ hspells (Definition.stands_fallbacks hspec hdefault)
  unfold source Definition.lowerJson
  rw [if_pos (Definition.isDefinition_of_stops hd hstops), hfield, hd]
  exact Definition.lower_eq hkind hbody

variable [LawfulOrder N]

/-- An exponential or interval definition whose stops are a table that suits the property, and whose
defaults the property accepts, gives a style function. Evaluating it at a zoom and properties that can
be compared yields what the definition says by its table. -/
theorem evaluate_eq_reading {fields : List (String × Json N)} {d : Definition N} {table : Table N}
    (hspec : ∀ value, spec.default = some value → spec.Accepts value)
    (hd : Definition.ofJson? (.object fields) = some d)
    (hexpression : fields.lookup "expression" = none)
    (hkind : d.kind ≠ some .identity ∧ d.kind ≠ some .categorical)
    (hdefault : ∀ value, d.default = some value → spec.Accepts value) (hwrites : d.Writes table)
    (hfits : table.Fits spec) :
    ∃ f, ofJson spec (.object fields) = .ok f ∧ ∀ warned zoom properties,
      Comparable zoom properties →
        (f.evaluate warned zoom properties).1.value = d.reading spec table zoom properties := by
  obtain ⟨raw, hbody, hspells⟩ :=
    Definition.exists_body ⟨hkind.1, hkind.2, Definition.isFinite_base hd⟩ hwrites hfits
  obtain ⟨stops, hstops⟩ := hwrites.exists_stops
  obtain ⟨f, hf, hvalue⟩ := exists_ofJson_of_body hspec hd hexpression hstops
    (Definition.readKind_ne hkind.1 nofun nofun) hdefault hbody (hspells [1])
  exact ⟨f, hf, fun warned zoom properties hcomparable =>
    (hvalue warned zoom properties hcomparable).trans (d.reading_eq table zoom properties).symm⟩

/-- A number by zoom and rank: its levels are read, and where there is no zoom the default. -/
theorem evaluate_eq_reading_levels :
    ∃ f : StyleFunction Float, ofJson ⟨.number, none, none, none, none⟩
        (.object [("default", .integer 3), ("property", .string "rank"), ("stops", .array [
          .array [.object [("value", .integer 0), ("zoom", .integer 0)], .integer 2],
          .array [.object [("value", .integer 5), ("zoom", .integer 0)], .integer 4],
          .array [.object [("value", .integer 0), ("zoom", .integer 10)], .integer 6]])]) = .ok f ∧
      (f.evaluate [] (some 0) [("rank", .number 5)]).1.value = some (.number (Scalar.ofInt 4)) ∧
      (f.evaluate [] (some 12) [("rank", .number 5)]).1.value = some (.number (Scalar.ofInt 6)) ∧
      (f.evaluate [] none [("rank", .number 5)]).1.value = some (.number (Scalar.ofInt 3)) := by
  have hd : Definition.ofJson? (N := Float) (.object [("default", .integer 3),
      ("property", .string "rank"), ("stops", .array [
        .array [.object [("value", .integer 0), ("zoom", .integer 0)], .integer 2],
        .array [.object [("value", .integer 5), ("zoom", .integer 0)], .integer 4],
        .array [.object [("value", .integer 0), ("zoom", .integer 10)], .integer 6]])]) =
      some ⟨none, some "rank", some (List.flatten [
        [(.object [("value", .integer 0), ("zoom", .integer 0)], .integer 2),
          (.object [("value", .integer 5), ("zoom", .integer 0)], .integer 4)],
        [(.object [("value", .integer 0), ("zoom", .integer 10)], .integer 6)]]), none,
        some (.integer 3)⟩ := rfl
  have hlower : Definition.WritesLevel (N := Float)
      [(.object [("value", .integer 0), ("zoom", .integer 0)], .integer 2),
        (.object [("value", .integer 5), ("zoom", .integer 0)], .integer 4)]
      (Scalar.ofInt 0, [(Scalar.ofInt 0, .integer 2), (Scalar.ofInt 5, .integer 4)]) :=
    ⟨⟨_, _, rfl, rfl, rfl⟩,
      .cons ⟨⟨_, rfl, rfl, rfl⟩, rfl⟩ (.cons ⟨⟨_, rfl, rfl, rfl⟩, rfl⟩ .nil)⟩
  have hupper : Definition.WritesLevel (N := Float)
      [(.object [("value", .integer 0), ("zoom", .integer 10)], .integer 6)]
      (Scalar.ofInt 10, [(Scalar.ofInt 0, .integer 6)]) :=
    ⟨⟨_, _, rfl, rfl, rfl⟩, .cons ⟨⟨_, rfl, rfl, rfl⟩, rfl⟩ .nil⟩
  have haccepts : ∀ n ∈ [2, 3, 4, 6], PropertySpec.Accepts (N := Float)
      ⟨.number, none, none, none, none⟩ (.integer n) := by
    intro n hn
    simp only [List.mem_cons, List.not_mem_nil, or_false] at hn
    rcases hn with rfl | rfl | rfl | rfl <;> exact ⟨rfl, rfl, _, rfl⟩
  have hcomparable (zoom : Option Float) (h : ∀ x, zoom = some x → (x == x) = true) :
      Comparable zoom [("rank", .number 5)] := by
    refine ⟨h, fun name x hx => ?_⟩
    rw [List.lookup_cons] at hx
    split at hx
    · cases hx
      rfl
    · cases hx
  obtain ⟨f, hf, hread⟩ := evaluate_eq_reading (by rintro _ ⟨⟩) hd rfl ⟨nofun, nofun⟩
    (by rintro _ ⟨⟩; exact haccepts 3 (by decide))
    (show Definition.Writes _ (.overBoth "rank" [_, _]) from
      ⟨rfl, _, rfl, .cons hlower (.cons hupper .nil)⟩)
    ⟨List.cons_ne_nil _ _, .cons (List.forall_mem_singleton.mpr rfl) (.cons nofun .nil),
      List.forall_mem_cons.mpr ⟨⟨List.cons_ne_nil _ _,
        .cons (List.forall_mem_singleton.mpr rfl) (.cons nofun .nil), by
          simpa using ⟨haccepts 2 (by decide), haccepts 4 (by decide)⟩⟩,
        List.forall_mem_singleton.mpr ⟨List.cons_ne_nil _ _, .cons nofun .nil,
          List.forall_mem_singleton.mpr (haccepts 6 (by decide))⟩⟩⟩
  refine ⟨f, hf, ?_, ?_, ?_⟩
  · exact (hread _ _ _ (hcomparable _ fun _ hx => by cases hx; rfl)).trans rfl
  · exact (hread _ _ _ (hcomparable _ fun _ hx => by cases hx; rfl)).trans rfl
  · exact (hread _ _ _ (hcomparable _ fun _ hx => by cases hx)).trans rfl

end StyleFunction

end MapStyle
