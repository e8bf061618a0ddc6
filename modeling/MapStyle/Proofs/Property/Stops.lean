import MapStyle.Proofs.Curve.Reading
import MapStyle.Proofs.Parse.Arguments
import MapStyle.Proofs.Parse.Reading
import MapStyle.Proofs.Property.Constant

/-!
# Curves over stops

`readRows` is the reply that stops with replies give over an input. The raw curve that a definition is
lowered to has this reply, if the outputs of its stops stand with theirs: over a property it stands
itself (`stands_propertyCurve`), so it may be the output of another curve, and over the zoom it is the
one curve over the zoom (`exists_zoomCurve`).
-/

namespace MapStyle

open Parse

variable {N : Type} [Scalar N]

/-! ## Readings -/

/-- The number that a property is. -/
def numberProperty (name : String) : Option N → Properties N → Option N := fun _ properties =>
  (properties.lookup name).bind Value.number?

/-- The reply of stops with replies, read over an input. -/
def readRows (base : Option N) (kind : Curve.OutputKind) (input : Option N → Properties N → Option N)
    (rows : List (N × Reply N)) : Reply N := fun zoom properties =>
  (input zoom properties).bind fun x =>
    Curve.readStops base kind x (rows.map fun row => (row.1, row.2 zoom properties))

/-- Whether a raw interpolation is one that blends values of a type by powers of the base, or a step
where there is none. -/
def BlendsAs (type : Ty) (raw : Json N) (base : Option N) : Prop :=
  ∃ interpolation, readInterpolation raw = .ok interpolation ∧ Curve.BlendsBy interpolation base ∧
    (interpolation.isStep = true ∨ Curve.OutputKind.ofType type ≠ .discrete)

/-- Whether raw stops, one or more with ascending inputs, have outputs that stand with the replies to
the calls. -/
structure StopsStand (calls : Calls N) (type : Ty) (pairs : List (Json N × Json N))
    (rows : List (N × Reply N)) : Prop where
  ne_nil : rows ≠ []
  ascending : Ascending (rows.map (·.1))
  stand : List.Forall₂ (fun pair row => pair.1.number? = some row.1 ∧
    Stands calls type pair.2 row.2) pairs rows

/-! ## Curves -/

section

variable [LawfulOrder N] {calls : Calls N} {type : Ty} {rawKind rawInput : Json N} {base : Option N}
  {pairs : List (Json N × Json N)} {rows : List (N × Reply N)}

omit [LawfulOrder N] in
/-- The stops of a curve at a place, each with the reply of its row. -/
theorem exists_stops (h : StopsStand calls type pairs rows) (key : Path) :
    ∃ stops : List (N × Expr N), stops.length = pairs.length ∧
      (∀ (i : Nat) p s, pairs[i]? = some p → stops[i]? = some s → p.1.number? = some s.1 ∧
        Spells ⟨key ++ [2 * i + 4], some type, []⟩ p.2 s.2) ∧
      List.Forall₂ (fun s row => s.1 = row.1 ∧ s.2.isZoomConstant = true ∧ s.2.HasReply calls row.2)
        stops rows := by
  refine exists_forall₂_getElem? h.stand fun i pair row ⟨hinput, houtput⟩ => ?_
  obtain ⟨e, hspells, hconstant, hreply⟩ := houtput (key ++ [2 * i + 4])
  exact ⟨(row.1, e), ⟨hinput, hspells⟩, rfl, hconstant, hreply⟩

/-- A curve answers with what its stops read at the number that its input is. -/
theorem answer_eval_curve {kind : Interpolation N} (hbase : Curve.BlendsBy kind base)
    {stops : List (N × Expr N)}
    (hrows : List.Forall₂ (fun s row => s.1 = row.1 ∧ s.2.HasReply calls row.2) stops rows)
    (hascending : Ascending (rows.map (·.1))) (key : Path) {input : Expr N} {zoom x : Option N}
    {properties : Properties N} (hcall : calls zoom properties)
    (hx : answer (input.eval (StyleFunction.environment zoom properties)) = x.map .number)
    (hself : ∀ y, x = some y → (y == y) = true) :
    answer ((Expr.curve key type kind input stops).eval (StyleFunction.environment zoom properties)) =
      x.bind fun y => Curve.readStops base (.ofType type) y
        (rows.map fun row => (row.1, row.2 zoom properties)) := by
  have hinputs : stops.map (·.1) = rows.map (·.1) :=
    map_eq_map_of_forall₂ hrows fun s row hs => hs.1
  have hanswers : (stops.map fun s => (s.1, s.2.eval
      (StyleFunction.environment zoom properties))).map Curve.answered =
        rows.map fun row => (row.1, row.2 zoom properties) := by
    rw [List.map_map]
    exact map_eq_map_of_forall₂ hrows fun s row hs =>
      Prod.ext hs.1 (hs.2 zoom properties hcall)
  rw [Expr.eval_curve]
  cases x with
  | none => exact answer_bind_of_none hx rfl
  | some y =>
    have heval := Curve.answer_evaluate (.ofType type) hbase (hself y rfl)
      (stops.map fun s => (s.1, s.2.eval (StyleFunction.environment zoom properties)))
      (by rw [List.map_map]; exact hinputs ▸ hascending)
    rw [hanswers, List.map_map, List.map_map] at heval
    rw [eq_ok_of_answer hx]
    exact heval

/-- A curve over stops that stand is spelled, has the type asked for, and answers with what the stops
read at its input. -/
theorem exists_curve (htype : type ≠ .value) (hkind : BlendsAs type rawKind base)
    (h : StopsStand calls type pairs rows) {key : Path} {input : Expr N}
    (hinput : Spells ⟨key ++ [2], some .number, []⟩ rawInput input) :
    ∃ kind stops, Spells ⟨key, some type, []⟩ (Definition.curve rawKind rawInput pairs)
        (.curve key type kind input stops) ∧
      (∀ s ∈ stops, s.2.isZoomConstant = true) ∧
      ∀ zoom properties x, calls zoom properties →
        answer (input.eval (StyleFunction.environment zoom properties)) = x.map .number →
        (∀ y, x = some y → (y == y) = true) →
        answer ((Expr.curve key type kind input stops).eval
            (StyleFunction.environment zoom properties)) =
          x.bind fun y => Curve.readStops base (.ofType type) y
            (rows.map fun row => (row.1, row.2 zoom properties)) := by
  obtain ⟨kind, hread, hbase, hblend⟩ := hkind
  obtain ⟨stops, hlen, hspells, hrows⟩ := exists_stops h key
  have hsettle : ∀ outputs : List (Expr N),
      settle (⟨key, some type, []⟩ : Context).outputHint outputs = some type :=
    settle_outputHint rfl htype
  have hpairs : pairs ≠ [] := by
    rintro rfl
    cases h.stand
    exact h.ne_nil rfl
  refine ⟨kind, stops, ?_, forall_left_of_forall₂ hrows fun _ _ hs => hs.2.1,
    fun zoom properties x hcall => answer_eval_curve hbase (hrows.imp fun _ _ hs =>
      ⟨hs.1, hs.2.2⟩) h.ascending key hcall⟩
  rw [Definition.curve, ← alternate_eq_flatMap]
  refine .curve hpairs hlen hread hinput (fun i p s hp hs => (hspells i p s hp hs).1) ?_
    (fun i p s hp hs => ?_) ?_ hblend (Context.accepts_expected rfl)
  · rw [map_eq_map_of_forall₂ hrows fun s row hs => hs.1]
    exact (h.ascending.imp Scalar.not_atMost_of_less).isChain
  · rw [hsettle]
    exact (hspells i p s hp hs).2
  · rw [hsettle]
    rfl

/-! ## Inputs -/

omit [LawfulOrder N] in
theorem Expr.eval_get (key key' : Path) (name : String) (env : Env N) :
    (Expr.apply key .value .get [.literal key' .string (.string name)]).eval env =
      Value.property env.feature.properties name := by
  rw [Expr.eval_unary rfl]
  rfl

omit [LawfulOrder N] in
theorem Expr.eval_assertion (key : Path) (kind : AssertedKind) (e : Expr N) (env : Env N) :
    (Expr.apply key kind.type (.assertion kind) [e]).eval env =
      (e.eval env).bind fun v => v.assertType kind.type none := by
  rw [Expr.eval_unary rfl]
  rfl

/-- The property of a name, if it is of a kind. -/
def assertedProperty (kind : AssertedKind) (name : String) (properties : Properties N) :
    Outcome N (Value N) :=
  (Value.property properties name).bind fun v => v.assertType kind.type none

omit [LawfulOrder N] in
/-- A read of a property is spelled wherever any value can stand. -/
theorem spells_get (name : String) {c : Context} (hc : c.Accepts .value) :
    Spells (N := N) c (.call "get" [.string name])
      (.apply c.key .value .get [.literal (c.key ++ [1]) .string (.string name)]) := by
  have hname : Spells (N := N) (c.child 1 none) (.string name)
      (.literal (c.key ++ [1]) .string (.string name)) := .bare rfl rfl rfl nofun
  exact .unary .get hname rfl hc

omit [LawfulOrder N] in
/-- The property, asserted to be of a kind, is spelled wherever the kind can stand. -/
theorem exists_assertedProperty (kind : AssertedKind) (name : String) {c : Context}
    (hc : c.Accepts kind.type) :
    ∃ e : Expr N, Spells c (.call (Operator.assertion kind).symbol [.call "get" [.string name]]) e ∧
      e.type = kind.type ∧ e.isZoomConstant = true ∧ ∀ zoom properties,
        e.eval (StyleFunction.environment zoom properties) = assertedProperty kind name properties := by
  have hget := spells_get (N := N) name (c := c.child 1 (some .value)) (Context.accepts_expected rfl)
  refine ⟨.apply c.key kind.type (.assertion kind) [_], .unary (.assertion kind) hget rfl hc, rfl, rfl,
    fun zoom properties => ?_⟩
  rw [Expr.eval_assertion, Expr.eval_get]
  rfl

omit [LawfulOrder N] in
/-- The property, asserted to be a number, stands with the number that it is. -/
theorem stands_numberProperty (name : String) :
    Stands (N := N) calls .number (.call "number" [.call "get" [.string name]])
      fun zoom properties => (numberProperty name zoom properties).map .number := by
  intro key
  obtain ⟨e, hspells, -, hconstant, heval⟩ := exists_assertedProperty (N := N) .number name
    (c := ⟨key, some .number, []⟩) (Context.accepts_expected rfl)
  refine ⟨e, hspells, hconstant, fun zoom properties _ => ?_⟩
  show _ = ((properties.lookup name).bind Value.number?).map Value.number
  rw [heval]
  unfold assertedProperty Value.property
  cases properties.lookup name with
  | none => rfl
  | some v => cases v <;> rfl

omit [LawfulOrder N] in
theorem spells_zoom (key : Path) : Spells (N := N) ⟨key, some .number, []⟩ (.call "zoom" [])
    (.apply key .number .zoom []) :=
  .nullary .zoom rfl (Context.accepts_expected rfl)

omit [LawfulOrder N] in
theorem answer_eval_zoom (key : Path) (zoom : Option N) (properties : Properties N) :
    answer ((Expr.apply key .number .zoom []).eval (StyleFunction.environment zoom properties)) =
      zoom.map .number := by
  cases zoom <;> rfl

/-! ## Curves over a property and over the zoom -/

/-- A curve over a property stands with what the stops read at the number that the property is, if
this can be compared. -/
theorem stands_propertyCurve (htype : type ≠ .value) (hkind : BlendsAs type rawKind base)
    (h : StopsStand Comparable type pairs rows) (name : String) :
    Stands Comparable type (Definition.curve rawKind (.call "number" [.call "get" [.string name]]) pairs)
      (readRows base (.ofType type) (numberProperty name) rows) := by
  intro key
  have hnumber : Stands (N := N) Comparable .number _ _ := stands_numberProperty name
  obtain ⟨input, hinput, hconstant, hreply⟩ := hnumber (key ++ [2])
  obtain ⟨kind, stops, hspells, hstops, hread⟩ := exists_curve htype hkind h hinput
  refine ⟨_, hspells, ?_, fun zoom properties hcomparable => ?_⟩
  · refine Expr.isZoomConstant_iff.mpr ⟨nofun, List.forall_mem_cons.mpr ⟨hconstant, fun e he => ?_⟩⟩
    obtain ⟨s, hs, rfl⟩ := List.mem_map.mp he
    exact hstops s hs
  · refine hread zoom properties _ hcomparable (hreply zoom properties hcomparable) fun x hx => ?_
    obtain ⟨v, hlookup, hv⟩ := Option.bind_eq_some_iff.mp hx
    cases v with
    | number y =>
      cases hv
      exact hcomparable.property name x hlookup
    | _ => cases hv

/-- A curve over the zoom is the one curve over the zoom, and replies with what the stops read at the
zoom, if this can be compared. -/
theorem exists_zoomCurve (htype : type ≠ .value) (hkind : BlendsAs type rawKind base)
    (h : StopsStand calls type pairs rows)
    (hself : ∀ zoom properties x, calls zoom properties → zoom = some x → (x == x) = true)
    (key : Path) :
    ∃ e curve, Spells ⟨key, some type, []⟩ (Definition.curve rawKind (.call "zoom" []) pairs) e ∧
      e.zoomCurves = [curve] ∧
      e.HasReply calls (readRows base (.ofType type) (fun zoom _ => zoom) rows) := by
  obtain ⟨kind, stops, hspells, -, hread⟩ := exists_curve htype hkind h (spells_zoom (key ++ [2]))
  refine ⟨_, ⟨key, type, kind, stops⟩, hspells, rfl, fun zoom properties hcall => ?_⟩
  exact hread zoom properties zoom hcall (answer_eval_zoom _ zoom properties) fun x =>
    hself zoom properties x hcall

end

end MapStyle
