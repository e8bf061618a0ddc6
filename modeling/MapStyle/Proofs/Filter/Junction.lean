import MapStyle.Filter.Basic
import MapStyle.Proofs.Filter.Lowering

/-!
# Combined filters

A filter that combines others is lowered as one of them inside it, while it is wrapped in a fallback
when it stands alone. `Filter.exists_ofJson_iff` and `Filter.eval_eq_passes` say that neither makes a
difference, `Filter.answers_of_parse_lower` that what a filter stands for never fails, and
`Filter.ofJson_junction` that `all`, `any` and `none` combine the answers of their parts.
-/

namespace MapStyle.Filter

open Parse

variable {N : Type} [Scalar N] {raw : Json N} {filter : Filter N} {key : Path} {e : Expr N}

/-! ## Filters alone and inside others -/

omit [Scalar N] in
theorem source_array (items : List (Json N)) : source (.array items) = lower (.array items) ∨
    source (.array items) = orElse (lower (.array items)) false := by
  unfold source
  dsimp only
  split
  · exact .inr rfl
  · exact .inl rfl

theorem ofJson_eq_ok_iff (htruthy : raw.isTruthy = true) :
    ofJson raw = .ok filter ↔ ∃ e, Spells (.test []) (source raw) e ∧ filter = ⟨some e⟩ := by
  have hspells : ∀ e, Expr.parse (source raw) (some .boolean) = .ok e ↔
      Spells (.test []) (source raw) e := fun e => Expr.parse_eq_ok_iff
  rw [ofJson, if_pos htruthy]
  cases hparse : Expr.parse (source raw) (some .boolean) with
  | ok e =>
    constructor
    · intro h
      cases h
      exact ⟨e, (hspells e).mp hparse, rfl⟩
    · rintro ⟨e', he', rfl⟩
      rw [← hspells, hparse] at he'
      cases he'
      rfl
  | error errors =>
    constructor
    · intro h
      cases h
    · rintro ⟨e, he, -⟩
      rw [← hspells, hparse] at he
      cases he

/-- A filter can be built exactly when what it stands for is a boolean expression, anywhere. -/
theorem exists_ofJson_iff (harray : raw.isArray = true) (key : Path) :
    (∃ filter, ofJson raw = .ok filter) ↔ ∃ e, Spells (.test key) (lower raw) e := by
  have hkey : (∃ e, Spells (.test []) (lower raw) e) ↔ ∃ e, Spells (.test key) (lower raw) e :=
    ⟨fun ⟨_, he⟩ => ⟨_, he.atKey key⟩, fun ⟨_, he⟩ => ⟨_, he.atKey []⟩⟩
  rw [← hkey]
  match raw, harray with
  | .array [], _ =>
    refine ⟨fun _ => ⟨_, spells_boolean_iff.mpr ⟨?_, rfl⟩⟩, fun _ => ⟨_, rfl⟩⟩
    exact accepts_test_iff.mpr (Ty.le_refl _)
  | .array (head :: rest), _ =>
    have hok : (∃ filter, ofJson (.array (head :: rest)) = .ok filter) ↔
        ∃ e, Spells (.test []) (source (.array (head :: rest))) e := by
      constructor
      · rintro ⟨filter, hfilter⟩
        obtain ⟨e, he, -⟩ := (ofJson_eq_ok_iff rfl).mp hfilter
        exact ⟨e, he⟩
      · rintro ⟨e, he⟩
        exact ⟨_, (ofJson_eq_ok_iff rfl).mpr ⟨e, he, rfl⟩⟩
    rw [hok]
    rcases source_array (head :: rest) with hsource | hsource
    · rw [hsource]
    · rw [hsource, exists_spells_orElse_iff]

/-- Inside another filter, what a filter stands for has the answer of the filter. -/
theorem eval_eq_passes (harray : raw.isArray = true) (hfilter : ofJson raw = .ok filter)
    (he : Spells (.test key) (lower raw) e) (feature : Feature N) :
    e.eval ⟨none, feature, []⟩ = .ok (.boolean (filter.passes feature)) := by
  obtain ⟨b, hb⟩ := total_lower raw key e he none feature
  suffices hpasses : filter.passes feature = b by rw [hpasses, hb]
  -- The empty filter is not parsed when it stands alone, but is `true` inside another.
  match raw, harray with
  | .array [], _ =>
    cases hfilter
    obtain ⟨-, rfl⟩ := spells_boolean_iff.mp he
    cases hb
    rfl
  | .array (head :: rest), _ =>
    obtain ⟨whole, hwhole, rfl⟩ := (ofJson_eq_ok_iff rfl).mp hfilter
    -- Alone, the filter may be wrapped in a fallback, which an answer passes through.
    suffices hvalue : whole.eval ⟨none, feature, []⟩ = .ok (.boolean b) by
      unfold passes
      dsimp only
      rw [hvalue]
    rcases source_array (head :: rest) with hsource | hsource
    · rw [hsource] at hwhole
      rw [he.eval_eq hwhole, hb]
    · rw [hsource] at hwhole
      obtain ⟨test, htest, rfl⟩ := spells_orElse_iff.mp hwhole
      rw [Expr.eval_fallback, he.eval_eq htest, hb]
      rfl

/-- What a filter stands for is a boolean expression just where the filter can be built. The expression
has an answer for every feature, whatever the zoom, and the filter passes the features for which the
answer is true. -/
theorem answers_of_parse_lower (items : List (Json N)) :
    (∀ e, Expr.parse (lower (.array items)) (some .boolean) = .ok e → e.Answers) ∧
    ((∃ e, Expr.parse (lower (.array items)) (some .boolean) = .ok e) ↔
      ∃ filter, ofJson (.array items) = .ok filter) ∧
    ∀ e filter, Expr.parse (lower (.array items)) (some .boolean) = .ok e →
      ofJson (.array items) = .ok filter → ∀ feature, filter.passes feature = true ↔
        e.eval ⟨none, feature, []⟩ = .ok (.boolean true) := by
  have hspells : ∀ e, Expr.parse (lower (.array items)) (some .boolean) = .ok e ↔
      Spells (.test []) (lower (.array items)) e := fun e => Expr.parse_eq_ok_iff
  refine ⟨fun e he => total_lower _ _ e ((hspells e).mp he), ?_, ?_⟩
  · rw [exists_ofJson_iff rfl []]
    exact exists_congr hspells
  · intro e filter he hfilter feature
    rw [eval_eq_passes rfl hfilter ((hspells e).mp he) feature, Except.ok.injEq,
      Value.boolean.injEq]

/-- A filter whose tests have nothing to read on most features. -/
def unranked : List (Json Float) :=
  [.string "none", .call "in" [.string "class", .null, .integer 1],
    .call "<" [.string "rank", .integer 3]]

/-- The class may be null or a number, so the membership binds it and tests it twice. -/
theorem exists_spells_unranked : ∃ e, Spells (.test []) (lower (.array unranked)) e := by
  have hinput {key : Path} : Spells (N := Float) ⟨key, some .value, [("input", .value)]⟩
      (.call "var" [.string "input"]) (.var key .value "input") :=
    .var rfl (Context.accepts_expected rfl)
  have hnull : Spells (N := Float) ⟨[3, 1], some .boolean, [("input", .value)]⟩
      (isNullTest "==" (.call "var" [.string "input"]))
      (.apply [3, 1] .boolean .equal [.apply [3, 1, 1] .string .typeOf
        [.var [3, 1, 1, 1] .value "input"], .literal [3, 1, 2] .string (.string "Null")]) :=
    .binary .equal (.unary .typeOf hinput rfl nofun) (.bare rfl rfl rfl nofun) rfl
      (Context.accepts_expected rfl)
  have hitems : Context.Accepts ⟨[3, 2, 1], some (.array .value none), [("input", .value)]⟩
      (.array .number (some 1)) := by
    rintro _ ⟨⟩
    exact Ty.array_le_array.mpr ⟨.inl rfl, Ty.le_value _⟩
  have hmember : Spells (N := Float) ⟨[3, 2], some .boolean, [("input", .value)]⟩
      (memberTest [.integer 1] (.call "var" [.string "input"]))
      (.apply [3, 2] .boolean .contains [.literal [3, 2, 1] (.array .number (some 1))
        (.array [.number (Scalar.ofInt 1)]), .var [3, 2, 2] .value "input"]) :=
    .binary .contains (.literal rfl hitems) hinput rfl
      (Context.accepts_expected rfl)
  have hget {key : Path} {expected : Option Ty} {name : String}
      (h : Context.Accepts ⟨key, expected, []⟩ .value) :
      Spells (N := Float) ⟨key, expected, []⟩ (.call "get" [.string name])
        (.apply key .value .get [.literal (key ++ [1]) .string (.string name)]) :=
    .unary .get (.bare rfl rfl rfl nofun) rfl h
  have hclass : Spells (N := Float) (.test [])
      (.call "let" (alternate [(.string "input", .call "get" [.string "class"])] ++ [.call "||" [_, _]]))
      (.letIn [] [("input", .apply [2] .value .get [_])] _) :=
    .letIn (List.cons_ne_nil _ _) rfl (forall_getElem?_cons.mpr ⟨⟨rfl, by decide⟩, nofun⟩)
      (forall_getElem?_cons.mpr ⟨hget nofun, nofun⟩)
      (.binary .or hnull hmember rfl (Context.accepts_expected rfl))
  have hrank : Spells (N := Float) (.test [])
      (.call "<" [.call "number" [.call "get" [.string "rank"]], .integer 3])
      (.apply [] .boolean (.order .less) [.apply [1] .number (.assertion .number)
        [.apply [1, 1] .value .get [.literal [1, 1, 1] .string (.string "rank")]],
        .literal [2] .number (.number (Scalar.ofInt 3))]) :=
    .binary (.order .less)
      (.unary (.assertion .number) (hget (Context.accepts_expected rfl)) rfl nofun)
      (.bare rfl rfl rfl nofun) rfl (Context.accepts_expected rfl)
  have hlower : lower (.array unranked) = negate (.call (Operator.shortCircuit true).symbol
      [orElse _ false, orElse _ false]) := rfl
  rw [hlower, exists_spells_negate_iff,
    exists_spells_connective_iff (isConnective_shortCircuit true (List.cons_ne_nil _ _))]
  exact List.forall_mem_cons.mpr ⟨exists_spells_orElse_iff.mpr ⟨_, hclass⟩,
    List.forall_mem_singleton.mpr (exists_spells_orElse_iff.mpr ⟨_, hrank⟩)⟩

theorem answers_of_parse_lower_unranked :
    ∃ e filter, Expr.parse (lower (.array unranked)) (some .boolean) = .ok e ∧
      ofJson (.array unranked) = .ok filter ∧ e.Answers ∧
      ∀ feature, filter.passes feature = true ↔
        e.eval ⟨none, feature, []⟩ = .ok (.boolean true) := by
  obtain ⟨e, hspells⟩ := exists_spells_unranked
  have he := Expr.parse_eq_ok_iff.mpr hspells
  obtain ⟨hanswers, hbuilt, hpasses⟩ := answers_of_parse_lower unranked
  obtain ⟨filter, hfilter⟩ := hbuilt.mp ⟨e, he⟩
  exact ⟨e, filter, he, hfilter, hanswers e he, hpasses e filter he hfilter⟩

/-! ## Combinations -/

/-- The ways to combine filters. -/
inductive Junction where
  | all | any | none
  deriving DecidableEq, Repr

namespace Junction

/-- The name that filters write. -/
def symbol : Junction → String
  | .all => "all"
  | .any => "any"
  | .none => "none"

/-- The answer of a combination from the answers of its parts. -/
def holds : Junction → List Bool → Bool
  | .all, answers => answers.all id
  | .any, answers => answers.any id
  | .none, answers => !answers.any id

/-- What a combination stands for, from what its parts stand for. -/
def lowered (junction : Junction) (raws : List (Json N)) : Json N :=
  match junction with
  | .all => .call "&&" raws
  | .any => .call "||" raws
  | .none => negate (.call "||" raws)

end Junction

omit [Scalar N] in
theorem lower_junction (junction : Junction) {filters : List (Json N)} (hne : filters ≠ []) :
    lower (.call junction.symbol filters) = junction.lowered (filters.map lower) := by
  obtain ⟨first, rest, rfl⟩ := List.exists_cons_of_ne_nil hne
  rw [← lowerAll_eq_map]
  cases junction <;> rfl

theorem exists_spells_lowered_iff (junction : Junction) {raws : List (Json N)} (hne : raws ≠ []) :
    (∃ e, Spells (.test key) (junction.lowered raws) e) ↔
      ∀ raw ∈ raws, ∃ e, Spells (.test []) raw e := by
  cases junction with
  | all => exact exists_spells_connective_iff (isConnective_shortCircuit false hne)
  | any => exact exists_spells_connective_iff (isConnective_shortCircuit true hne)
  | none =>
    exact exists_spells_negate_iff.trans
      (exists_spells_connective_iff (isConnective_shortCircuit true hne))

/-- The answer of a connective, where each raw argument has one answer wherever it stands. -/
theorem forall₂_answers {op : Operator} {raws : List (Json N)} {answers : List Bool} {env : Env N}
    (hop : IsConnective op raws.length) (he : Spells (.test key) (.call op.symbol raws) e)
    (h : List.Forall₂ (fun raw b => ∀ key e, Spells (.test key) raw e →
      e.eval env = .ok (.boolean b)) raws answers) :
    ∃ args, e = .apply key .boolean op args ∧
      List.Forall₂ (fun arg b => arg.eval env = .ok (.boolean b)) args answers := by
  obtain ⟨args, hlen, hargs, rfl⟩ := (spells_connective_iff hop).mp he
  obtain ⟨hlen', hanswers⟩ := forall₂_iff_getElem?.mp h
  refine ⟨args, rfl, forall₂_iff_getElem?.mpr ⟨hlen'.trans hlen.symm, ?_⟩⟩
  intro i arg b harg hb
  obtain ⟨raw, hraw⟩ := exists_getElem?_of_getElem? hlen harg
  exact hanswers i raw b hraw hb _ _ (hargs i raw arg hraw harg)

theorem eval_lowered (junction : Junction) {raws : List (Json N)} (hne : raws ≠ [])
    {answers : List Bool} {env : Env N} (he : Spells (.test key) (junction.lowered raws) e)
    (h : List.Forall₂ (fun raw b => ∀ key e, Spells (.test key) raw e →
      e.eval env = .ok (.boolean b)) raws answers) :
    e.eval env = .ok (.boolean (junction.holds answers)) := by
  cases junction with
  | all =>
    obtain ⟨args, rfl, hargs⟩ := forall₂_answers (isConnective_shortCircuit false hne) he h
    exact Expr.eval_shortCircuit false hargs
  | any =>
    obtain ⟨args, rfl, hargs⟩ := forall₂_answers (isConnective_shortCircuit true hne) he h
    exact Expr.eval_shortCircuit true hargs
  | none =>
    obtain ⟨arg, harg, rfl⟩ := spells_negate_iff.mp he
    obtain ⟨args, rfl, hargs⟩ := forall₂_answers (isConnective_shortCircuit true hne) harg h
    exact Expr.eval_not (Expr.eval_shortCircuit true hargs)

/-- A combination of filters can be built exactly when all its parts can, and passes a feature when
all, some or none of its parts do. -/
theorem ofJson_junction (junction : Junction) {filters : List (Json N)} (hne : filters ≠ [])
    (harray : ∀ raw ∈ filters, raw.isArray = true) :
    ((∃ filter, ofJson (.call junction.symbol filters) = .ok filter) ↔
      ∀ raw ∈ filters, ∃ part, ofJson raw = .ok part) ∧
    ∀ filter parts, ofJson (.call junction.symbol filters) = .ok filter →
      List.Forall₂ (fun raw part => ofJson raw = .ok part) filters parts →
      ∀ feature, filter.passes feature = junction.holds (parts.map (·.passes feature)) := by
  have hne' : filters.map lower ≠ [] := fun h => hne (List.map_eq_nil_iff.mp h)
  constructor
  · rw [exists_ofJson_iff rfl [], lower_junction junction hne,
      exists_spells_lowered_iff junction hne', List.forall_mem_map]
    refine forall_congr' fun raw => forall_congr' fun hraw => ?_
    exact (exists_ofJson_iff (harray raw hraw) []).symm
  · intro filter parts hfilter hparts feature
    obtain ⟨e, he⟩ := (exists_ofJson_iff rfl []).mp ⟨filter, hfilter⟩
    have hpasses := eval_eq_passes rfl hfilter he feature
    rw [lower_junction junction hne] at he
    have hanswers : List.Forall₂ (fun raw b => ∀ key e, Spells (.test key) raw e →
        e.eval ⟨none, feature, []⟩ = .ok (.boolean b)) (filters.map lower)
          (parts.map (·.passes feature)) := by
      rw [List.forall₂_map_left_iff, List.forall₂_map_right_iff]
      rw [forall₂_iff_getElem?] at hparts ⊢
      refine ⟨hparts.1, fun i raw part hraw hpart key e he => ?_⟩
      have hpart' := hparts.2 i raw part hraw hpart
      exact eval_eq_passes (harray raw (List.mem_of_getElem? hraw)) hpart' he feature
    rw [eval_lowered junction hne' he hanswers] at hpasses
    exact (Value.boolean.inj (Except.ok.inj hpasses)).symm

theorem ofJson_junction_none :
    ∃ filter part part' : Filter Float,
      ofJson (.call "none" [.call "has" [.string "name"], .array []]) = .ok filter ∧
      ofJson (.call "has" [.string "name"]) = .ok part ∧ ofJson (.array []) = .ok part' ∧
      ∀ feature, filter.passes feature = !(part.passes feature || part'.passes feature) := by
  have hne : ([.call "has" [.string "name"], .array []] : List (Json Float)) ≠ [] :=
    List.cons_ne_nil _ _
  have harray : ∀ raw ∈ ([.call "has" [.string "name"], .array []] : List (Json Float)),
      raw.isArray = true :=
    List.forall_mem_cons.mpr ⟨rfl, List.forall_mem_singleton.mpr rfl⟩
  obtain ⟨part, hpart⟩ : ∃ part : Filter Float, ofJson (.call "has" [.string "name"]) = .ok part :=
    ⟨_, rfl⟩
  obtain ⟨part', hpart'⟩ : ∃ part : Filter Float, ofJson (.array []) = .ok part := ⟨_, rfl⟩
  obtain ⟨hbuilt, hpasses⟩ := ofJson_junction .none hne harray
  obtain ⟨filter, hfilter⟩ := hbuilt.mpr
    (List.forall_mem_cons.mpr ⟨⟨part, hpart⟩, List.forall_mem_singleton.mpr ⟨part', hpart'⟩⟩)
  refine ⟨filter, part, part', hfilter, hpart, hpart', fun feature => ?_⟩
  rw [hpasses filter [part, part'] hfilter (.cons hpart (.cons hpart' .nil)) feature]
  show (!(part.passes feature || (part'.passes feature || false))) = _
  rw [Bool.or_false]

end MapStyle.Filter
