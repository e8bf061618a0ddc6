import MapStyle.Proofs.Curve.Reading
import MapStyle.Proofs.Curve.Shares
import MapStyle.Proofs.Expr.Outcomes
import MapStyle.Proofs.Expr.TypeSoundness
import MapStyle.Proofs.Operator.Colors
import MapStyle.Proofs.Parse.Inversion
import MapStyle.Proofs.Parse.Places
import MapStyle.Proofs.Parse.Reading
import MapStyle.Proofs.Scalar.Real

/-!
# The colors of an expression

`Expr.inRange_of_parse`: in exact arithmetic, every color that a parsed expression yields is in range,
for a feature whose own colors are, wherever the curves of colors that are evaluated blend by shares
(`Expr.BlendsByShares`). A choice passes on a part, an operator keeps colors in range, and a curve
yields an output or a blend of two.

A negative base does not blend by shares, and then a color can be out of range
(`Expr.exists_color_out_of_range`).
-/

namespace MapStyle

variable {N : Type}

/-! ## Choices -/

section

variable {v : Value N} {otherwise : Outcome N (Value N)}

/-- What is chosen is null or one of the arguments. -/
theorem mem_of_coalesce : ∀ {args : List (Outcome N (Value N))}, coalesce args = .ok v →
    v = .null ∨ .ok v ∈ args
  | [], h => by
    cases h
    exact .inl rfl
  | [_], h => .inr (List.mem_singleton.mpr h.symm)
  | first :: second :: rest, h => by
    have hrest (h : coalesce (second :: rest) = .ok v) : v = .null ∨ .ok v ∈ first :: second :: rest :=
      (mem_of_coalesce h).imp_right (List.mem_cons_of_mem first)
    cases first with
    | error failure => exact hrest h
    | ok w =>
      change (if w.isNull then coalesce (second :: rest) else .ok w) = .ok v at h
      split at h
      · exact hrest h
      · exact .inr (h ▸ List.mem_cons_self)

theorem mem_of_firstTrue {branches : List (Outcome N (Value N) × Outcome N (Value N))}
    (h : firstTrue branches otherwise = .ok v) :
    .ok v ∈ branches.map (·.2) ∨ otherwise = .ok v := by
  induction branches with
  | nil => exact .inr h
  | cons b rest ih =>
    obtain ⟨test, -, h⟩ := Outcome.bind_eq_ok h
    obtain ⟨holds, -, h⟩ := Outcome.bind_eq_ok h
    rw [List.map_cons, List.mem_cons, or_assoc]
    split at h
    · exact .inl h.symm
    · exact .inr (ih h)

theorem mem_of_byLabel [Scalar N] {input : Value N}
    {branches : List (List (Label N) × Outcome N (Value N))}
    (h : byLabel input branches otherwise = .ok v) :
    .ok v ∈ branches.map (·.2) ∨ otherwise = .ok v := by
  induction branches with
  | nil => exact .inr h
  | cons b rest ih =>
    rw [List.map_cons, List.mem_cons, or_assoc]
    unfold byLabel at h
    split at h
    · exact .inl h.symm
    · exact .inr (ih h)

end

/-! ## Operators -/

namespace Operator

theorem ok_mem_of_evalAll {operands : List (Outcome N (Value N))} {vs : List (Value N)}
    (h : evalAll operands = .ok vs) : ∀ w ∈ vs, .ok w ∈ operands := by
  induction operands generalizing vs with
  | nil =>
    cases h
    exact fun w hw => absurd hw List.not_mem_nil
  | cons o rest ih =>
    obtain ⟨v, hv, h⟩ := Outcome.bind_eq_ok h
    obtain ⟨others, hothers, h⟩ := Outcome.bind_eq_ok h
    cases h
    exact List.forall_mem_cons.mpr
      ⟨hv ▸ List.mem_cons_self, fun w hw => List.mem_cons_of_mem _ (ih hothers w hw)⟩

theorem run_inRange [Scalar N] [ExactScalar N] (op : Operator) {env : Env N}
    (henv : env.feature.InRange) {operands : List (Outcome N (Value N))}
    (hoperands : ∀ w, .ok w ∈ operands → w.InRange) {v : Value N}
    (h : op.run env operands = .ok v) : v.InRange := by
  cases hlazy : op.isLazy with
  | false =>
    rw [run_eq_apply hlazy] at h
    obtain ⟨vs, hvs, h⟩ := Outcome.bind_eq_ok h
    rw [report_outcome] at h
    exact apply_inRange op henv (fun w hw => hoperands w (ok_mem_of_evalAll hvs w hw)) h
  | true =>
    cases op with
    | and | or => exact inRange_of_primitive (fun _ => rfl) h
    | _ => cases hlazy

end Operator

/-! ## Nodes -/

namespace Expr

variable [Scalar N]

/-- What the parser ensures of a node: literals are plain data, and the numbers of a curve are finite,
those of its stops in order. -/
def Plain : Expr N → Prop
  | .literal _ _ value => value.colors = []
  | .curve _ _ kind _ stops => (∀ base, kind = .exponential base → Scalar.isFinite base = true) ∧
    (∀ s ∈ stops, Scalar.isFinite s.1 = true) ∧
    (stops.map (·.1)).IsChain fun x y => Scalar.atMost y x = false
  | _ => True

/-- Whether a curve that blends colors does so by shares of the way: its interpolation gives shares,
and its input is a number. A step curve does not blend, nor does one with a single stop. -/
def BlendsByShares (env : Env N) : Expr N → Prop
  | .curve _ .color kind input stops => kind.isStep = false → 2 ≤ stops.length →
    kind.GivesShares ∧ ∀ x, input.eval env = .ok (.number x) → (x == x) = true
  | _ => True

/-- Evaluation reaches nodes of the tree only. -/
theorem Reaches.mem_nodes {env env' : Env N} {e d : Expr N} (h : Reaches env e env' d) :
    d ∈ e.nodes := by
  induction h with
  | self => exact Expr.mem_nodes.mpr (.inl rfl)
  | child _ hchild _ ih => exact Expr.mem_nodes.mpr (.inr ⟨_, hchild, ih⟩)
  | binding hb _ ih =>
    exact Expr.mem_nodes.mpr (.inr ⟨_, List.mem_append_left _ (List.mem_map_of_mem hb), ih⟩)
  | result _ _ ih =>
    exact Expr.mem_nodes.mpr (.inr ⟨_, List.mem_append_right _ (List.mem_singleton.mpr rfl), ih⟩)

theorem evalBindings_inRange {bindings : List (String × Expr N)} {env : Env N}
    (h : ∀ b ∈ bindings, ∀ v, b.2.eval env = .ok v → v.InRange) {bound : List (String × Value N)}
    (hbound : evalBindings bindings env = .ok bound) : ∀ b ∈ bound, b.2.InRange := by
  have hvalues := forall₂_and_right (evalBindings_eq_ok_iff.mp hbound).flip h
  refine forall_left_of_forall₂ hvalues ?_
  rintro v b ⟨⟨-, heval⟩, hrange⟩
  exact hrange v.2 heval

variable [ExactScalar N]

theorem curve_inRange {key : Path} {type : Ty} {kind : Interpolation N} {input : Expr N}
    {stops : List (N × Expr N)} {env : Env N} {v : Value N}
    (hplain : (curve key type kind input stops).Plain)
    (hblends : (curve key type kind input stops).BlendsByShares env)
    (houtputs : ∀ s ∈ stops, ∀ w, s.2.eval env = .ok w → w.InRange)
    (hv : (curve key type kind input stops).eval env = .ok v) : v.InRange := by
  have houtput {w : Value N} (hw : .ok w ∈ stops.map (·.2.eval env)) : w.InRange := by
    obtain ⟨s, hs, hw⟩ := List.mem_map.mp hw
    exact houtputs s hs w hw
  rw [eval_curve] at hv
  obtain ⟨w, hw, hv⟩ := Outcome.bind_eq_ok hv
  obtain hmem | ⟨x, i, t, lower, upper, rfl, hselect, hlower, hupper, hblend⟩ :=
    Curve.exists_of_evaluate hv
  · exact houtput hmem
  refine Curve.inRange_of_blend (houtput hlower) (houtput hupper) (fun hcolor => ?_) hblend
  obtain rfl : type = .color := by
    cases type with
    | color => rfl
    | array item length => cases item <;> cases hcolor
    | _ => cases hcolor
  obtain ⟨hbase, hfinite, hstops⟩ := hplain
  obtain ⟨hlt, hstep⟩ := Curve.lt_of_select_between hselect
  rw [List.length_map] at hlt
  obtain ⟨hkind, hinput⟩ := hblends hstep (by omega)
  refine Curve.isShare_of_select hkind hbase (fun s hs => ?_) hstops (hinput x hw) hselect
  obtain ⟨stop, hstop, rfl⟩ := List.mem_map.mp hs
  exact hfinite stop hstop

/-- Where every color that an expression can read is in range, so is every color that it yields. -/
theorem eval_inRange {e : Expr N} {env : Env N} (hplain : ∀ d ∈ e.nodes, d.Plain)
    (hblends : ∀ env' d, Reaches env e env' d → d.BlendsByShares env') (henv : env.InRange)
    {v : Value N} (hv : e.eval env = .ok v) : v.InRange := by
  induction e using induction_on_children generalizing env v with
  | h e ih =>
    have hbelow {d d' : Expr N} (hd : d ∈ e.children) (hd' : d' ∈ d.nodes) : d'.Plain :=
      hplain d' (mem_nodes.mpr (.inr ⟨d, hd, hd'⟩))
    have here := hplain e (mem_nodes.mpr (.inl rfl))
    -- Only a `let` evaluates a child in an environment other than its own.
    by_cases hlet : ∃ key bindings result, e = .letIn key bindings result
    · obtain ⟨key, bindings, result, rfl⟩ := hlet
      rw [eval_letIn] at hv
      obtain ⟨bound, hbound, hv⟩ := Outcome.bind_eq_ok hv
      have hvalues : ∀ b ∈ bindings, ∀ w, b.2.eval env = .ok w → w.InRange := fun b hb w hw =>
        have hmem := List.mem_append_left _ (List.mem_map_of_mem hb)
        ih b.2 hmem (fun _ => hbelow hmem)
          (fun env' d hreaches => hblends env' d (.binding hb hreaches)) henv hw
      have hmem : result ∈ (letIn key bindings result).children :=
        List.mem_append_right _ (List.mem_singleton.mpr rfl)
      exact ih result hmem (fun _ => hbelow hmem)
        (fun env' d hreaches => hblends env' d (.result hbound hreaches))
        (henv.bind (evalBindings_inRange hvalues hbound)) hv
    have hchild {d : Expr N} (hd : d ∈ e.children) {w : Value N} (hw : d.eval env = .ok w) :
        w.InRange :=
      ih d hd (fun _ => hbelow hd) (fun env' d' hreaches => hblends env' d'
        (.child (fun key bindings result he => hlet ⟨key, bindings, result, he⟩) hd hreaches)) henv hw
    cases e with
    | literal key type value =>
      cases hv
      exact Value.inRange_of_colors_eq_nil here
    | var key type name =>
      change env.lookup name = .ok v at hv
      unfold Env.lookup at hv
      split at hv
      · next w hw =>
        cases hv
        exact henv.scope (name, v) (mem_of_lookup_eq_some hw)
      · cases hv
    | letIn key bindings result => exact absurd ⟨key, bindings, result, rfl⟩ hlet
    | coalesce key type args =>
      rw [eval_coalesce] at hv
      rcases mem_of_coalesce hv with rfl | hmem
      · exact Value.inRange_of_isPrimitive rfl
      · obtain ⟨a, ha, hv⟩ := List.mem_map.mp hmem
        exact hchild ha hv
    | conditional key type branches otherwise =>
      rw [eval_conditional] at hv
      rcases mem_of_firstTrue hv with hmem | hv
      · rw [List.map_map] at hmem
        obtain ⟨b, hb, hv⟩ := List.mem_map.mp hmem
        exact hchild (List.mem_append_left _ (List.mem_flatMap.mpr ⟨b, hb, by simp⟩)) hv
      · exact hchild (List.mem_append_right _ (List.mem_singleton.mpr rfl)) hv
    | matching key type input branches otherwise =>
      rw [eval_matching] at hv
      obtain ⟨w, -, hv⟩ := Outcome.bind_eq_ok hv
      rcases mem_of_byLabel hv with hmem | hv
      · rw [List.map_map] at hmem
        obtain ⟨b, hb, hv⟩ := List.mem_map.mp hmem
        exact hchild (List.mem_append_left _ (List.mem_cons_of_mem _ (List.mem_map_of_mem hb))) hv
      · exact hchild (List.mem_append_right _ (List.mem_singleton.mpr rfl)) hv
    | curve key type kind input stops =>
      refine curve_inRange here (hblends env _ .self) (fun s hs w hw => ?_) hv
      exact hchild (List.mem_cons_of_mem _ (List.mem_map_of_mem hs)) hw
    | arrayOf key item length input =>
      rw [eval_arrayOf] at hv
      obtain ⟨w, hw, hv⟩ := Outcome.bind_eq_ok hv
      obtain ⟨rfl, -⟩ := (w.assertType_yields _).of_ok hv
      exact hchild (List.mem_singleton.mpr rfl) hw
    | apply key type op args =>
      rw [eval_apply] at hv
      refine Operator.run_inRange op henv.feature (fun w hw => ?_) hv
      obtain ⟨a, ha, hw⟩ := List.mem_map.mp hw
      exact hchild ha hw

end Expr

namespace Parse

variable [Scalar N]

theorem Spells.plain {c : Context} {raw : Json N} {e : Expr N} (h : Spells c raw e) : e.Plain := by
  cases h with
  | bare | literal => exact Value.colors_ofJson _
  | curve hne hlen hkind hinput hstops hascending =>
    refine ⟨?_, isFinite_of_stops hlen hstops, hascending⟩
    rintro base rfl
    exact isFinite_of_readInterpolation hkind base List.mem_cons_self
  | _ => trivial

end Parse

namespace Expr

variable [Scalar N] [ExactScalar N]

/-- The colors of a parsed expression are in range: for a feature whose own colors are, and as far as
the curves of colors that are evaluated blend by shares. -/
theorem inRange_of_parse {raw : Json N} {expected : Option Ty} {e : Expr N}
    (h : parse raw expected = .ok e) {zoom : Option N} {feature : Feature N}
    (hfeature : feature.InRange)
    (hblends : ∀ env d, Reaches ⟨zoom, feature, []⟩ e env d → d.BlendsByShares env) {v : Value N}
    (hv : e.eval ⟨zoom, feature, []⟩ = .ok v) : v.InRange := by
  refine eval_inRange (fun d hd => ?_) hblends ⟨hfeature, fun b hb => absurd hb List.not_mem_nil⟩ hv
  obtain ⟨path, inner, sub, -, -, hspells⟩ := (parse_eq_ok_iff.mp h).exists_place hd
  exact hspells.plain

/-! ## A fading color -/

section

open Parse

open scoped RealScalar

/-- A curve by powers of a base, from red at zoom zero to black at zoom two. -/
def fade (base : ℝ) : Json ℝ :=
  .call "curve" [.array [.string "exponential", .real base], .call "zoom" [],
    .integer 0, .call "to-color" [.string "red"], .integer 2, .call "to-color" [.string "black"]]

/-- A text read as a color. -/
def colorOf (key : Path) (text : String) : Expr ℝ :=
  .apply key .color .toColor [.literal (key ++ [1]) .string (.string text)]

/-- The tree of `fade`. -/
noncomputable def fading (base : ℝ) : Expr ℝ :=
  .curve [] .color (.exponential base) (.apply [2] .number .zoom [])
    [(Scalar.ofInt 0, colorOf [4] "red"), (Scalar.ofInt 2, colorOf [6] "black")]

theorem spells_colorOf {c : Context} (hc : c.Accepts .color) (text : String) :
    Spells c (.call (Operator.symbol .toColor) [.string text]) (colorOf c.key text) :=
  .unary .toColor (.bare rfl rfl rfl (Context.accepts_value rfl _)) rfl hc

theorem parse_fade (base : ℝ) : parse (fade base) none = .ok (fading base) := by
  have hnone : Context.Accepts ⟨[4], none, []⟩ .color := nofun
  have hascending : Scalar.atMost (Scalar.ofInt 2 : ℝ) (Scalar.ofInt 0) = false :=
    decide_eq_false (by norm_num [RealScalar.ofInt_eq])
  rw [parse_eq_ok_iff]
  exact .curveOverZoom rfl rfl rfl hascending (spells_colorOf hnone "red")
    (spells_colorOf (Context.accepts_expected rfl) "black") rfl (.inr (by decide)) nofun

theorem eval_fading (base : ℝ) (feature : Feature ℝ) :
    (fading base).eval ⟨some 1, feature, []⟩ = .ok (.color (Curve.blendColor
      (Color.ofBytes 255 0 0 255) (Color.ofBytes 0 0 0 255)
      (Interpolation.exponentialFactor base 1 0 2))) := by
  have hzero : (Scalar.ofInt 0 : ℝ) = 0 := by rw [RealScalar.ofInt_eq, Int.cast_zero]
  have htwo : (Scalar.ofInt 2 : ℝ) = 2 := by rw [RealScalar.ofInt_eq, Int.cast_ofNat]
  have hbetween : Curve.Between [(0 : ℝ), 2] 1 0 :=
    ⟨0, 2, rfl, rfl, decide_eq_true zero_le_one, decide_eq_true one_lt_two⟩
  have hstops : Ascending [(0 : ℝ), 2] := List.pairwise_pair.mpr (decide_eq_true two_pos)
  have hfirst : ¬([(0 : ℝ), 2].length = 1 ∨ [(0 : ℝ), 2].head?.any (Scalar.atMost 1) = true) := by
    rintro (h | h)
    · cases h
    · exact absurd (of_decide_eq_true h) (not_le.mpr one_pos)
  have hselect : Curve.select (.exponential base) [(0 : ℝ), 2] 1 =
      .between 0 (Interpolation.exponentialFactor base 1 0 2) :=
    Curve.select_eq_between hbetween hstops hfirst (by rintro ⟨⟩) rfl rfl
  have hzoom : (apply [2] .number .zoom [] : Expr ℝ).eval ⟨some 1, feature, []⟩ =
      .ok (.number 1) := rfl
  rw [fading, hzero, htwo, eval_curve, hzoom]
  show Curve.evaluate (m := Except (Failure ℝ)) (.exponential base) .color [(0 : ℝ), 2]
    [(colorOf [4] "red").eval ⟨some 1, feature, []⟩,
      (colorOf [6] "black").eval ⟨some 1, feature, []⟩] (.number 1) = _
  unfold Curve.evaluate
  dsimp only
  rw [if_neg (by simp), hselect]
  rfl

theorem inRange_of_parse_fade : ∃ (e : Expr ℝ) (v : Value ℝ), parse (fade 2) none = .ok e ∧
    e.eval ⟨some 1, ⟨[], .null, .point⟩, []⟩ = .ok v ∧ v.InRange := by
  have hfeature : (⟨[], .null, .point⟩ : Feature ℝ).InRange :=
    ⟨Value.inRange_of_colors_eq_nil rfl, Value.inRange_of_colors_eq_nil rfl⟩
  refine ⟨_, _, parse_fade 2, eval_fading 2 _,
    inRange_of_parse (parse_fade 2) hfeature (fun env d hd => ?_) (eval_fading 2 _)⟩
  have hnodes := hd.mem_nodes
  simp only [fading, colorOf, nodes, argNodes, stopNodes, List.cons_append, List.nil_append,
    List.append_nil, List.mem_cons, List.not_mem_nil, or_false] at hnodes
  rcases hnodes with rfl | rfl | rfl | rfl | rfl | rfl
  · refine fun _ _ => ⟨decide_eq_true ?_, fun x _ => decide_eq_true rfl⟩
    rw [RealScalar.ofInt_eq, Int.cast_zero]
    exact zero_le_two
  all_goals trivial

/-- A negative base leads out of the range: halfway down from red, the red channel is two. -/
theorem exists_color_out_of_range : ∃ (e : Expr ℝ) (c : Color ℝ), parse (fade (-2)) none = .ok e ∧
    (⟨[], .null, .point⟩ : Feature ℝ).InRange ∧
    e.eval ⟨some 1, ⟨[], .null, .point⟩, []⟩ = .ok (.color c) ∧ c.red = 2 ∧
    ¬(Value.color c).InRange := by
  have hfactor : Interpolation.exponentialFactor (-2 : ℝ) 1 0 2 = -1 := by
    unfold Interpolation.exponentialFactor
    show (if decide ((2 : ℝ) - 0 = ((0 : ℤ) : ℝ)) = true then (((0 : ℤ) : ℝ)) else
      if decide ((-2 : ℝ) = ((1 : ℤ) : ℝ)) = true then _ else
      ((-2 : ℝ) ^ (1 - 0 : ℝ) - ((1 : ℤ) : ℝ)) / ((-2 : ℝ) ^ (2 - 0 : ℝ) - ((1 : ℤ) : ℝ))) = _
    norm_num
  have hred : (Curve.blendColor (Color.ofBytes 255 0 0 255) (Color.ofBytes 0 0 0 255)
      (Interpolation.exponentialFactor (-2 : ℝ) 1 0 2)).red = 2 := by
    rw [hfactor]
    show ((255 : ℤ) : ℝ) / ((255 : ℤ) : ℝ) * (((1 : ℤ) : ℝ) - -1) +
      ((0 : ℤ) : ℝ) / ((255 : ℤ) : ℝ) * -1 = 2
    norm_num
  refine ⟨_, _, parse_fade (-2), ?_, eval_fading (-2) _, hred, fun h => ?_⟩
  · exact ⟨Value.inRange_of_colors_eq_nil rfl, Value.inRange_of_colors_eq_nil rfl⟩
  · obtain ⟨x, hx, hxred⟩ := Scalar.isShare_iff.mp (Color.inRange_iff.mp (Value.inRange_color.mp h)).1
    rw [hred] at hxred
    obtain rfl : (2 : ℝ) = x := hxred
    exact absurd hx.2 (by norm_num)

end

end Expr

end MapStyle
