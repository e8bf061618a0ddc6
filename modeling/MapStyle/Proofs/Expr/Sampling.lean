import MapStyle.Property.ZoomCurve
import MapStyle.Proofs.Curve.Sampling
import MapStyle.Proofs.Expr.Constancy
import MapStyle.Proofs.Expr.TypeSoundness
import MapStyle.Proofs.Parse.Inversion
import MapStyle.Proofs.Parse.Places
import MapStyle.Proofs.Parse.Reading
import MapStyle.Proofs.Scalar.Real

/-!
# Zoom curves sampled at their stops

Whoever draws a map between two zooms may evaluate a zoom curve at its stops only, and blend the two
values with `ZoomCurve.factor`. In exact arithmetic this gives the values of the curve, as far as the
outputs do not read the zoom themselves (`Expr.blends_between_stops_of_parse`).
-/

namespace MapStyle

variable {N : Type} [Scalar N]

/-- An environment at another zoom. -/
def Env.atZoom (env : Env N) (zoom : N) : Env N := { env with zoom := some zoom }

/-- The node of a curve over an input. -/
def ZoomCurve.node (curve : ZoomCurve N) (input : Expr N) : Expr N :=
  .curve curve.key curve.type curve.interpolation input curve.stops

namespace Parse

/-! ## The numbers of a parsed curve -/

variable [ExactDecimals N]

/-- Finite numbers at the stops of a parsed curve make a curve of exact numbers. -/
theorem Spells.exact {c : Context} {raw : Json N} {key : Path} {type : Ty} {kind : Interpolation N}
    {input : Expr N} {stops : List (N × Expr N)}
    (h : Spells c raw (.curve key type kind input stops)) (hpowers : kind.HasPowers)
    {number : N × Expr N → N} (hnumber : ∀ s ∈ stops, Scalar.isFinite (number s) = true) :
    Curve.Exact kind (stops.map fun s => (s.1, number s)) := by
  cases h with
  | curve hne hlen hkind hinput hstops hascending =>
    have hfinite := isFinite_of_stops hlen hstops
    refine ⟨?_, ?_, ?_, isFinite_of_readInterpolation hkind, hpowers⟩
    · rw [List.map_map]
      refine ascending_of_isChain (fun x hx => ?_) hascending
      obtain ⟨s, hs, rfl⟩ := List.mem_map.mp hx
      exact Scalar.beq_self_of_isFinite (hfinite s hs)
    · exact List.forall_mem_map.mpr hfinite
    · exact List.forall_mem_map.mpr hnumber

end Parse

namespace Expr

variable {env : Env N} {x : N}

/-! ## Curves over the zoom -/

/-- The zoom has the zoom of the environment as its value. -/
theorem eval_of_isZoom {scope : Scope} {e : Expr N} (htyped : WellTyped scope e)
    (hzoom : e.isZoom = true) : e.eval (env.atZoom x) = .ok (.number x) := by
  unfold isZoom at hzoom
  split at hzoom
  · next key type args =>
    cases htyped with
    | node hlocal _ =>
      have hlength : (args.map Expr.type).length = 0 := Signature.length_of_arity? rfl hlocal
      rw [List.length_map, List.length_eq_zero_iff] at hlength
      subst hlength
      rfl
  · cases hzoom

/-- Where the outputs have numbers, a curve over numbers has the value of these at the stops. -/
theorem eval_curve_of_numbers {key : Path} {kind : Interpolation N} {input : Expr N}
    {stops : List (N × Expr N)} {number : N × Expr N → N}
    (hinput : input.eval env = .ok (.number x))
    (houtputs : ∀ s ∈ stops, s.2.eval env = .ok (.number (number s))) :
    (curve key .number kind input stops).eval env =
      Curve.sample kind (stops.map fun s => (s.1, number s)) x := by
  rw [eval_curve, hinput, List.map_congr_left houtputs, Curve.sample, List.map_map, List.map_map]
  rfl

/-- What does not read the zoom has the same value at all zooms. -/
theorem eval_atZoom {e : Expr N} (h : e.isZoomConstant = true) (env : Env N) (zoom : N) :
    e.eval (env.atZoom zoom) = e.eval env := by
  unfold isZoomConstant at h
  rw [Bool.not_eq_true'] at h
  exact eval_eq_of_agreeBut h ⟨rfl, fun hne => absurd rfl hne, fun _ => rfl⟩

/-! ## Blending from outside -/

section

variable [ExactDecimals N] {raw : Json N} {expected : Option Ty} {e : Expr N} {scope : Scope}
  {curve : ZoomCurve N} {input : Expr N}

open Parse

/-- A curve of numbers over the zoom in a parsed expression, whose outputs do not read the zoom and
have values for a feature, can be blended from outside: between two neighbouring stops it has the
blend, by its factor, of the values that it has at these stops itself. Numbers are exact, and the base
of powers is not negative. -/
theorem blends_between_stops_of_parse (h : parse raw expected = .ok e)
    (hcurve : Occurs [] e scope (curve.node input)) (htype : curve.type = .number)
    (hinput : input.isZoom = true) (hpowers : curve.interpolation.HasPowers)
    (hconstant : ∀ s ∈ curve.stops, s.2.isZoomConstant = true) (henv : env.Fits scope)
    (houtputs : ∀ s ∈ curve.stops, ∃ v, s.2.eval env = .ok v ∧
      ∀ y, v = .number y → Scalar.isFinite y = true)
    {i : Nat} {lower upper zoom : N} (hlower : curve.stopInputs[i]? = some lower)
    (hupper : curve.stopInputs[i + 1]? = some upper) (hlo : Scalar.atMost lower zoom = true)
    (hhi : Scalar.less zoom upper = true) :
    ∃ a b, (curve.node input).eval (env.atZoom lower) = .ok (.number a) ∧
      (curve.node input).eval (env.atZoom upper) = .ok (.number b) ∧
      (curve.node input).eval (env.atZoom zoom) =
        .ok (.number (Curve.blendNumber a b (curve.factor zoom lower upper))) := by
  obtain ⟨key, type, kind, stops⟩ := curve
  obtain rfl : type = .number := htype
  have hspells := parse_eq_ok_iff.mp h
  obtain ⟨-, c, sub, -, -, hnode⟩ := hspells.exists_place hcurve.mem_nodes
  cases hspells.wellTyped.of_occurs hcurve with
  | node hlocal hchildren =>
    have hzoom := hchildren (scope, input) (List.mem_map_of_mem List.mem_cons_self)
    have hnumber : ∀ s ∈ stops, ∃ y, s.2.eval env = .ok (.number y) ∧
        Scalar.isFinite y = true := fun s hs => by
      obtain ⟨v, hv, hfinite⟩ := houtputs s hs
      have htyped := hchildren (scope, s.2)
        (List.mem_map_of_mem (List.mem_cons_of_mem _ (List.mem_map_of_mem hs)))
      obtain ⟨y, rfl⟩ : v.Belongs .number :=
        ((htyped.eval_yields henv).of_ok hv).mono (hlocal.2.2.1 s hs)
      exact ⟨y, hv, hfinite y rfl⟩
    have : Nonempty N := ⟨Scalar.ofInt 0⟩
    choose! number hnumber hfinite using hnumber
    have hexact : Curve.Exact kind (stops.map fun s => (s.1, number s)) :=
      hnode.exact hpowers hfinite
    -- The variables and outputs are the same at all zooms, so that only the input changes.
    have hsample (x : N) : (Expr.curve key .number kind input stops).eval (env.atZoom x) =
        Curve.sample kind (stops.map fun s => (s.1, number s)) x :=
      eval_curve_of_numbers (eval_of_isZoom hzoom hinput)
        fun s hs => (eval_atZoom (hconstant s hs) env x).trans (hnumber s hs)
    have hrow {j : Nat} {x : N} (hx : (stops.map (·.1))[j]? = some x) :
        ∃ y, (stops.map fun s => (s.1, number s))[j]? = some (x, y) := by
      rw [List.getElem?_map, Option.map_eq_some_iff] at hx
      obtain ⟨s, hs, rfl⟩ := hx
      exact ⟨number s, by rw [List.getElem?_map, hs]; rfl⟩
    obtain ⟨a, ha⟩ := hrow hlower
    obtain ⟨b, hb⟩ := hrow hupper
    exact ⟨a, b, (hsample lower).trans (hexact.sample_at ha),
      (hsample upper).trans (hexact.sample_at hb),
      (hsample zoom).trans (hexact.sample_between ha hb hlo hhi)⟩

end

/-! ## A rising number -/

section

open Parse

open scoped RealScalar

/-- A number written out at a place. -/
noncomputable def level (key : Path) (n : Int) : Expr ℝ :=
  .literal key .number (.number (Scalar.ofInt n))

/-- A curve by powers of two, which is one at zoom zero, three at zoom two and five at zoom six. -/
noncomputable def rising : ZoomCurve ℝ where
  key := []
  type := .number
  interpolation := .exponential (Scalar.ofInt 2)
  stops := [(Scalar.ofInt 0, level [4] 1), (Scalar.ofInt 2, level [6] 3),
    (Scalar.ofInt 6, level [8] 5)]

/-- The expression as written. -/
def rise : Json ℝ :=
  .call "curve" [.array [.string "exponential", .integer 2], .call "zoom" [],
    .integer 0, .integer 1, .integer 2, .integer 3, .integer 6, .integer 5]

theorem spells_level {c : Context} (hc : c.Accepts .number) {n : Int}
    (hn : |n| ≤ 9007199254740991) : Spells c (.integer n : Json ℝ) (level c.key n) := by
  refine .bare rfl rfl (decide_eq_true ?_) hc
  show |(n : ℝ)| ≤ ((9007199254740991 : ℤ) : ℝ)
  exact_mod_cast hn

theorem parse_rise :
    parse rise none = .ok (rising.node (.apply [2] .number .zoom [])) := by
  have hnumber (key : Path) : Context.Accepts ⟨key, some .number, []⟩ .number :=
    Context.accepts_expected rfl
  have hnone : Context.Accepts ⟨[4], none, []⟩ .number := nofun
  have halternate : rise = .call "curve" (.array [.string "exponential", .integer 2] ::
      .call "zoom" [] :: alternate [(.integer 0, .integer 1), (.integer 2, .integer 3),
        (.integer 6, .integer 5)]) := rfl
  rw [parse_eq_ok_iff, halternate]
  refine .curve (List.cons_ne_nil _ _) rfl rfl (.nullary .zoom rfl (hnumber [2])) ?_ ?_ ?_ rfl
    (.inr (by decide)) nofun
  · exact forall_getElem?_cons.mpr ⟨rfl, forall_getElem?_cons.mpr ⟨rfl,
      forall_getElem?_cons.mpr ⟨rfl, nofun⟩⟩⟩
  · refine .cons_cons (decide_eq_false ?_) (.cons_cons (decide_eq_false ?_) (.singleton _))
    · norm_num [RealScalar.ofInt_eq]
    · norm_num [RealScalar.ofInt_eq]
  · exact forall_getElem?_cons.mpr ⟨spells_level hnone (by decide), forall_getElem?_cons.mpr
      ⟨spells_level (hnumber [6]) (by decide), forall_getElem?_cons.mpr
        ⟨spells_level (hnumber [8]) (by decide), nofun⟩⟩⟩

theorem blends_between_stops_of_parse_rise :
    ∃ (e : Expr ℝ) (env : Env ℝ) (a b : ℝ), parse rise none = .ok e ∧
      e.eval (env.atZoom (Scalar.ofInt 0)) = .ok (.number a) ∧
      e.eval (env.atZoom (Scalar.ofInt 2)) = .ok (.number b) ∧
      e.eval (env.atZoom (Scalar.ofInt 1)) = .ok (.number (Curve.blendNumber a b
        (rising.factor (Scalar.ofInt 1) (Scalar.ofInt 0) (Scalar.ofInt 2)))) := by
  have hpowers : rising.interpolation.HasPowers := by
    rintro base ⟨⟩
    exact decide_eq_true (by norm_num [RealScalar.ofInt_eq])
  have hconstant : ∀ s ∈ rising.stops, s.2.isZoomConstant = true := by
    simp only [rising, List.forall_mem_cons]
    exact ⟨rfl, rfl, rfl, fun s hs => absurd hs List.not_mem_nil⟩
  have houtputs : ∀ s ∈ rising.stops, ∃ v,
      s.2.eval (⟨none, ⟨[], .null, .point⟩, []⟩ : Env ℝ) = .ok v ∧
        ∀ y, v = .number y → Scalar.isFinite y = true := by
    simp only [rising, List.forall_mem_cons]
    exact ⟨⟨_, rfl, fun _ _ => rfl⟩, ⟨_, rfl, fun _ _ => rfl⟩, ⟨_, rfl, fun _ _ => rfl⟩,
      fun s hs => absurd hs List.not_mem_nil⟩
  have hlo : Scalar.atMost (Scalar.ofInt 0 : ℝ) (Scalar.ofInt 1) = true :=
    decide_eq_true (by norm_num [RealScalar.ofInt_eq])
  have hhi : Scalar.less (Scalar.ofInt 1 : ℝ) (Scalar.ofInt 2) = true :=
    decide_eq_true (by norm_num [RealScalar.ofInt_eq])
  obtain ⟨a, b, hvalues⟩ := blends_between_stops_of_parse parse_rise .self rfl rfl hpowers hconstant
    (Env.fits_nil _) houtputs (i := 0) rfl rfl hlo hhi
  exact ⟨_, _, a, b, parse_rise, hvalues⟩

end

end Expr

end MapStyle
