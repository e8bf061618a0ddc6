import MapStyle.Binary64.Scalar
import MapStyle.Proofs.Expr.Nodes
import MapStyle.Proofs.Parse.Errors
import MapStyle.Proofs.Parse.Inversion
import MapStyle.Property.StyleFunction

/-!
# The zoom curve of a style function

`Expr.zoomCurves` lists the curves over the zoom that are reached from the root of a tree through the
results of `let` and the arguments of `coalesce`. The search for the zoom curve finds one just where
the list has no other (`Expr.zoomCurve?_eq_ok_iff`), and fails with a later one where it has
(`Expr.zoomCurve?_unique`). So a style function that depends on the zoom has one such curve
(`StyleFunction.zoomCurve_of_ofJson`). The rest of the tree is not searched, and may read the zoom as
well.
-/

namespace MapStyle

variable {N : Type}

/-- A list that is no longer than an option's is one. -/
theorem exists_eq_toList {α : Type} {l : List α} (h : l.length ≤ 1) :
    ∃ found : Option α, l = found.toList := by
  match l, h with
  | [], _ => exact ⟨none, rfl⟩
  | [a], _ => exact ⟨some a, rfl⟩

namespace Expr

mutual

/-- The curves over the zoom that are reached through the results of `let` and the arguments of
`coalesce`, in order. -/
def zoomCurves : Expr N → List (ZoomCurve N)
  | .curve key type interpolation input stops =>
    if input.isZoom then [⟨key, type, interpolation, stops⟩] else []
  | .letIn _ _ result => zoomCurves result
  | .coalesce _ _ args => zoomCurvesIn args
  | _ => []

def zoomCurvesIn : List (Expr N) → List (ZoomCurve N)
  | [] => []
  | arg :: rest => zoomCurves arg ++ zoomCurvesIn rest

end

/-! ## The search -/

mutual

/-- The search succeeds where it reaches no more than one curve over the zoom, and finds that. -/
theorem zoomCurve?_eq_ok_iff : ∀ (e : Expr N) {found : Option (ZoomCurve N)},
    e.zoomCurve? = .ok found ↔ e.zoomCurves = found.toList
  | .curve key type interpolation input stops, found => by
    unfold zoomCurve? zoomCurves
    split <;> cases found <;> simp
  | .letIn _ _ result, _ => zoomCurve?_eq_ok_iff result
  | .coalesce _ _ args, found => by
    have h : zoomCurveIn? none args = .ok found ↔ _ := zoomCurveIn?_eq_ok_iff args
    exact h
  | .literal .., found | .var .., found | .conditional .., found | .matching .., found
  | .arrayOf .., found | .apply .., found => by
    unfold zoomCurve? zoomCurves
    cases found <;> simp

theorem zoomCurveIn?_eq_ok_iff : ∀ (args : List (Expr N)) {before found : Option (ZoomCurve N)},
    zoomCurveIn? before args = .ok found ↔ before.toList ++ zoomCurvesIn args = found.toList
  | [], before, found => by
    unfold zoomCurveIn? zoomCurvesIn
    cases before <;> cases found <;> simp
  | arg :: rest, before, found => by
    unfold zoomCurveIn? zoomCurvesIn
    have harg {own} : arg.zoomCurve? = .ok own ↔ _ := zoomCurve?_eq_ok_iff arg
    cases hfound : arg.zoomCurve? with
    | error problem =>
      -- An argument in which the search fails reaches two curves by itself.
      refine ⟨nofun, fun h => ?_⟩
      have hlength := congrArg List.length h
      have hmax : found.toList.length ≤ 1 := by cases found <;> simp
      obtain ⟨own, hown⟩ := exists_eq_toList (l := arg.zoomCurves) (by simp at hlength; omega)
      rw [harg.mpr hown] at hfound
      cases hfound
    | ok own =>
      rw [harg.mp hfound]
      cases own with
      | none => exact zoomCurveIn?_eq_ok_iff rest
      | some curve =>
        cases before with
        | none => exact zoomCurveIn?_eq_ok_iff rest
        | some first =>
          refine ⟨nofun, fun h => ?_⟩
          have hlength := congrArg List.length h
          cases found <;> simp at hlength

end

/-- An item behind the first stays behind the first of a longer list. -/
theorem mem_tail_append {α : Type} {a : α} {items : List α} (before after : List α)
    (h : a ∈ items.tail) : a ∈ (before ++ (items ++ after)).tail := by
  have hafter : a ∈ (items ++ after).tail := by
    cases items with
    | nil => cases h
    | cons first rest => exact List.mem_append_left after h
  cases before with
  | nil => exact hafter
  | cons first rest => exact List.mem_append_right rest (List.mem_of_mem_tail hafter)

mutual

/-- A search that fails has reached a curve after another, and names it. -/
theorem exists_later_of_zoomCurve?_eq_error : ∀ (e : Expr N) {problem : ZoomError},
    e.zoomCurve? = .error problem →
      ∃ later ∈ e.zoomCurves.tail, problem = .severalCurves later.key
  | .letIn _ _ result, _, h => exists_later_of_zoomCurve?_eq_error result h
  | .coalesce _ _ args, _, h => exists_later_of_zoomCurveIn?_eq_error args none h
  | .curve .., _, h | .literal .., _, h | .var .., _, h | .conditional .., _, h
  | .matching .., _, h | .arrayOf .., _, h | .apply .., _, h => by
    unfold zoomCurve? at h
    cases h

theorem exists_later_of_zoomCurveIn?_eq_error : ∀ (args : List (Expr N))
    (before : Option (ZoomCurve N)) {problem : ZoomError},
    zoomCurveIn? before args = .error problem →
      ∃ later ∈ (before.toList ++ zoomCurvesIn args).tail, problem = .severalCurves later.key
  | [], _, _, h => by
    unfold zoomCurveIn? at h
    cases h
  | arg :: rest, before, problem, h => by
    unfold zoomCurveIn? at h
    unfold zoomCurvesIn
    cases hfound : arg.zoomCurve? with
    | error own =>
      rw [hfound] at h
      cases h
      obtain ⟨later, hlater, hkey⟩ := exists_later_of_zoomCurve?_eq_error arg hfound
      exact ⟨later, mem_tail_append _ _ hlater, hkey⟩
    | ok own =>
      rw [hfound] at h
      rw [(zoomCurve?_eq_ok_iff arg).mp hfound]
      cases own with
      | none => exact exists_later_of_zoomCurveIn?_eq_error rest before h
      | some curve =>
        cases before with
        | none => exact exists_later_of_zoomCurveIn?_eq_error rest (some curve) h
        | some first =>
          cases h
          exact ⟨curve, List.mem_cons_self, rfl⟩

end

/-- The search finds no curve where none is reached and the curve where one is reached. Where more
are reached it fails, and the key of its error is that of a curve other than the first. -/
theorem zoomCurve?_unique (e : Expr N) :
    (e.zoomCurve? = .ok none ↔ e.zoomCurves = []) ∧
    (∀ curve, e.zoomCurve? = .ok (some curve) ↔ e.zoomCurves = [curve]) ∧
    (1 < e.zoomCurves.length ↔
      ∃ later ∈ e.zoomCurves.tail, e.zoomCurve? = .error (.severalCurves later.key)) := by
  refine ⟨zoomCurve?_eq_ok_iff e, fun curve => zoomCurve?_eq_ok_iff e, fun hlength => ?_, ?_⟩
  · cases hfound : e.zoomCurve? with
    | ok found =>
      rw [(zoomCurve?_eq_ok_iff e).mp hfound] at hlength
      cases found with
      | none => exact absurd hlength (Nat.not_lt_zero 1)
      | some curve => exact absurd hlength (Nat.lt_irrefl 1)
    | error problem =>
      obtain ⟨later, hlater, rfl⟩ := exists_later_of_zoomCurve?_eq_error e hfound
      exact ⟨later, hlater, rfl⟩
  · rintro ⟨later, hlater, -⟩
    have htail := List.length_pos_of_mem hlater
    rw [List.length_tail] at htail
    exact Nat.lt_of_sub_pos htail

mutual

/-- The curves are nodes of the tree, and the zoom is their input. -/
theorem exists_node_of_mem_zoomCurves : ∀ (e : Expr N) {curve : ZoomCurve N},
    curve ∈ e.zoomCurves → ∃ input, input.isZoom = true ∧
      .curve curve.key curve.type curve.interpolation input curve.stops ∈ e.nodes
  | .curve key type interpolation input stops, c, h => by
    unfold zoomCurves at h
    split at h
    next hinput =>
      obtain rfl := List.mem_singleton.mp h
      exact ⟨input, hinput, mem_nodes.mpr (.inl rfl)⟩
    next => cases h
  | .letIn key bindings result, c, h => by
    obtain ⟨input, hinput, hmem⟩ := exists_node_of_mem_zoomCurves result h
    have hresult : result ∈ (letIn key bindings result).children :=
      List.mem_append_right _ (List.mem_singleton.mpr rfl)
    exact ⟨input, hinput, mem_nodes.mpr (.inr ⟨result, hresult, hmem⟩)⟩
  | .coalesce key type args, c, h => by
    obtain ⟨arg, harg, input, hinput, hmem⟩ := exists_node_of_mem_zoomCurvesIn args h
    exact ⟨input, hinput, mem_nodes.mpr (.inr ⟨arg, harg, hmem⟩)⟩

theorem exists_node_of_mem_zoomCurvesIn : ∀ (args : List (Expr N)) {curve : ZoomCurve N},
    curve ∈ zoomCurvesIn args → ∃ arg ∈ args, ∃ input, input.isZoom = true ∧
      .curve curve.key curve.type curve.interpolation input curve.stops ∈ arg.nodes
  | arg :: rest, c, h => by
    rcases List.mem_append.mp h with hfirst | hrest
    · exact ⟨arg, List.mem_cons_self, exists_node_of_mem_zoomCurves arg hfirst⟩
    · obtain ⟨later, hlater, hnode⟩ := exists_node_of_mem_zoomCurvesIn rest hrest
      exact ⟨later, List.mem_cons_of_mem _ hlater, hnode⟩

end

end Expr

/-! ## Style functions -/

namespace StyleFunction

open Parse

variable [Scalar N] {spec : PropertySpec N} {raw : Json N} {f : StyleFunction N}

/-- A style function is built from the raw expression of the style value, if this parses against the
type of the property and passes the search. -/
theorem ofJson_eq_ok_iff : ofJson spec raw = .ok f ↔ ∃ written e, source spec raw = .ok written ∧
    Expr.parse written (some spec.expectedType) = .ok e ∧ ofExpr e = .ok f := by
  unfold ofJson
  constructor
  · intro h
    split at h
    · cases h
    next written hwritten =>
      split at h
      · cases h
      next e he =>
        split at h
        · cases h
        next hf =>
          cases h
          exact ⟨written, e, hwritten, he, hf⟩
  · rintro ⟨written, e, hwritten, he, hf⟩
    rw [hwritten]
    dsimp only
    rw [he]
    dsimp only
    rw [hf]

omit [Scalar N] in
theorem ofExpr_eq_ok_iff {e : Expr N} : ofExpr e = .ok f ↔ f.expression = e ∧
    ((e.isZoomConstant = true ∧ f.zoomCurve = none) ∨
      e.isZoomConstant = false ∧ ∃ curve, f.zoomCurve = some curve ∧ e.zoomCurves = [curve]) := by
  unfold ofExpr
  cases hconstant : e.isZoomConstant with
  | true =>
    rw [if_pos rfl]
    constructor
    · intro h
      cases h
      exact ⟨rfl, .inl ⟨rfl, rfl⟩⟩
    · rintro ⟨rfl, ⟨-, hf⟩ | ⟨hne, -⟩⟩
      · cases f
        cases hf
        rfl
      · cases hne
  | false =>
    rw [if_neg Bool.false_ne_true]
    constructor
    · intro h
      split at h
      next curve hcurve =>
        cases h
        exact ⟨rfl, .inr ⟨rfl, curve, rfl, (Expr.zoomCurve?_eq_ok_iff e).mp hcurve⟩⟩
      next => cases h
      next => cases h
    · rintro ⟨rfl, ⟨hne, -⟩ | ⟨-, curve, hf, hcurve⟩⟩
      · cases hne
      · have hfound : f.expression.zoomCurve? = .ok (some curve) :=
          (Expr.zoomCurve?_eq_ok_iff _).mpr hcurve
        rw [hfound]
        cases f
        cases hf
        rfl

/-- An expression of the type of a property makes a style function with its zoom curve. -/
theorem ofJson_eq_of_source {written : Json N} {e default : Expr N} {curve : ZoomCurve N}
    (hsource : source spec raw = .ok (.call "coalesce" [written, spec.defaultExpression]))
    (htype : spec.expectedType ≠ .value)
    (he : Spells ⟨[1], some spec.expectedType, []⟩ written e)
    (hdefault : Spells ⟨[2], some spec.expectedType, []⟩ spec.defaultExpression default)
    (hzoom : e.isZoomConstant = false) (hcurves : e.zoomCurves = [curve])
    (hnone : default.zoomCurves = []) :
    ofJson spec raw = .ok ⟨.coalesce [] spec.expectedType [e, default], some curve⟩ := by
  have hcoalesce : Spells (.root (some spec.expectedType))
      (.call "coalesce" [written, spec.defaultExpression])
      (.coalesce [] spec.expectedType [e, default]) :=
    .coalesce_of_expected rfl htype (List.cons_ne_nil _ _) rfl
      (forall_getElem?_cons.mpr ⟨he, forall_getElem?_cons.mpr ⟨hdefault, nofun⟩⟩)
  have hdepends : (Expr.coalesce [] spec.expectedType [e, default]).isZoomConstant = false := by
    rw [Expr.isZoomConstant, Bool.not_eq_false', Expr.dependsOn, List.any_eq_true] at hzoom ⊢
    obtain ⟨d, hd, hread⟩ := hzoom
    exact ⟨d, Expr.mem_nodes.mpr (.inr ⟨e, List.mem_cons_self, hd⟩), hread⟩
  refine ofJson_eq_ok_iff.mpr ⟨_, _, hsource, Expr.parse_eq_ok_iff.mpr hcoalesce,
    ofExpr_eq_ok_iff.mpr ⟨rfl, .inr ⟨hdepends, curve, rfl, ?_⟩⟩⟩
  show e.zoomCurves ++ (default.zoomCurves ++ []) = [curve]
  rw [hcurves, hnone]
  rfl

/-- A style function that depends on the zoom has a zoom curve, and this is the only curve over the
zoom that is reached through the results of `let` and the arguments of `coalesce`. The zoom operator
is its input. -/
theorem zoomCurve_of_ofJson (h : ofJson spec raw = .ok f)
    (hzoom : f.expression.isZoomConstant = false) :
    ∃ curve, f.zoomCurve = some curve ∧ f.expression.zoomCurves = [curve] ∧
      ∃ input, input.isZoom = true ∧
        .curve curve.key curve.type curve.interpolation input curve.stops ∈
          f.expression.nodes := by
  obtain ⟨written, e, -, -, he⟩ := ofJson_eq_ok_iff.mp h
  obtain ⟨rfl, ⟨hconstant, -⟩ | ⟨-, curve, hcurve, hunique⟩⟩ := ofExpr_eq_ok_iff.mp he
  · rw [hzoom] at hconstant
    cases hconstant
  · refine ⟨curve, hcurve, hunique, Expr.exists_node_of_mem_zoomCurves f.expression ?_⟩
    rw [hunique]
    exact List.mem_singleton.mpr rfl

/-- A curve over the zoom whose first output is bound by a `let`. -/
def widening : Json Float :=
  .call "let" [.string "w", .integer 2,
    .call "curve" [.call "linear" [], .call "zoom" [], .integer 0,
      .call "var" [.string "w"], .integer 10, .integer 4]]

theorem zoomCurve_of_ofJson_let :
    ∃ f : StyleFunction Float, ofJson ⟨.number, some (.integer 0), none, none, none⟩
        (.object [("expression", .call "let" [.string "w", .integer 2,
          .call "curve" [.call "linear" [], .call "zoom" [], .integer 0,
            .call "var" [.string "w"], .integer 10, .integer 4]])]) = .ok f ∧
      f.expression.isZoomConstant = false ∧
      ∃ curve, f.zoomCurve = some curve ∧ f.expression.zoomCurves = [curve] ∧
        ∃ input, input.isZoom = true ∧
          .curve curve.key curve.type curve.interpolation input curve.stops ∈
            f.expression.nodes := by
  have haccepts {key : Path} {types : List (String × Ty)} :
      Context.Accepts ⟨key, some .number, types⟩ .number := Context.accepts_expected rfl
  have hcurve : Spells (N := Float) ⟨[1, 3], some .number, [("w", .number)]⟩
      (.call "curve" [.call "linear" [], .call "zoom" [], .integer 0, .call "var" [.string "w"],
        .integer 10, .integer 4])
      (.curve [1, 3] .number .linear (.apply [1, 3, 2] .number .zoom [])
        [(Scalar.ofInt 0, .var [1, 3, 4] .number "w"),
          (Scalar.ofInt 10, .literal [1, 3, 6] .number (.number (Scalar.ofInt 4)))]) :=
    .curveOverZoom rfl rfl rfl rfl (.var rfl haccepts) (.bare rfl rfl rfl haccepts) rfl
      (.inr nofun) haccepts
  have hlet : Spells (N := Float) ⟨[1], some .number, []⟩
      (.call "let" (alternate [(.string "w", .integer 2)] ++ [_]))
      (.letIn [1] [("w", .literal [1, 2] .number (.number (Scalar.ofInt 2)))] _) :=
    .letIn (List.cons_ne_nil _ _) rfl (forall_getElem?_cons.mpr ⟨⟨rfl, by decide⟩, nofun⟩)
      (forall_getElem?_cons.mpr ⟨.bare rfl rfl rfl nofun, nofun⟩) hcurve
  have hf : ofJson ⟨.number, some (.integer 0), none, none, none⟩
      (.object [("expression", widening)]) = .ok _ :=
    ofJson_eq_of_source rfl nofun hlet (.bare rfl rfl rfl haccepts) rfl rfl rfl
  exact ⟨_, hf, rfl, zoomCurve_of_ofJson hf rfl⟩

/-- The zoom may be read elsewhere too: an argument of `coalesce` that is no curve is passed over. -/
theorem exists_two_zooms :
    ∃ f : StyleFunction Float, ofJson ⟨.number, some (.integer 0), none, none, none⟩
        (.object [("expression", .call "coalesce" [
          .call "curve" [.call "linear" [], .call "zoom" [], .integer 0, .integer 1,
            .integer 10, .integer 2],
          .call "zoom" []])]) = .ok f ∧
      f.expression.isZoomConstant = false ∧
      (f.expression.nodes.filter (·.isZoom)).length = 2 := by
  have haccepts {key : Path} : Context.Accepts ⟨key, some .number, []⟩ .number :=
    Context.accepts_expected rfl
  have hcurve : Spells (N := Float) ⟨[1, 1], some .number, []⟩
      (.call "curve" [.call "linear" [], .call "zoom" [], .integer 0, .integer 1, .integer 10,
        .integer 2])
      (.curve [1, 1] .number .linear (.apply [1, 1, 2] .number .zoom [])
        [(Scalar.ofInt 0, .literal [1, 1, 4] .number (.number (Scalar.ofInt 1))),
          (Scalar.ofInt 10, .literal [1, 1, 6] .number (.number (Scalar.ofInt 2)))]) :=
    .curveOverZoom rfl rfl rfl rfl (.bare rfl rfl rfl haccepts) (.bare rfl rfl rfl haccepts) rfl
      (.inr nofun) haccepts
  have hzoom : Spells (N := Float) ⟨[1, 2], some .number, []⟩ (.call "zoom" [])
      (.apply [1, 2] .number .zoom []) := .nullary .zoom rfl haccepts
  have hcoalesce : Spells (N := Float) ⟨[1], some .number, []⟩
      (.call "coalesce" [_, _]) (.coalesce [1] .number [_, _]) :=
    .coalesce_of_expected (t := .number) rfl nofun (List.cons_ne_nil _ _) rfl
      (forall_getElem?_cons.mpr ⟨hcurve, forall_getElem?_cons.mpr ⟨hzoom, nofun⟩⟩)
  exact ⟨_, ofJson_eq_of_source rfl nofun hcoalesce (.bare rfl rfl rfl haccepts) rfl rfl rfl, rfl,
    rfl⟩

end StyleFunction

end MapStyle
