import MapStyle.Parse.Literal
import MapStyle.Proofs.Expr.Nodes
import MapStyle.Proofs.Expr.Outcomes

/-!
# Wider types of outputs

`Expr.outputs` are the parts that a node can take its value from, such as the arguments of `coalesce`.
`Expr.widen t e` is the tree `e` in which the outputs, their outputs and so on have the type `t`. It
has the same outcomes (`Expr.eval_widen`) where `t` lies above the type of `e`, unless it takes from a
curve the type that it blends by: this an array of any items does.
-/

namespace MapStyle

variable {N : Type}

/-- Whether a type is that of arrays of any items, of some length or of all lengths. -/
def Ty.IsLooseArray (t : Ty) : Prop := ∃ length, t = .array .value length

namespace Curve

/-- The kinds of outputs that can be blended are those of types that have none above them but
`value` and arrays of any items. -/
theorem OutputKind.ofType_of_le {a t : Ty} (ha : ofType a ≠ .discrete) (hle : a ≤ t)
    (hvalue : t ≠ .value) (hloose : ¬t.IsLooseArray) : ofType t = ofType a := by
  cases a with
  | number | color =>
    cases t with
    | number | color => first | rfl | cases hle
    | value => exact absurd rfl hvalue
    | _ => cases hle
  | array item length =>
    cases item with
    | number =>
      cases t with
      | value => exact absurd rfl hvalue
      | array item' length' =>
        obtain ⟨-, hitem⟩ := Ty.array_le_array.mp hle
        cases item' with
        | number => rfl
        | value => exact absurd ⟨length', rfl⟩ hloose
        | _ => cases hitem
      | _ => cases hle
    | _ => exact absurd rfl ha
  | _ => exact absurd rfl ha

/-- A step curve does not blend, so the kind of its outputs does not matter. -/
theorem evaluate_step [Scalar N] (kind kind' : OutputKind) (stops : List N)
    (outputs : List (Outcome N (Value N))) (input : Value N) :
    evaluate .step kind stops outputs input = evaluate .step kind' stops outputs input := by
  cases input with
  | number x =>
    unfold evaluate
    dsimp only
    split
    · rfl
    · cases hselect : select .step stops x with
      | only index => rfl
      | between index factor => cases (lt_of_select_between hselect).2
  | _ => rfl

end Curve

namespace Expr

/-! ## Outputs -/

/-- The parts that an expression can take its value from, but for those of a curve all as they
are. -/
def outputs : Expr N → List (Expr N)
  | .letIn _ _ result => [result]
  | .coalesce _ _ args => args
  | .conditional _ _ branches otherwise => branches.map (·.2) ++ [otherwise]
  | .matching _ _ _ branches otherwise => branches.map (·.2) ++ [otherwise]
  | .curve _ _ _ _ stops => stops.map (·.2)
  | _ => []

theorem outputs_subset_children (e : Expr N) : e.outputs ⊆ e.children := by
  intro d hd
  cases e with
  | letIn key bindings result => exact List.mem_append_right _ hd
  | coalesce key type args => exact hd
  | conditional key type branches otherwise =>
    rcases List.mem_append.mp hd with hbranch | hlast
    · obtain ⟨b, hb, rfl⟩ := List.mem_map.mp hbranch
      exact List.mem_append_left _ (List.mem_flatMap.mpr ⟨b, hb, by simp⟩)
    · exact List.mem_append_right _ hlast
  | matching key type input branches otherwise => exact List.mem_cons_of_mem _ hd
  | curve key type kind input stops => exact List.mem_cons_of_mem _ hd
  | literal | var | arrayOf | apply => cases hd

/-- Whether an expression is a curve that interpolates, or has one among its outputs, their outputs
and so on. -/
inductive Interpolates : Expr N → Prop
  | curve {key type kind input stops} (hkind : kind.isStep = false) :
      Interpolates (.curve key type kind input stops)
  | output {e d} (hd : d ∈ e.outputs) (h : Interpolates d) : Interpolates e

theorem WellTyped.output [Scalar N] {scope : Scope} {e d : Expr N} (h : WellTyped scope e)
    (hd : d ∈ e.outputs) : d.type ≤ e.type ∧ ∃ inner, WellTyped inner d := by
  obtain ⟨here, hchildren⟩ := h
  constructor
  · cases e with
    | letIn key bindings result =>
      obtain rfl := List.mem_singleton.mp hd
      exact Ty.le_refl _
    | coalesce key type args => exact here.2 d hd
    | conditional key type branches otherwise =>
      rcases List.mem_append.mp hd with hbranch | hlast
      · obtain ⟨b, hb, rfl⟩ := List.mem_map.mp hbranch
        exact (here.1 b hb).2
      · obtain rfl := List.mem_singleton.mp hlast
        exact here.2
    | matching key type input branches otherwise =>
      rcases List.mem_append.mp hd with hbranch | hlast
      · obtain ⟨b, hb, rfl⟩ := List.mem_map.mp hbranch
        exact here.1 b hb
      · obtain rfl := List.mem_singleton.mp hlast
        exact here.2
    | curve key type kind input stops =>
      obtain ⟨s, hs, rfl⟩ := List.mem_map.mp hd
      exact here.2.2.1 s hs
    | literal | var | arrayOf | apply => cases hd
  · have hmem := outputs_subset_children e hd
    rw [← map_snd_scopedChildren scope] at hmem
    obtain ⟨child, hchild, rfl⟩ := List.mem_map.mp hmem
    exact ⟨_, hchildren child hchild⟩

/-- Whether an expression can stand where the type is asked for. -/
structure Suits (t : Ty) (e : Expr N) : Prop where
  le : e.type ≤ t
  blends : t.IsLooseArray → ¬e.Interpolates

theorem Suits.output [Scalar N] {t : Ty} {scope : Scope} {e d : Expr N} (h : Suits t e)
    (htyped : WellTyped scope e) (hd : d ∈ e.outputs) : Suits t d where
  le := Ty.le_trans (htyped.output hd).1 h.le
  blends ht hi := h.blends ht (.output hd hi)

/-! ## Widening -/

mutual

/-- The tree in which outputs have the type `t`. -/
def widen (t : Ty) : Expr N → Expr N
  | .literal key _ value => .literal key (Parse.literalType value (some t)) value
  | .letIn key bindings result => .letIn key bindings (widen t result)
  | .coalesce key _ args => .coalesce key t (widenArgs t args)
  | .conditional key _ branches otherwise =>
    .conditional key t (widenBranches t branches) (widen t otherwise)
  | .matching key _ input branches otherwise =>
    .matching key t input (widenLabelled t branches) (widen t otherwise)
  | .curve key _ kind input stops => .curve key t kind input (widenStops t stops)
  | e => e

def widenArgs (t : Ty) : List (Expr N) → List (Expr N)
  | [] => []
  | arg :: rest => widen t arg :: widenArgs t rest

def widenBranches (t : Ty) : List (Expr N × Expr N) → List (Expr N × Expr N)
  | [] => []
  | (test, output) :: rest => (test, widen t output) :: widenBranches t rest

def widenLabelled (t : Ty) : List (List (Label N) × Expr N) → List (List (Label N) × Expr N)
  | [] => []
  | (labels, output) :: rest => (labels, widen t output) :: widenLabelled t rest

def widenStops (t : Ty) : List (N × Expr N) → List (N × Expr N)
  | [] => []
  | (x, output) :: rest => (x, widen t output) :: widenStops t rest

end

variable {t : Ty}

theorem widenArgs_eq_map (args : List (Expr N)) : widenArgs t args = args.map (widen t) :=
  eq_map_of_cons rfl (fun _ _ => rfl) args

theorem widenBranches_eq_map (branches : List (Expr N × Expr N)) :
    widenBranches t branches = branches.map fun b => (b.1, b.2.widen t) :=
  eq_map_of_cons rfl (fun _ _ => rfl) branches

theorem widenLabelled_eq_map (branches : List (List (Label N) × Expr N)) :
    widenLabelled t branches = branches.map fun b => (b.1, b.2.widen t) :=
  eq_map_of_cons rfl (fun _ _ => rfl) branches

theorem widenStops_eq_map (stops : List (N × Expr N)) :
    widenStops t stops = stops.map fun s => (s.1, s.2.widen t) :=
  eq_map_of_cons rfl (fun _ _ => rfl) stops

variable [Scalar N]

/-- The types of outputs do not matter for the outcome, as long as a curve blends them as before. -/
theorem eval_widen {scope : Scope} {e : Expr N} (htyped : WellTyped scope e) (hsuits : Suits t e)
    (ht : t ≠ .value) : (e.widen t).eval = e.eval := by
  induction e using induction_on_children generalizing scope with
  | h e ih =>
    have houtput : ∀ d ∈ e.outputs, (d.widen t).eval = d.eval := fun d hd =>
      have ⟨_, hd'⟩ := (htyped.output hd).2
      ih d (outputs_subset_children e hd) hd' (hsuits.output htyped hd)
    funext env
    cases e with
    | literal | var | arrayOf | apply => rfl
    | letIn key bindings result =>
      rw [widen, eval_letIn, eval_letIn, houtput result (List.mem_singleton.mpr rfl)]
    | coalesce key type args =>
      rw [widen, eval_coalesce, eval_coalesce, widenArgs_eq_map, List.map_map]
      refine congrArg MapStyle.coalesce (List.map_congr_left fun a ha => ?_)
      exact congrFun (houtput a ha) env
    | conditional key type branches otherwise =>
      rw [widen, eval_conditional, eval_conditional, widenBranches_eq_map, List.map_map,
        houtput otherwise (List.mem_append_right _ (List.mem_singleton.mpr rfl))]
      refine congrArg (firstTrue · _) (List.map_congr_left fun b hb => ?_)
      have hb := houtput b.2 (List.mem_append_left _ (List.mem_map_of_mem hb))
      exact congrArg (_, ·) (congrFun hb env)
    | matching key type input branches otherwise =>
      rw [widen, eval_matching, eval_matching, widenLabelled_eq_map, List.map_map,
        houtput otherwise (List.mem_append_right _ (List.mem_singleton.mpr rfl))]
      refine congrArg (Except.bind _) (funext fun v => ?_)
      refine congrArg (byLabel v · _) (List.map_congr_left fun b hb => ?_)
      have hb := houtput b.2 (List.mem_append_left _ (List.mem_map_of_mem hb))
      exact congrArg (_, ·) (congrFun hb env)
    | curve key type kind input stops =>
      have hstops : (stops.map fun s => (s.2.widen t).eval env) = stops.map (·.2.eval env) :=
        List.map_congr_left fun s hs => congrFun (houtput s.2 (List.mem_map_of_mem hs)) env
      obtain ⟨⟨-, -, -, hblend⟩, -⟩ := htyped
      rw [widen, eval_curve, eval_curve, widenStops_eq_map, List.map_map, List.map_map]
      refine congrArg (Except.bind _) (funext fun v => ?_)
      refine (congrArg (Curve.evaluate kind (.ofType t) _ · v) hstops).trans ?_
      cases hkind : kind.isStep with
      | true =>
        cases kind with
        | step => exact Curve.evaluate_step ..
        | _ => cases hkind
      | false =>
        have hne := hblend.resolve_left (by rw [hkind]; exact Bool.false_ne_true)
        rw [Curve.OutputKind.ofType_of_le hne hsuits.le ht fun hloose =>
          hsuits.blends hloose (.curve hkind)]
        rfl

end Expr

end MapStyle
