import MapStyle.Binary64.Scalar
import MapStyle.Parse.Expr
import MapStyle.Proofs.Expr.Mapping
import MapStyle.Proofs.Expr.Nodes
import MapStyle.Proofs.Expr.Outcomes

/-!
# Constant expressions

A tree none of whose nodes reads the feature has one outcome for all features, and one that does not
read the zoom has one outcome for all zooms (`Expr.eval_eq_of_isConstant`): where the value is the
same, so is the failure. Both are cases of a statement about two environments that agree but for one
thing that the tree does not read (`Expr.eval_eq_of_agreeBut`).
-/

namespace MapStyle

variable {N : Type} {d : Dependency} {env env' : Env N}

/-- Environments that agree but for what a dependency names. -/
structure Env.AgreeBut (d : Dependency) (env env' : Env N) : Prop where
  scope : env.scope = env'.scope
  zoom : d ≠ .zoom → env.zoom = env'.zoom
  feature : d ≠ .feature → env.feature = env'.feature

/-- The same variables may come into scope. -/
theorem Env.AgreeBut.bind (h : env.AgreeBut d env') (bindings : List (String × Value N)) :
    (env.bind bindings).AgreeBut d (env'.bind bindings) where
  scope := congrArg (bindings.reverse ++ ·) h.scope
  zoom := h.zoom
  feature := h.feature

theorem Env.AgreeBut.lookup (h : env.AgreeBut d env') (name : String) :
    env.lookup name = env'.lookup name := by
  unfold Env.lookup
  rw [h.scope]

namespace Expr

theorem dependsOn_eq (e : Expr N) (d : Dependency) :
    e.dependsOn d = (e.dependency == d || e.children.any (·.dependsOn d)) := by
  unfold dependsOn
  rw [nodes_eq, List.any_cons, List.any_flatMap]

theorem dependsOn_eq_false_iff {e : Expr N} :
    e.dependsOn d = false ↔ e.dependency ≠ d ∧ ∀ c ∈ e.children, c.dependsOn d = false := by
  rw [dependsOn_eq, Bool.or_eq_false_iff, List.any_eq_false, beq_eq_false_iff_ne]
  simp only [Bool.not_eq_true]

/-- What a tree reads does not change with the parts of its nodes. -/
theorem dependsOn_mapParts (f : PartMap N) (e : Expr N) (d : Dependency) :
    (e.mapParts f).dependsOn d = e.dependsOn d := by
  induction e using induction_on_children with
  | h e ih =>
    have hdependency : (e.mapParts f).dependency = e.dependency := by cases e <;> rfl
    have hchildren : (e.children.map fun c => (c.mapParts f).dependsOn d) =
        e.children.map fun c => c.dependsOn d := List.map_congr_left ih
    rw [dependsOn_eq, dependsOn_eq, hdependency, children_mapParts, List.any_map]
    have hany := congrArg (List.any · id) hchildren
    rw [List.any_map, List.any_map] at hany
    exact congrArg (_ || ·) hany

variable [Scalar N] {e : Expr N}

/-- Bindings have the same values where each bound expression does. -/
theorem evalBindings_eq {bindings : List (String × Expr N)}
    (h : ∀ b ∈ bindings, b.2.eval env = b.2.eval env') :
    evalBindings bindings env = evalBindings bindings env' :=
  evalBindings_congr (List.forall₂_same.mpr fun b hb => ⟨rfl, h b hb⟩)

/-- A tree has the same outcome in environments that agree but for what it does not read. -/
theorem eval_eq_of_agreeBut (h : e.dependsOn d = false) (henv : env.AgreeBut d env') :
    e.eval env = e.eval env' := by
  induction e using induction_on_children generalizing env env' with
  | h e ih =>
    obtain ⟨hnode, hchildren⟩ := dependsOn_eq_false_iff.mp h
    have hchild : ∀ c ∈ e.children, c.eval env = c.eval env' :=
      fun c hc => ih c hc (hchildren c hc) henv
    have hother : e.usesScope = false → e.eval env = e.eval env' := by
      intro hscope
      have heval := eval_mapChildren (f := id) hscope
        (fun h => henv.zoom fun hd => hnode (h.trans hd.symm))
        (fun h => henv.feature fun hd => hnode (h.trans hd.symm)) hchild
      rwa [mapChildren_id] at heval
    cases e with
    | var key type name => exact henv.lookup name
    | letIn key bindings result =>
      rw [eval_letIn, eval_letIn, evalBindings_eq fun b hb =>
        hchild b.2 (List.mem_append_left _ (List.mem_map_of_mem hb))]
      -- The result is evaluated where the variables are bound.
      have hresult : result ∈ (letIn key bindings result).children :=
        List.mem_append_right _ (List.mem_singleton.mpr rfl)
      refine congrArg (Except.bind _) (funext fun bound => ?_)
      exact ih result hresult (hchildren result hresult) (henv.bind bound)
    | _ => exact hother rfl

/-- The flags of constancy are sound: an expression whose tree does not read the feature has one
outcome for all features, and one whose tree does not read the zoom has one for all zooms, the absent
one included. -/
theorem eval_eq_of_isConstant (e : Expr N) (scope : List (String × Value N)) :
    (e.isFeatureConstant = true → ∀ (zoom : Option N) (feature feature' : Feature N),
      e.eval ⟨zoom, feature, scope⟩ = e.eval ⟨zoom, feature', scope⟩) ∧
    (e.isZoomConstant = true → ∀ (feature : Feature N) (zoom zoom' : Option N),
      e.eval ⟨zoom, feature, scope⟩ = e.eval ⟨zoom', feature, scope⟩) := by
  refine ⟨fun h zoom feature feature' => ?_, fun h feature zoom zoom' => ?_⟩
  · refine eval_eq_of_agreeBut (d := .feature) ((Bool.not_eq_true' _).mp h) ?_
    exact ⟨rfl, fun _ => rfl, fun hne => absurd rfl hne⟩
  · refine eval_eq_of_agreeBut (d := .zoom) ((Bool.not_eq_true' _).mp h) ?_
    exact ⟨rfl, fun hne => absurd rfl hne, fun _ => rfl⟩

theorem eval_eq_of_isConstant_let :
    ∃ shown named : Expr Float, parse (.call "to-string" [.call "zoom" []]) none = .ok shown ∧
      parse (.call "let" [.string "a", .call "get" [.string "x"], .call "var" [.string "a"]])
        none = .ok named ∧
      (∀ zoom feature feature',
        shown.eval ⟨zoom, feature, []⟩ = shown.eval ⟨zoom, feature', []⟩) ∧
      ∀ feature zoom zoom', named.eval ⟨zoom, feature, []⟩ = named.eval ⟨zoom', feature, []⟩ := by
  have hshown : parse (.call "to-string" [.call "zoom" []] : Json Float) none =
      .ok (.apply [] .string .toText [.apply [1] .number .zoom []]) := rfl
  have hnamed : parse (.call "let" [.string "a", .call "get" [.string "x"],
      .call "var" [.string "a"]] : Json Float) none =
      .ok (.letIn [] [("a", .apply [2] .value .get [.literal [2, 1] .string (.string "x")])]
        (.var [3] .value "a")) := rfl
  refine ⟨_, _, hshown, hnamed, ?_, ?_⟩
  · exact (eval_eq_of_isConstant _ []).1 rfl
  · exact (eval_eq_of_isConstant _ []).2 rfl

end Expr

end MapStyle
