import MapStyle.Expr.Eval
import MapStyle.Proofs.Curve.Blending
import MapStyle.Proofs.Operator.Soundness

/-!
# Typing of checked expressions

`WellTyped scope e` says that every node of `e` has the type that its kind asks for, given the types
of its children and of the variables in `scope`.

* `Env.Fits`: the variables of an environment have values of the types recorded for them.
* `Expr.Occurs`: the nodes of a tree, each with the variables that it sees.
-/

namespace MapStyle

variable {N : Type}

/-- The types of the variables in scope, innermost first. -/
abbrev Scope := List (String × Ty)

/-! ## Environments -/

/-- Whether every variable of a scope has a value of the type recorded for it. -/
def Env.Fits (env : Env N) (scope : Scope) : Prop :=
  ∀ name type, scope.lookup name = some type →
    ∃ v, env.scope.lookup name = some v ∧ v.Belongs type

theorem Env.fits_nil (env : Env N) : env.Fits [] := fun _ _ h => by cases h

/-- Whether values are bound to the names of a scope, each of its type. -/
def Bound (bindings : List (String × Value N)) (scope : Scope) : Prop :=
  List.Forall₂ (fun b t => b.1 = t.1 ∧ b.2.Belongs t.2) bindings scope

theorem Bound.fits {bindings : List (String × Value N)} {inner : Scope} (h : Bound bindings inner)
    {env : Env N} {scope : Scope} (henv : env.Fits scope) :
    Env.Fits { env with scope := bindings ++ env.scope } (inner ++ scope) := by
  induction h with
  | nil => exact henv
  | @cons b t bindings inner hbt hrest ih =>
    intro name type hlookup
    obtain ⟨bname, v⟩ := b
    obtain ⟨tname, vtype⟩ := t
    obtain ⟨rfl, hv⟩ := hbt
    simp only [List.cons_append, List.lookup_cons] at hlookup ⊢
    split at hlookup
    · obtain rfl := Option.some.inj hlookup
      exact ⟨v, rfl, hv⟩
    · exact ih name type hlookup

/-- Binding values of the types recorded for them keeps the environment fitting. -/
theorem Env.Fits.bind {env : Env N} {scope inner : Scope} (henv : env.Fits scope)
    {bindings : List (String × Value N)} (h : Bound bindings inner) :
    (env.bind bindings).Fits (inner.reverse ++ scope) :=
  Bound.fits (List.forall₂_reverse_iff.mpr h) henv

namespace Expr

/-! ## Nodes and what they see -/

/-- The variables that a `let` adds, innermost first. -/
def boundTypes (bindings : List (String × Expr N)) : Scope :=
  bindings.map fun b => (b.1, b.2.type)

/-- The nodes right below a node, each with the variables that it sees. -/
def scopedChildren (scope : Scope) : Expr N → List (Scope × Expr N)
  | .letIn _ bindings result =>
    bindings.map (fun b => (scope, b.2)) ++ [((boundTypes bindings).reverse ++ scope, result)]
  | e => e.children.map (scope, ·)

theorem map_snd_scopedChildren (scope : Scope) (e : Expr N) :
    (e.scopedChildren scope).map Prod.snd = e.children := by
  cases e <;> simp [scopedChildren, children, Function.comp_def]

/-- `Occurs scope e inner d`: in `e`, whose variables are those of `scope`, stands the node `d`, whose
variables are those of `inner`. -/
inductive Occurs : Scope → Expr N → Scope → Expr N → Prop
  | self {scope e} : Occurs scope e scope e
  | step {scope e child inner d} (hchild : child ∈ e.scopedChildren scope)
      (h : Occurs child.1 child.2 inner d) : Occurs scope e inner d

/-! ## Typing -/

/-- What the kind of a node asks of its type, given the types of its children and variables. -/
def LocallyTyped (scope : Scope) : Expr N → Prop
  | .literal _ type value => value.Belongs type
  | .var _ type name => scope.lookup name = some type
  | .letIn .. => True
  | .coalesce _ type args => args ≠ [] ∧ ∀ a ∈ args, a.type ≤ type
  | .conditional _ type branches otherwise =>
    (∀ b ∈ branches, b.1.type ≤ .boolean ∧ b.2.type ≤ type) ∧ otherwise.type ≤ type
  | .matching _ type _ branches otherwise =>
    (∀ b ∈ branches, b.2.type ≤ type) ∧ otherwise.type ≤ type
  | .curve _ type interpolation input stops =>
    input.type ≤ .number ∧ stops ≠ [] ∧ (∀ s ∈ stops, s.2.type ≤ type) ∧
      (interpolation.isStep = true ∨ Curve.OutputKind.ofType type ≠ .discrete)
  | .arrayOf .. => True
  | .apply _ type op args => op.signature.resolve? (args.map Expr.type) = some type

/-- Whether every node of an expression is typed as its kind asks. -/
inductive WellTyped : Scope → Expr N → Prop
  | node {scope e} (here : e.LocallyTyped scope)
      (children : ∀ child ∈ e.scopedChildren scope, WellTyped child.1 child.2) : WellTyped scope e

theorem WellTyped.of_occurs {scope inner : Scope} {e d : Expr N} (h : WellTyped scope e)
    (hd : Occurs scope e inner d) : WellTyped inner d := by
  induction hd with
  | self => exact h
  | step hchild _ ih =>
    cases h with
    | node _ hchildren => exact ih (hchildren _ hchild)

end Expr

end MapStyle
