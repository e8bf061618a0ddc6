import MapStyle.Proofs.Expr.Typing

/-!
# Nodes of a tree

`Expr.nodes` lists a tree by its shape. `nodes_eq` says it in one equation for all kinds of nodes, and
`induction_on_children` is the induction that goes with it. `mem_nodes_iff` identifies the list with
the relation `Occurs`, which also keeps track of the variables in scope.
-/

namespace MapStyle.Expr

variable {N : Type}

/-! ## Induction -/

theorem sizeOf_lt_of_mem_children [SizeOf N] {e d : Expr N} (h : d ∈ e.children) :
    sizeOf d < sizeOf e := by
  cases e with
  | literal | var => cases h
  | letIn key bindings result =>
    rcases List.mem_append.mp h with hbinding | hlast
    · obtain ⟨⟨name, value⟩, hb, rfl⟩ := List.mem_map.mp hbinding
      have := List.sizeOf_lt_of_mem hb
      simp only [Prod.mk.sizeOf_spec, letIn.sizeOf_spec] at *
      omega
    · obtain rfl := List.mem_singleton.mp hlast
      simp only [letIn.sizeOf_spec]
      omega
  | coalesce key type args =>
    have := List.sizeOf_lt_of_mem h
    simp only [coalesce.sizeOf_spec, children] at *
    omega
  | conditional key type branches otherwise =>
    rcases List.mem_append.mp h with hbranch | hlast
    · obtain ⟨⟨test, output⟩, hb, hd⟩ := List.mem_flatMap.mp hbranch
      have := List.sizeOf_lt_of_mem hb
      simp only [Prod.mk.sizeOf_spec, conditional.sizeOf_spec] at *
      rcases List.mem_pair.mp hd with rfl | rfl <;> omega
    · obtain rfl := List.mem_singleton.mp hlast
      simp only [conditional.sizeOf_spec]
      omega
  | matching key type input branches otherwise =>
    rcases List.mem_append.mp h with hfront | hlast
    · rcases List.mem_cons.mp hfront with rfl | hbranch
      · simp only [matching.sizeOf_spec]
        omega
      · obtain ⟨⟨labels, output⟩, hb, rfl⟩ := List.mem_map.mp hbranch
        have := List.sizeOf_lt_of_mem hb
        simp only [Prod.mk.sizeOf_spec, matching.sizeOf_spec] at *
        omega
    · obtain rfl := List.mem_singleton.mp hlast
      simp only [matching.sizeOf_spec]
      omega
  | curve key type interpolation input stops =>
    rcases List.mem_cons.mp h with rfl | hstop
    · simp only [curve.sizeOf_spec]
      omega
    · obtain ⟨⟨x, output⟩, hs, rfl⟩ := List.mem_map.mp hstop
      have := List.sizeOf_lt_of_mem hs
      simp only [Prod.mk.sizeOf_spec, curve.sizeOf_spec] at *
      omega
  | arrayOf key item length input =>
    obtain rfl := List.mem_singleton.mp h
    simp only [arrayOf.sizeOf_spec]
    omega
  | apply key type op args =>
    have := List.sizeOf_lt_of_mem h
    simp only [apply.sizeOf_spec, children] at *
    omega

/-- What holds of a node when it holds of all nodes right below it holds of all trees. -/
@[elab_as_elim]
theorem induction_on_children {P : Expr N → Prop} (h : ∀ e, (∀ d ∈ e.children, P d) → P e)
    (e : Expr N) : P e :=
  h e fun d _hd => induction_on_children h d
termination_by sizeOf e
decreasing_by exact sizeOf_lt_of_mem_children _hd

/-! ## The list of nodes -/

theorem argNodes_eq (args : List (Expr N)) : argNodes args = args.flatMap nodes :=
  eq_flatMap_of_cons rfl (fun _ _ => rfl) args

theorem bindingNodes_eq (bindings : List (String × Expr N)) :
    bindingNodes bindings = (bindings.map (·.2)).flatMap nodes :=
  (eq_flatMap_of_cons rfl (fun _ _ => rfl) bindings).trans (List.flatMap_map ..).symm

theorem branchNodes_eq (branches : List (Expr N × Expr N)) :
    branchNodes branches = (branches.flatMap fun b => [b.1, b.2]).flatMap nodes := by
  induction branches with
  | nil => rfl
  | cons b rest ih =>
    rw [branchNodes, ih, List.flatMap_cons, List.flatMap_append]
    simp

theorem labelledNodes_eq (branches : List (List (Label N) × Expr N)) :
    labelledNodes branches = (branches.map (·.2)).flatMap nodes :=
  (eq_flatMap_of_cons rfl (fun _ _ => rfl) branches).trans (List.flatMap_map ..).symm

theorem stopNodes_eq (stops : List (N × Expr N)) :
    stopNodes stops = (stops.map (·.2)).flatMap nodes :=
  (eq_flatMap_of_cons rfl (fun _ _ => rfl) stops).trans (List.flatMap_map ..).symm

/-- A node stands first, and the nodes below each of its children follow in order. -/
theorem nodes_eq (e : Expr N) : e.nodes = e :: e.children.flatMap nodes := by
  cases e with
  | literal | var => rfl
  | letIn => simp [nodes, children, bindingNodes_eq]
  | coalesce | apply => simp [nodes, children, argNodes_eq]
  | conditional => simp [nodes, children, branchNodes_eq]
  | matching => simp [nodes, children, labelledNodes_eq]
  | curve => simp [nodes, children, stopNodes_eq]
  | arrayOf => simp [nodes, children]

theorem mem_nodes {e d : Expr N} : d ∈ e.nodes ↔ d = e ∨ ∃ child ∈ e.children, d ∈ child.nodes := by
  rw [nodes_eq, List.mem_cons, List.mem_flatMap]

/-! ## Nodes with their scope -/

theorem Occurs.mem_nodes {scope inner : Scope} {e d : Expr N} (h : Occurs scope e inner d) :
    d ∈ e.nodes := by
  induction h with
  | self => exact Expr.mem_nodes.mpr (.inl rfl)
  | @step scope e child inner d hchild _ ih =>
    refine Expr.mem_nodes.mpr (.inr ⟨child.2, ?_, ih⟩)
    rw [← map_snd_scopedChildren scope]
    exact List.mem_map_of_mem hchild

/-- Every node of a tree occurs in it, with some variables in scope. -/
theorem mem_nodes_iff {scope : Scope} {e d : Expr N} :
    d ∈ e.nodes ↔ ∃ inner, Occurs scope e inner d := by
  refine ⟨fun h => ?_, fun ⟨_, h⟩ => h.mem_nodes⟩
  induction e using induction_on_children generalizing scope with
  | h e ih =>
    rcases mem_nodes.mp h with rfl | ⟨child, hchild, hd⟩
    · exact ⟨scope, .self⟩
    · have hmem := hchild
      rw [← map_snd_scopedChildren scope] at hmem
      obtain ⟨⟨below, child⟩, hscoped, rfl⟩ := List.mem_map.mp hmem
      have hoccurs : ∃ inner, Occurs below child inner d := ih child hchild hd
      obtain ⟨inner, hinner⟩ := hoccurs
      exact ⟨inner, .step hscoped hinner⟩

end MapStyle.Expr
