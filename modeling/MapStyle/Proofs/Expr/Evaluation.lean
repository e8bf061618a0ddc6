import MapStyle.Proofs.Expr.Typing

/-!
# Evaluating well-typed expressions

`WellTyped.eval_yields`: in every environment that fits its scope, a well-typed expression has a value
of its type or fails because of the data. The forms that choose what to evaluate keep a type that all
their parts have.
-/

namespace MapStyle

variable {N : Type} {env : Env N} {t : Ty}

/-! ## Choices -/

/-- All but the last argument count only if they have a value that is not null. -/
theorem coalesce_cons_cons (first second : Eval N (Value N)) (rest : List (Eval N (Value N)))
    (env : Env N) :
    coalesce (first :: second :: rest) env = match first env with
      | .ok v => if v.isNull then coalesce (second :: rest) env else .ok v
      | .error _ => coalesce (second :: rest) env := by
  rw [coalesce]
  show ((first env).tryCatch fun _ => .ok .null).bind
    (fun v => (if v.isNull then coalesce (second :: rest) else pure v : Eval N (Value N)) env) = _
  cases first env with
  | error failure => rfl
  | ok v =>
    show (if v.isNull then coalesce (second :: rest) else pure v : Eval N (Value N)) env =
      if v.isNull then coalesce (second :: rest) env else .ok v
    cases v.isNull <;> rfl

theorem coalesce_yields {args : List (Eval N (Value N))} (hne : args ≠ [])
    (h : ∀ a ∈ args, Yields (fun v => v.Belongs t) (a env)) :
    Yields (fun v => v.Belongs t) (coalesce args env) := by
  induction args with
  | nil => exact absurd rfl hne
  | cons first rest ih =>
    rw [List.forall_mem_cons] at h
    cases rest with
    | nil => exact h.1
    | cons second rest =>
      have hrest := ih (List.cons_ne_nil _ _) h.2
      rw [coalesce_cons_cons]
      cases hfirst : first env with
      | error failure => exact hrest
      | ok v =>
        dsimp only
        split
        · exact hrest
        · exact h.1.of_ok hfirst

theorem firstTrue_yields {branches : List (Eval N (Value N) × Eval N (Value N))}
    {otherwise : Eval N (Value N)}
    (htest : ∀ b ∈ branches, Yields (fun v => v.Belongs .boolean) (b.1 env))
    (houtput : ∀ b ∈ branches, Yields (fun v => v.Belongs t) (b.2 env))
    (hotherwise : Yields (fun v => v.Belongs t) (otherwise env)) :
    Yields (fun v => v.Belongs t) (firstTrue branches otherwise env) := by
  induction branches with
  | nil => exact hotherwise
  | cons b rest ih =>
    obtain ⟨test, output⟩ := b
    rw [List.forall_mem_cons] at htest houtput
    refine Yields.bind_eval htest.1 fun v hv => ?_
    obtain ⟨b, rfl⟩ := hv
    cases b with
    | true => exact houtput.1
    | false => exact ih htest.2 houtput.2

theorem byLabel_yields [Scalar N] (v : Value N)
    {branches : List (List (Label N) × Eval N (Value N))} {otherwise : Eval N (Value N)}
    (houtput : ∀ b ∈ branches, Yields (fun v => v.Belongs t) (b.2 env))
    (hotherwise : Yields (fun v => v.Belongs t) (otherwise env)) :
    Yields (fun v => v.Belongs t) (byLabel v branches otherwise env) := by
  induction branches with
  | nil => exact hotherwise
  | cons b rest ih =>
    rw [List.forall_mem_cons] at houtput
    unfold byLabel
    split
    · exact houtput.1
    · exact ih houtput.2

namespace Expr

variable [Scalar N]

/-! ## Evaluations of parts -/

theorem evalArgs_eq_map (args : List (Expr N)) : evalArgs args = args.map eval :=
  eq_map_of_cons rfl (fun _ _ => rfl) args

theorem evalBranches_eq_map (branches : List (Expr N × Expr N)) :
    evalBranches branches = branches.map fun b => (eval b.1, eval b.2) :=
  eq_map_of_cons rfl (fun _ _ => rfl) branches

theorem evalLabelled_eq_map (branches : List (List (Label N) × Expr N)) :
    evalLabelled branches = branches.map fun b => (b.1, eval b.2) :=
  eq_map_of_cons rfl (fun _ _ => rfl) branches

theorem evalStops_eq_map (stops : List (N × Expr N)) :
    evalStops stops = stops.map fun s => eval s.2 :=
  eq_map_of_cons rfl (fun _ _ => rfl) stops

/-- Bindings yield values of the types recorded for their names. -/
theorem evalBindings_yields {bindings : List (String × Expr N)}
    (h : ∀ b ∈ bindings, Yields (fun v => v.Belongs b.2.type) (b.2.eval env)) :
    Yields (fun bound => Bound bound (boundTypes bindings)) (evalBindings bindings env) := by
  induction bindings with
  | nil => exact .nil
  | cons b rest ih =>
    rw [List.forall_mem_cons] at h
    refine Yields.bind_eval h.1 fun v hv => ?_
    exact Yields.bind_eval (ih h.2) fun bound hbound => .cons ⟨rfl, hv⟩ hbound

/-! ## Expressions -/

/-- The type of an expression bounds its values, and its failures come from the data. -/
theorem WellTyped.eval_yields {scope : Scope} {e : Expr N} (h : WellTyped scope e)
    (henv : env.Fits scope) : Yields (fun v => v.Belongs e.type) (e.eval env) := by
  induction h generalizing env with
  | @node scope e here _ ih =>
    cases e with
    | literal key type value => exact here
    | var key type name =>
      obtain ⟨v, hlookup, hv⟩ := henv name type here
      show Yields _ (env.lookup name)
      unfold Env.lookup
      rw [hlookup]
      exact hv
    | letIn key bindings result =>
      have hbindings : ∀ b ∈ bindings, Yields (fun v => v.Belongs b.2.type) (b.2.eval env) :=
        fun b hb => ih (scope, b.2)
          (List.mem_append_left _ (List.mem_map_of_mem (f := fun b => (scope, b.2)) hb)) henv
      refine Yields.bind_eval (evalBindings_yields hbindings) fun bound hbound => ?_
      exact ih _ (List.mem_append_right _ (List.mem_singleton.mpr rfl)) (henv.bind hbound)
    | coalesce key type args =>
      show Yields _ (MapStyle.coalesce (evalArgs args) env)
      rw [evalArgs_eq_map]
      refine coalesce_yields (by simpa using here.1) ?_
      intro o ho
      obtain ⟨a, ha, rfl⟩ := List.mem_map.mp ho
      exact (ih (scope, a) (List.mem_map_of_mem ha) henv).mono fun _ hv => hv.mono (here.2 a ha)
    | conditional key type branches otherwise =>
      have hchild : ∀ d ∈ (Expr.conditional key type branches otherwise).children,
          Yields (fun v => v.Belongs d.type) (d.eval env) :=
        fun d hd => ih (scope, d) (List.mem_map_of_mem hd) henv
      have hbranch : ∀ b ∈ branches, Yields (fun v => v.Belongs b.1.type) (b.1.eval env) ∧
          Yields (fun v => v.Belongs b.2.type) (b.2.eval env) := fun b hb =>
        ⟨hchild b.1 (List.mem_append_left _ (List.mem_flatMap.mpr ⟨b, hb, by simp⟩)),
          hchild b.2 (List.mem_append_left _ (List.mem_flatMap.mpr ⟨b, hb, by simp⟩))⟩
      show Yields _ (firstTrue (evalBranches branches) (eval otherwise) env)
      rw [evalBranches_eq_map]
      refine firstTrue_yields ?_ ?_ ?_
      · intro o ho
        obtain ⟨b, hb, rfl⟩ := List.mem_map.mp ho
        exact (hbranch b hb).1.mono fun _ hv => hv.mono (here.1 b hb).1
      · intro o ho
        obtain ⟨b, hb, rfl⟩ := List.mem_map.mp ho
        exact (hbranch b hb).2.mono fun _ hv => hv.mono (here.1 b hb).2
      · exact (hchild otherwise (List.mem_append_right _ (List.mem_singleton.mpr rfl))).mono
          fun _ hv => hv.mono here.2
    | matching key type input branches otherwise =>
      have hchild : ∀ d ∈ (Expr.matching key type input branches otherwise).children,
          Yields (fun v => v.Belongs d.type) (d.eval env) :=
        fun d hd => ih (scope, d) (List.mem_map_of_mem hd) henv
      refine Yields.bind_eval (hchild input (by simp [children])) fun v _ => ?_
      rw [evalLabelled_eq_map]
      refine byLabel_yields v ?_ ?_
      · intro o ho
        obtain ⟨b, hb, rfl⟩ := List.mem_map.mp ho
        refine (hchild b.2 ?_).mono fun _ hv => hv.mono (here.1 b hb)
        exact List.mem_append_left _ (List.mem_cons_of_mem _ (List.mem_map_of_mem hb))
      · exact (hchild otherwise (by simp [children])).mono fun _ hv => hv.mono here.2
    | curve key type interpolation input stops =>
      have hchild : ∀ d ∈ (Expr.curve key type interpolation input stops).children,
          Yields (fun v => v.Belongs d.type) (d.eval env) :=
        fun d hd => ih (scope, d) (List.mem_map_of_mem hd) henv
      obtain ⟨hinput, hstops, houtput, hkind⟩ := here
      refine Yields.bind_eval (hchild input (by simp [children])) fun v hv => ?_
      rw [evalStops_eq_map]
      refine Curve.evaluate_yields hkind (by simpa using hstops) (by simp) ?_ (hv.mono hinput)
      intro o ho
      obtain ⟨s, hs, rfl⟩ := List.mem_map.mp ho
      refine (hchild s.2 ?_).mono fun _ hv => hv.mono (houtput s hs)
      exact List.mem_cons_of_mem _ (List.mem_map_of_mem hs)
    | arrayOf key item length input =>
      have hinput := ih (scope, input) (List.mem_singleton.mpr rfl) henv
      refine Yields.bind_eval hinput fun v _ => ?_
      exact Operator.report_yields ((v.assertType_yields _).mono fun _ hw => hw.2)
    | apply key type op args =>
      show Yields _ (op.run env (evalArgs args) env)
      rw [evalArgs_eq_map]
      refine Operator.run_yields op here ?_
      rw [List.forall₂_map_left_iff, List.forall₂_map_right_iff, List.forall₂_same]
      exact fun a ha => ih (scope, a) (List.mem_map_of_mem ha) henv

end Expr

end MapStyle
