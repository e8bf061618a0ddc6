import MapStyle.Proofs.Expr.Evaluation

/-!
# Outcomes of nodes

The forms that choose what to evaluate are written over any monad. Run in an environment, a choice
among evaluations is the same choice among the outcomes that they have there (`coalesce_inEnv` and its
like). So the outcome of a node is a function of the outcomes of its children, told by one equation
for each kind of node (`Expr.eval_coalesce` and its like). `Expr.eval_mapChildren` says for all kinds
but variables and `let` that outcomes stay the same where those of the children do.
-/

namespace MapStyle

variable {N : Type} (env : Env N)

/-! ## Choices in an environment -/

/-- What evaluations give in an environment. -/
def outcomes (evals : List (Eval N (Value N))) : List (Outcome N (Value N)) := evals.map (· env)

theorem outcomes_map {α : Type} (f : α → Eval N (Value N)) (parts : List α) :
    outcomes env (parts.map f) = parts.map fun part => f part env :=
  List.map_map

theorem coalesce_inEnv : ∀ args : List (Eval N (Value N)),
    coalesce args env = coalesce (outcomes env args)
  | [] => rfl
  | [_] => rfl
  | first :: second :: rest => by
    rw [coalesce_cons_cons, coalesce_inEnv (second :: rest)]
    show _ = ((first env).tryCatch fun _ => .ok .null).bind _
    cases first env with
    | error failure => rfl
    | ok v => rfl

theorem firstTrue_inEnv (branches : List (Eval N (Value N) × Eval N (Value N)))
    (otherwise : Eval N (Value N)) : firstTrue branches otherwise env =
      firstTrue (branches.map fun b => (b.1 env, b.2 env)) (otherwise env) := by
  induction branches with
  | nil => rfl
  | cons b rest ih =>
    show (b.1 env).bind _ = (b.1 env).bind _
    refine congrArg (b.1 env).bind (funext fun v => ?_)
    cases v with
    | boolean holds => cases holds with
      | true => rfl
      | false => exact ih
    | _ => rfl

theorem byLabel_inEnv [Scalar N] (v : Value N)
    (branches : List (List (Label N) × Eval N (Value N))) (otherwise : Eval N (Value N)) :
    byLabel v branches otherwise env =
      byLabel v (branches.map fun b => (b.1, b.2 env)) (otherwise env) := by
  induction branches with
  | nil => rfl
  | cons b rest ih =>
    rw [List.map_cons, byLabel, byLabel]
    split
    · rfl
    · exact ih

namespace Curve

theorem output_inEnv (outputs : List (Eval N (Value N))) (index : Nat) :
    output outputs index env = output (outcomes env outputs) index := by
  unfold output outcomes
  rw [List.getElem?_map]
  cases outputs[index]? <;> rfl

theorem evaluate_inEnv [Scalar N] (interpolation : Interpolation N) (kind : OutputKind)
    (stops : List N) (outputs : List (Eval N (Value N))) (input : Value N) :
    evaluate interpolation kind stops outputs input env =
      evaluate interpolation kind stops (outcomes env outputs) input := by
  cases input with
  | number x =>
    unfold evaluate
    dsimp only
    rw [outcomes, List.length_map, ← outcomes]
    split
    · rfl
    · cases select interpolation stops x with
      | only index => exact output_inEnv env outputs index
      | between index factor =>
        dsimp only
        rw [← output_inEnv, ← output_inEnv]
        show (output outputs _ env).bind _ = (output outputs _ env).bind _
        refine congrArg (Except.bind _) (funext fun lower => ?_)
        show (output outputs _ env).bind _ = (output outputs _ env).bind _
        refine congrArg (Except.bind _) (funext fun upper => ?_)
        beta_reduce
        cases blend kind lower upper factor <;> rfl
  | _ => rfl

end Curve

namespace Operator

theorem report_inEnv {α : Type} (o : Outcome N α) : (report o : Eval N α) env = o := by
  cases o <;> rfl

theorem report_outcome {α : Type} (o : Outcome N α) : (report o : Outcome N α) = o := by
  cases o <;> rfl

theorem stopAt_inEnv (stop : Bool) (operands : List (Eval N (Value N))) :
    stopAt stop operands env = stopAt stop (outcomes env operands) := by
  induction operands with
  | nil => rfl
  | cons operand rest ih =>
    show (operand env).bind _ = (operand env).bind _
    refine congrArg (Except.bind _) (funext fun v => ?_)
    cases v with
    | boolean b =>
      show (if b == stop then pure stop else stopAt stop rest : Eval N Bool) env =
        if b == stop then pure stop else stopAt stop (outcomes env rest)
      split
      · rfl
      · exact ih
    | _ => rfl

theorem evalAll_inEnv (operands : List (Eval N (Value N))) :
    evalAll operands env = evalAll (outcomes env operands) := by
  induction operands with
  | nil => rfl
  | cons operand rest ih =>
    show (operand env).bind _ = (operand env).bind _
    refine congrArg (Except.bind _) (funext fun v => ?_)
    show (evalAll rest env).bind _ = (evalAll (outcomes env rest)).bind _
    rw [ih]
    rfl

theorem run_inEnv [Scalar N] (op : Operator) (operands : List (Eval N (Value N))) :
    op.run env operands env = op.run env (outcomes env operands) := by
  cases hlazy : op.isLazy with
  | false =>
    rw [run_eq_apply hlazy, run_eq_apply hlazy]
    show (evalAll operands env).bind _ = _
    rw [evalAll_inEnv]
    refine congrArg (Except.bind _) (funext fun vs => ?_)
    exact (report_inEnv env _).trans (report_outcome _).symm
  | true =>
    obtain ⟨stop, rfl⟩ := exists_shortCircuit hlazy
    rw [run_shortCircuit, run_shortCircuit]
    show (stopAt stop operands env).bind _ = (stopAt stop (outcomes env operands)).bind _
    rw [stopAt_inEnv]
    rfl

/-- An operator reads from the environment no more than its dependency names. -/
theorem apply_congr [Scalar N] (op : Operator) {env env' : Env N}
    (hzoom : op.dependency = .zoom → env'.zoom = env.zoom)
    (hfeature : op.dependency = .feature → env'.feature = env.feature) (operands : List (Value N)) :
    op.apply env' operands = op.apply env operands := by
  cases op with
  | get | has | properties | geometryType | id => simp only [apply, hfeature rfl]
  | zoom => simp only [apply, Env.readZoom, hzoom rfl]
  | _ => rfl

theorem run_congr [Scalar N] (op : Operator) {env env' : Env N}
    (hzoom : op.dependency = .zoom → env'.zoom = env.zoom)
    (hfeature : op.dependency = .feature → env'.feature = env.feature)
    (operands : List (Outcome N (Value N))) : op.run env' operands = op.run env operands := by
  cases op with
  | and | or => rfl
  | _ =>
    show (evalAll operands).bind _ = (evalAll operands).bind _
    refine congrArg (Except.bind _) (funext fun vs => ?_)
    exact congrArg report (apply_congr _ hzoom hfeature vs)

end Operator

/-! ## Nodes -/

namespace Expr

variable [Scalar N] {key : Path} {type : Ty} {input otherwise result : Expr N}

theorem eval_letIn (bindings : List (String × Expr N)) : (letIn key bindings result).eval env =
    (evalBindings bindings env).bind fun bound => result.eval (env.bind bound) := rfl

theorem eval_coalesce (args : List (Expr N)) : (coalesce key type args).eval env =
    MapStyle.coalesce (args.map fun a => (a.eval env : Outcome N (Value N))) := by
  show MapStyle.coalesce (evalArgs args) env = _
  rw [coalesce_inEnv, evalArgs_eq_map, outcomes_map]

theorem eval_conditional (branches : List (Expr N × Expr N)) :
    (conditional key type branches otherwise).eval env =
      firstTrue (branches.map fun b => (b.1.eval env, b.2.eval env)) (otherwise.eval env) := by
  show firstTrue (evalBranches branches) otherwise.eval env = _
  rw [firstTrue_inEnv, evalBranches_eq_map, List.map_map]
  rfl

theorem eval_matching (branches : List (List (Label N) × Expr N)) :
    (matching key type input branches otherwise).eval env = (input.eval env).bind fun v =>
      byLabel v (branches.map fun b => (b.1, b.2.eval env)) (otherwise.eval env) := by
  show (input.eval env).bind (fun v => byLabel v (evalLabelled branches) otherwise.eval env) = _
  refine congrArg (Except.bind _) (funext fun v => ?_)
  rw [byLabel_inEnv, evalLabelled_eq_map, List.map_map]
  rfl

theorem eval_curve (kind : Interpolation N) (stops : List (N × Expr N)) :
    (curve key type kind input stops).eval env = (input.eval env).bind fun v =>
      Curve.evaluate kind (.ofType type) (stops.map (·.1)) (stops.map (·.2.eval env)) v := by
  show (input.eval env).bind (fun v =>
    Curve.evaluate kind (.ofType type) (stops.map (·.1)) (evalStops stops) v env) = _
  refine congrArg (Except.bind _) (funext fun v => ?_)
  rw [Curve.evaluate_inEnv, evalStops_eq_map, outcomes_map]

theorem eval_arrayOf (item : Ty) (length : Option Nat) :
    (arrayOf key item length input).eval env =
      (input.eval env).bind fun v => v.assertType (.array item length) none := by
  show (input.eval env).bind (fun v =>
    (Operator.report (v.assertType (.array item length) none) : Eval N (Value N)) env) = _
  refine congrArg (Except.bind _) (funext fun v => ?_)
  rw [Operator.report_inEnv]

theorem eval_apply (op : Operator) (args : List (Expr N)) : (apply key type op args).eval env =
    op.run env (args.map fun a => (a.eval env : Outcome N (Value N))) := by
  show op.run env (evalArgs args) env = _
  rw [Operator.run_inEnv, evalArgs_eq_map, outcomes_map]

/-- Bindings have the same values where they bind the same names to expressions with the same
outcomes. -/
theorem evalBindings_congr {env env' : Env N} {bindings bindings' : List (String × Expr N)}
    (h : List.Forall₂ (fun b b' => b'.1 = b.1 ∧ b'.2.eval env' = b.2.eval env) bindings bindings') :
    evalBindings bindings' env' = evalBindings bindings env := by
  induction h with
  | nil => rfl
  | @cons b b' rest rest' hb _ ih =>
    obtain ⟨hname, hvalue⟩ := hb
    show (b'.2.eval env').bind _ = (b.2.eval env).bind _
    rw [hvalue]
    refine congrArg (Except.bind _) (funext fun v => ?_)
    show (evalBindings rest' env').bind _ = (evalBindings rest env).bind _
    rw [ih, hname]
    rfl

/-- All bindings have values: each its own. -/
theorem evalBindings_eq_ok_iff {env : Env N} {bindings : List (String × Expr N)}
    {bound : List (String × Value N)} : evalBindings bindings env = .ok bound ↔
      List.Forall₂ (fun b v => v.1 = b.1 ∧ b.2.eval env = .ok v.2) bindings bound := by
  induction bindings generalizing bound with
  | nil =>
    rw [List.forall₂_nil_left_iff]
    exact ⟨fun h => (Except.ok.inj h).symm, fun h => congrArg Except.ok h.symm⟩
  | cons b rest ih =>
    rw [List.forall₂_cons_left_iff]
    show (b.2.eval env).bind (fun v => (evalBindings rest env).bind fun others =>
      .ok ((b.1, v) :: others)) = _ ↔ _
    constructor
    · intro h
      obtain ⟨v, hv, h⟩ := Outcome.bind_eq_ok h
      obtain ⟨others, hothers, h⟩ := Outcome.bind_eq_ok h
      exact ⟨_, others, ⟨rfl, hv⟩, ih.mp hothers, (Except.ok.inj h).symm⟩
    · rintro ⟨v, others, ⟨hname, hv⟩, hothers, rfl⟩
      rw [hv, ih.mpr hothers, ← hname]
      rfl

/-- Of bindings that fail the first decides. -/
theorem evalBindings_eq_error {env : Env N} {before after : List (String × Expr N)}
    {b : String × Expr N} (hbefore : ∀ b ∈ before, ∃ v, b.2.eval env = .ok v) {failure : Failure N}
    (h : b.2.eval env = .error failure) :
    evalBindings (before ++ b :: after) env = .error failure := by
  induction before with
  | nil =>
    show (b.2.eval env).bind _ = _
    rw [h]
    rfl
  | cons earlier rest ih =>
    obtain ⟨⟨v, hv⟩, hrest⟩ := List.forall_mem_cons.mp hbefore
    show (earlier.2.eval env).bind (fun v =>
      (evalBindings (rest ++ b :: after) env).bind fun others => .ok ((earlier.1, v) :: others)) = _
    rw [hv, ih hrest]
    rfl

/-! ### Nodes with other children -/

/-- Whether a node reads the variables in scope or adds to them. -/
def usesScope : Expr N → Bool
  | .var .. | .letIn .. => true
  | _ => false

/-- The node with other nodes right below it. -/
def mapChildren (f : Expr N → Expr N) : Expr N → Expr N
  | .literal key type value => .literal key type value
  | .var key type name => .var key type name
  | .letIn key bindings result => .letIn key (bindings.map fun b => (b.1, f b.2)) (f result)
  | .coalesce key type args => .coalesce key type (args.map f)
  | .conditional key type branches otherwise =>
    .conditional key type (branches.map fun b => (f b.1, f b.2)) (f otherwise)
  | .matching key type input branches otherwise =>
    .matching key type (f input) (branches.map fun b => (b.1, f b.2)) (f otherwise)
  | .curve key type kind input stops =>
    .curve key type kind (f input) (stops.map fun s => (s.1, f s.2))
  | .arrayOf key item length input => .arrayOf key item length (f input)
  | .apply key type op args => .apply key type op (args.map f)

omit [Scalar N] in
theorem mapChildren_id (e : Expr N) : e.mapChildren id = e := by
  cases e <;> simp [mapChildren]

/-- The outcome of a node that does not use the scope comes from what it reads and from the outcomes
of its children. -/
theorem eval_mapChildren {env env' : Env N} {f : Expr N → Expr N} {e : Expr N}
    (hnode : e.usesScope = false) (hzoom : e.dependency = .zoom → env'.zoom = env.zoom)
    (hfeature : e.dependency = .feature → env'.feature = env.feature)
    (h : ∀ c ∈ e.children, (f c).eval env' = c.eval env) :
    (e.mapChildren f).eval env' = e.eval env := by
  cases e with
  | literal => rfl
  | var | letIn => cases hnode
  | coalesce key type args =>
    rw [mapChildren, eval_coalesce, eval_coalesce, List.map_map]
    exact congrArg MapStyle.coalesce (List.map_congr_left h)
  | conditional key type branches otherwise =>
    have hbranch : ∀ b ∈ branches, ((f b.1).eval env', (f b.2).eval env') =
        (b.1.eval env, b.2.eval env) := fun b hb => by
      rw [h b.1 (List.mem_append_left _ (List.mem_flatMap.mpr ⟨b, hb, by simp⟩)),
        h b.2 (List.mem_append_left _ (List.mem_flatMap.mpr ⟨b, hb, by simp⟩))]
    rw [mapChildren, eval_conditional, eval_conditional, List.map_map,
      h otherwise (List.mem_append_right _ (List.mem_singleton.mpr rfl))]
    exact congrArg (firstTrue · _) (List.map_congr_left hbranch)
  | matching key type input branches otherwise =>
    have hbranch : ∀ b ∈ branches, (b.1, (f b.2).eval env') = (b.1, b.2.eval env) := fun b hb => by
      rw [h b.2 (List.mem_append_left _ (List.mem_cons_of_mem _ (List.mem_map_of_mem hb)))]
    rw [mapChildren, eval_matching, eval_matching, List.map_map, h input (by simp [children]),
      h otherwise (by simp [children])]
    refine congrArg (Except.bind _) (funext fun v => ?_)
    exact congrArg (byLabel v · _) (List.map_congr_left hbranch)
  | curve key type kind input stops =>
    have hstop : ∀ s ∈ stops, (f s.2).eval env' = s.2.eval env := fun s hs =>
      h s.2 (List.mem_cons_of_mem _ (List.mem_map_of_mem hs))
    rw [mapChildren, eval_curve, eval_curve, List.map_map, List.map_map,
      h input (by simp [children])]
    refine congrArg (Except.bind _) (funext fun v => ?_)
    exact congrArg (Curve.evaluate _ _ _ · v) (List.map_congr_left hstop)
  | arrayOf key item length input =>
    rw [mapChildren, eval_arrayOf, eval_arrayOf, h input (List.mem_singleton.mpr rfl)]
  | apply key type op args =>
    rw [mapChildren, eval_apply, eval_apply, op.run_congr hzoom hfeature, List.map_map]
    exact congrArg (op.run env) (List.map_congr_left h)

/-! ### Operators with few operands -/

section

variable {env} {op : Operator} (hstrict : op.isLazy = false)

include hstrict

theorem eval_nullary : (apply key type op []).eval env = op.apply env [] := by
  rw [eval_apply, Operator.run_eq_apply hstrict]
  exact Operator.report_outcome _

theorem eval_unary (e : Expr N) : (apply key type op [e]).eval env =
    (e.eval env).bind fun v => op.apply env [v] := by
  rw [eval_apply, Operator.run_eq_apply hstrict, List.map_singleton]
  cases e.eval env with
  | error failure => rfl
  | ok v => exact Operator.report_outcome _

theorem eval_binary (e e' : Expr N) : (apply key type op [e, e']).eval env =
    (e.eval env).bind fun v => (e'.eval env).bind fun w => op.apply env [v, w] := by
  rw [eval_apply, Operator.run_eq_apply hstrict, List.map_cons, List.map_singleton]
  cases e.eval env with
  | error failure => rfl
  | ok v =>
    cases e'.eval env with
    | error failure => rfl
    | ok w => exact Operator.report_outcome _

end

end Expr

end MapStyle
