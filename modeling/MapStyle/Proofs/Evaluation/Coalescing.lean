import MapStyle.Proofs.Evaluation.Answer
import MapStyle.Proofs.Evaluation.Trace
import MapStyle.Proofs.Expr.Outcomes
import MapStyle.Proofs.Lists

/-!
# Nested choices

A choice among arguments falls back from each of them to the choice among the rest: `fallback x y` is
`x`, or `y` where `x` fails or is null. Falling back is associative, failures and effects included
(`fallback_assoc`), so a choice may be written out in place of an argument of another one
(`coalesce_append_coalesce_append`). `coalesce_nested` says so of the outcome in an environment and of
the arguments that are evaluated for it.
-/

namespace MapStyle

variable {N : Type}

/-! ## Falling back -/

section

variable {m : Type → Type} [Monad m] [MonadExceptOf (Failure N) m]

/-- The value of an evaluation; that of another one where it fails or is null. -/
def fallback (x y : m (Value N)) : m (Value N) := do
  let v ← tryCatchThe (Failure N) x fun _ => pure .null
  if v.isNull then y else pure v

theorem coalesce_cons (first : m (Value N)) {rest : List (m (Value N))} (h : rest ≠ []) :
    coalesce (first :: rest) = fallback first (coalesce rest) := by
  obtain ⟨second, others, rfl⟩ := List.exists_cons_of_ne_nil h
  rfl

/-- Where falling back is associative, a choice may be written out among the arguments of another. -/
theorem coalesce_append_coalesce_append
    (hassoc : ∀ x y z : m (Value N), fallback (fallback x y) z = fallback x (fallback y z))
    (before : List (m (Value N))) {inner : List (m (Value N))} (after : List (m (Value N)))
    (hinner : inner ≠ []) :
    coalesce (before ++ [coalesce inner] ++ after) = coalesce (before ++ inner ++ after) := by
  induction before with
  | cons first rest ih =>
    have hnested : rest ++ [coalesce inner] ++ after ≠ [] := by simp
    have hflat : rest ++ inner ++ after ≠ [] := by simp [hinner]
    rw [List.cons_append, List.cons_append, List.cons_append, List.cons_append,
      coalesce_cons first hnested, coalesce_cons first hflat, ih]
  | nil =>
    by_cases hafter : after = []
    · rw [hafter, List.append_nil, List.append_nil]
      rfl
    · show coalesce (coalesce inner :: after) = coalesce (inner ++ after)
      induction inner with
      | nil => exact absurd rfl hinner
      | cons first rest ih =>
        by_cases hrest : rest = []
        · rw [hrest]
          rfl
        · have hjoined : rest ++ after ≠ [] := List.append_ne_nil_of_left_ne_nil hrest after
          have ih := ih hrest
          rw [coalesce_cons _ hafter] at ih ⊢
          rw [coalesce_cons first hrest, hassoc, ih, List.cons_append, coalesce_cons first hjoined]

end

theorem fallback_outcome (o o' : Outcome N (Value N)) :
    fallback o o' = match answer o with
      | some v => .ok v
      | none => o' := by
  cases o with
  | error failure => rfl
  | ok v => cases v <;> rfl

theorem fallback_fallback (o o' o'' : Outcome N (Value N)) :
    fallback (fallback o o') o'' = fallback o (fallback o' o'') := by
  rw [fallback_outcome, fallback_outcome o, fallback_outcome o]
  cases h : answer o with
  | none => rw [fallback_outcome o']
  | some v =>
    dsimp only
    rw [← eq_ok_of_answer h, h]
    exact (eq_ok_of_answer h).symm

/-- A `coalesce` among the arguments of another one may be written out in its place. -/
theorem Expr.eval_coalesce_append [Scalar N] (env : Env N) {key key' : Path} {type type' : Ty}
    (before : List (Expr N)) {inner : List (Expr N)} (after : List (Expr N)) (hinner : inner ≠ []) :
    (coalesce key type (before ++ [coalesce key' type' inner] ++ after)).eval env =
      (coalesce key type (before ++ inner ++ after)).eval env := by
  have hne : inner.map (fun a => (a.eval env : Outcome N (Value N))) ≠ [] := by simpa using hinner
  rw [eval_coalesce, eval_coalesce, List.map_append, List.map_append, List.map_singleton,
    eval_coalesce, coalesce_append_coalesce_append fallback_fallback _ _ hne, ← List.map_append,
    ← List.map_append]

/-! ## Effects -/

section

variable {μ : Type → Type} [Monad μ] [LawfulMonad μ]

/-- An outcome with an answer is kept; any other one is fallen back from. -/
theorem run_fallback (x y : ExceptT (Failure N) μ (Value N)) :
    (fallback x y).run = x.run >>= fun o => match answer o with
      | some v => pure (.ok v)
      | none => y.run := by
  unfold fallback
  rw [ExceptT.run_bind]
  show (x.run >>= fun o => _) >>= _ = _
  rw [bind_assoc]
  refine congrArg (x.run >>= ·) (funext fun o => ?_)
  cases o with
  | error failure => exact pure_bind _ _
  | ok v =>
    refine (pure_bind _ _).trans ?_
    cases v <;> rfl

theorem fallback_assoc (x y z : ExceptT (Failure N) μ (Value N)) :
    fallback (fallback x y) z = fallback x (fallback y z) := by
  refine ExceptT.ext ?_
  rw [run_fallback, run_fallback, run_fallback, bind_assoc]
  refine congrArg (x.run >>= ·) (funext fun o => ?_)
  cases h : answer o with
  | none => rw [run_fallback]
  | some v =>
    refine (pure_bind _ _).trans ?_
    rw [← eq_ok_of_answer h, h]

end

namespace Traced

variable {x y : Traced N (Value N)} {o o' : Outcome N (Value N)}

theorem Gives.fallback (hx : x.Gives o) (hy : y.Gives o') :
    (MapStyle.fallback x y).Gives (MapStyle.fallback o o') := by
  intro seen
  rw [run_fallback, fallback_outcome]
  show ((match answer (x.run.run seen).1 with
    | some v => pure (.ok v)
    | none => y.run : StateM (List Nat) (Outcome N (Value N))) (x.run.run seen).2).1 = _
  rw [hx seen]
  cases answer o with
  | some v => rfl
  | none => exact hy _

theorem Gives.coalesce {xs : List (Traced N (Value N))} {os : List (Outcome N (Value N))}
    (h : List.Forall₂ Gives xs os) : (MapStyle.coalesce xs).Gives (MapStyle.coalesce os) := by
  induction h with
  | nil => exact fun _ => rfl
  | @cons x o xs os hx hrest ih =>
    cases hrest with
    | nil => exact hx
    | cons => exact hx.fallback ih

/-- Parts with the given outcomes, with indices from `first` on. -/
def partsFrom (first : Nat) (outcomes : List (Outcome N (Value N))) : List (Traced N (Value N)) :=
  outcomes.mapIdx fun i o => part (i + first) o

theorem parts_append (os os' : List (Outcome N (Value N))) :
    parts (os ++ os') = parts os ++ partsFrom os.length os' := List.mapIdx_append

theorem partsFrom_ne_nil {os : List (Outcome N (Value N))} (first : Nat) (h : os ≠ []) :
    partsFrom first os ≠ [] := ne_nil_of_length_eq h List.length_mapIdx

theorem gives_partsFrom (first : Nat) (os : List (Outcome N (Value N))) :
    List.Forall₂ Gives (partsFrom first os) os := by
  refine List.forall₂_iff_get.mpr ⟨List.length_mapIdx, fun i hi hi' => ?_⟩
  unfold partsFrom
  rw [List.get_eq_getElem, List.getElem_mapIdx]
  exact gives_part _ _

end Traced

/-! ## Runs -/

variable (env : Env N)

/-- The outcome of a choice in an environment, and the arguments that it evaluates, in order. -/
def traceCoalesce (args : List (Eval N (Value N))) : Outcome N (Value N) × List Nat :=
  (coalesce (Traced.parts (outcomes env args))).trace

/-- The outcome of a choice that has another one among its arguments, and the arguments of both that
are evaluated, in order. They are counted throughout. -/
def traceNested (before inner after : List (Eval N (Value N))) : Outcome N (Value N) × List Nat :=
  let first := Traced.partsFrom 0 (outcomes env before)
  let nested := Traced.partsFrom before.length (outcomes env inner)
  let last := Traced.partsFrom (before.length + inner.length) (outcomes env after)
  (coalesce (first ++ [coalesce nested] ++ last)).trace

/-- What is evaluated is noted beside the outcome and does not change it. -/
theorem traceCoalesce_fst (args : List (Eval N (Value N))) :
    (traceCoalesce env args).1 = coalesce args env := by
  rw [coalesce_inEnv]
  exact Traced.Gives.coalesce (Traced.gives_partsFrom 0 (outcomes env args)) []

theorem traceNested_fst (before inner after : List (Eval N (Value N))) :
    (traceNested env before inner after).1 =
      coalesce (before ++ [coalesce inner] ++ after) env := by
  have hinner := Traced.Gives.coalesce (Traced.gives_partsFrom before.length (outcomes env inner))
  rw [← coalesce_inEnv] at hinner
  rw [coalesce_inEnv, outcomes, List.map_append, List.map_append]
  exact Traced.Gives.coalesce (List.rel_append
    (List.rel_append (Traced.gives_partsFrom _ _) (.cons hinner .nil)) (Traced.gives_partsFrom _ _)) []

theorem traceNested_eq (before : List (Eval N (Value N))) {inner : List (Eval N (Value N))}
    (after : List (Eval N (Value N))) (hinner : inner ≠ []) :
    traceNested env before inner after = traceCoalesce env (before ++ inner ++ after) := by
  have hparts : Traced.parts (outcomes env (before ++ inner ++ after)) =
      Traced.partsFrom 0 (outcomes env before) ++
        Traced.partsFrom before.length (outcomes env inner) ++
        Traced.partsFrom (before.length + inner.length) (outcomes env after) := by
    simp only [outcomes, List.map_append, Traced.parts_append, List.length_append, List.length_map]
    rfl
  have houtcomes : outcomes env inner ≠ [] := by simpa [outcomes] using hinner
  have hnested := Traced.partsFrom_ne_nil before.length houtcomes
  unfold traceNested traceCoalesce
  rw [hparts, ← coalesce_append_coalesce_append fallback_assoc _ _ hnested]

/-- A choice among the arguments of a choice may be written out in its place, whatever comes before and
after: in every environment the outcome is the same, be it a value, null or a failure, and the same
arguments are evaluated in the same order. -/
theorem coalesce_nested (before : List (Eval N (Value N))) {inner : List (Eval N (Value N))}
    (after : List (Eval N (Value N))) (hinner : inner ≠ []) :
    coalesce (before ++ [coalesce inner] ++ after) env = coalesce (before ++ inner ++ after) env ∧
    (traceNested env before inner after).1 = coalesce (before ++ [coalesce inner] ++ after) env ∧
    traceNested env before inner after = traceCoalesce env (before ++ inner ++ after) := by
  have htrace := traceNested_eq env before after hinner
  have houtcome : coalesce (before ++ [coalesce inner] ++ after) env =
      coalesce (before ++ inner ++ after) env := by
    rw [← traceNested_fst, htrace, traceCoalesce_fst]
  exact ⟨houtcome, traceNested_fst env before inner after, htrace⟩

/-- The last argument of the inner choice fails, and is not the last one of the whole: its failure is
skipped like that of the first argument, and what comes after is evaluated. -/
theorem coalesce_nested_failing :
    traceNested (⟨none, ⟨[], .null, .unknown⟩, []⟩ : Env Float) [throw .zoomUnavailable]
      [pure .null, throw .noOperand] [pure (.boolean true), pure (.boolean false)] =
        (.ok (.boolean true), [0, 1, 2, 3]) := by
  have h := coalesce_nested (⟨none, ⟨[], .null, .unknown⟩, []⟩ : Env Float)
    [throw .zoomUnavailable] [pure (.boolean true), pure (.boolean false)]
    (List.cons_ne_nil (pure .null : Eval Float (Value Float)) [throw .noOperand])
  exact h.2.2.trans rfl

end MapStyle
