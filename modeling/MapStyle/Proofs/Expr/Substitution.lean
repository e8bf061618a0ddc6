import MapStyle.Binary64.Scalar
import MapStyle.Parse.Expr
import MapStyle.Proofs.Expr.Nodes
import MapStyle.Proofs.Expr.Outcomes

/-!
# Substitution

A `let` evaluates its bindings once and looks its variables up by name, along a scope that grows with
every `let` on the way. Where its bindings have values this gives what its result gives with the
bound expressions written in place of the variables, unless a `let` in the result binds a variable
that is free in one of them (`Expr.eval_letIn_eq_subst`).

* `Expr.Free`: the names of the variables that a tree does not bind itself. Of the variables in scope
  an outcome depends on these only (`Expr.eval_eq_of_free`).
* `Expr.subst` puts expressions in place of free variables.
* `Expr.Replaces`: what this asks of the environments before and after. It is kept on the way from a
  node to its children, and into the result of a `let` (`Expr.Replaces.into`).
-/

namespace MapStyle

variable {N : Type}

/-! ## Lookup -/

theorem lookup_reverse_eq_none_iff {α : Type} {entries : List (String × α)} {name : String} :
    entries.reverse.lookup name = none ↔ name ∉ entries.map (·.1) := by
  rw [List.lookup_eq_none_iff, List.mem_map]
  constructor
  · rintro h ⟨entry, hentry, rfl⟩
    exact bne_iff_ne.mp (h entry (List.mem_reverse.mpr hentry)) rfl
  · intro h entry hentry
    exact bne_iff_ne.mpr fun heq => h ⟨entry, List.mem_reverse.mp hentry, heq.symm⟩

/-- Entries that correspond one by one are found under the same names. -/
theorem lookup_of_forall₂ {α β : Type} {R : α → β → Prop} {as : List (String × α)}
    {bs : List (String × β)} (h : List.Forall₂ (fun a b => b.1 = a.1 ∧ R a.2 b.2) as bs)
    {name : String} {a : α} (ha : as.lookup name = some a) :
    ∃ b, bs.lookup name = some b ∧ R a b := by
  induction h with
  | nil => cases ha
  | @cons entry entry' as bs hentry _ ih =>
    rw [List.lookup_cons] at ha
    rw [List.lookup_cons, hentry.1]
    cases hname : name == entry.1 with
    | true =>
      rw [hname] at ha
      cases ha
      exact ⟨_, rfl, hentry.2⟩
    | false =>
      rw [hname] at ha
      exact ih ha

namespace Env

/-- Environments that agree but for the variables in scope. -/
structure SameInput (env env' : Env N) : Prop where
  zoom : env'.zoom = env.zoom
  feature : env'.feature = env.feature

theorem SameInput.bind {env env' : Env N} (h : env.SameInput env')
    (bound bound' : List (String × Value N)) : (env.bind bound).SameInput (env'.bind bound') :=
  ⟨h.zoom, h.feature⟩

theorem lookup_bind (env : Env N) (bound : List (String × Value N)) (name : String) :
    (env.bind bound).lookup name = match bound.reverse.lookup name with
      | some v => .ok v
      | none => env.lookup name := by
  unfold lookup bind
  dsimp only
  rw [List.lookup_append]
  cases bound.reverse.lookup name <;> rfl

theorem lookup_bind_of_not_mem {env : Env N} {bound : List (String × Value N)} {name : String}
    (h : name ∉ bound.map (·.1)) : (env.bind bound).lookup name = env.lookup name := by
  rw [lookup_bind, lookup_reverse_eq_none_iff.mpr h]

/-- What is bound hides the variables of its names, so that only the others count. -/
theorem lookup_bind_congr {env env' : Env N} {bound : List (String × Value N)} {name : String}
    (h : name ∉ bound.map (·.1) → env'.lookup name = env.lookup name) :
    (env'.bind bound).lookup name = (env.bind bound).lookup name := by
  rw [lookup_bind, lookup_bind]
  cases hfound : bound.reverse.lookup name with
  | some v => rfl
  | none => exact h (lookup_reverse_eq_none_iff.mp hfound)

end Env

namespace Expr

/-! ## Free variables -/

/-- The variable occurs where no `let` of the tree binds it. -/
inductive Free (name : String) : Expr N → Prop where
  | var (key : Path) (type : Ty) : Free name (.var key type name)
  | child {e c : Expr N} (hnode : e.usesScope = false) (hchild : c ∈ e.children) (h : Free name c) :
    Free name e
  | binding {key : Path} {bindings : List (String × Expr N)} {result : Expr N}
    {b : String × Expr N} (hb : b ∈ bindings) (h : Free name b.2) :
    Free name (.letIn key bindings result)
  | result {key : Path} {bindings : List (String × Expr N)} {result : Expr N}
    (hname : name ∉ bindings.map (·.1)) (h : Free name result) :
    Free name (.letIn key bindings result)

theorem free_var_iff {key : Path} {type : Ty} {name name' : String} :
    (var key type name : Expr N).Free name' ↔ name' = name := by
  constructor
  · intro h
    cases h with
    | var => rfl
    | child hnode => cases hnode
  · rintro rfl
    exact .var key type

/-! ## Expressions for variables -/

/-- All but the expressions for the given names. -/
def hide (names : List String) (σ : String → Option (Expr N)) (name : String) : Option (Expr N) :=
  if name ∈ names then none else σ name

theorem hide_eq_some_iff {names : List String} {σ : String → Option (Expr N)} {name : String}
    {value : Expr N} : hide names σ name = some value ↔ name ∉ names ∧ σ name = some value := by
  unfold hide
  by_cases hname : name ∈ names <;> simp [hname]

theorem hide_eq_none_iff {names : List String} {σ : String → Option (Expr N)} {name : String} :
    hide names σ name = none ↔ (name ∉ names → σ name = none) := by
  unfold hide
  by_cases hname : name ∈ names <;> simp [hname]

mutual

/-- The tree with expressions in place of free variables. -/
def subst (σ : String → Option (Expr N)) : Expr N → Expr N
  | .literal key type value => .literal key type value
  | .var key type name => (σ name).getD (.var key type name)
  | .letIn key bindings result =>
    .letIn key (substBindings σ bindings) (subst (hide (bindings.map (·.1)) σ) result)
  | .coalesce key type args => .coalesce key type (substArgs σ args)
  | .conditional key type branches otherwise =>
    .conditional key type (substBranches σ branches) (subst σ otherwise)
  | .matching key type input branches otherwise =>
    .matching key type (subst σ input) (substLabelled σ branches) (subst σ otherwise)
  | .curve key type kind input stops =>
    .curve key type kind (subst σ input) (substStops σ stops)
  | .arrayOf key item length input => .arrayOf key item length (subst σ input)
  | .apply key type op args => .apply key type op (substArgs σ args)

def substArgs (σ : String → Option (Expr N)) : List (Expr N) → List (Expr N)
  | [] => []
  | arg :: rest => subst σ arg :: substArgs σ rest

def substBindings (σ : String → Option (Expr N)) : List (String × Expr N) → List (String × Expr N)
  | [] => []
  | (name, value) :: rest => (name, subst σ value) :: substBindings σ rest

def substBranches (σ : String → Option (Expr N)) : List (Expr N × Expr N) → List (Expr N × Expr N)
  | [] => []
  | (test, output) :: rest => (subst σ test, subst σ output) :: substBranches σ rest

def substLabelled (σ : String → Option (Expr N)) :
    List (List (Label N) × Expr N) → List (List (Label N) × Expr N)
  | [] => []
  | (labels, output) :: rest => (labels, subst σ output) :: substLabelled σ rest

def substStops (σ : String → Option (Expr N)) : List (N × Expr N) → List (N × Expr N)
  | [] => []
  | (input, output) :: rest => (input, subst σ output) :: substStops σ rest

end

section

variable (σ : String → Option (Expr N))

theorem substArgs_eq_map (args : List (Expr N)) : substArgs σ args = args.map (subst σ) :=
  eq_map_of_cons rfl (fun _ _ => rfl) args

theorem substBindings_eq_map (bindings : List (String × Expr N)) :
    substBindings σ bindings = bindings.map fun b => (b.1, b.2.subst σ) :=
  eq_map_of_cons rfl (fun _ _ => rfl) bindings

theorem substBranches_eq_map (branches : List (Expr N × Expr N)) :
    substBranches σ branches = branches.map fun b => (b.1.subst σ, b.2.subst σ) :=
  eq_map_of_cons rfl (fun _ _ => rfl) branches

theorem substLabelled_eq_map (branches : List (List (Label N) × Expr N)) :
    substLabelled σ branches = branches.map fun b => (b.1, b.2.subst σ) :=
  eq_map_of_cons rfl (fun _ _ => rfl) branches

theorem substStops_eq_map (stops : List (N × Expr N)) :
    substStops σ stops = stops.map fun s => (s.1, s.2.subst σ) :=
  eq_map_of_cons rfl (fun _ _ => rfl) stops

theorem subst_eq_mapChildren {e : Expr N} (hnode : e.usesScope = false) :
    e.subst σ = e.mapChildren (subst σ) := by
  cases e with
  | var | letIn => cases hnode
  | _ => simp only [subst, mapChildren, substArgs_eq_map, substBranches_eq_map,
      substLabelled_eq_map, substStops_eq_map]

end

/-! ## Capture -/

/-- Some `let` of the tree binds a variable that is free in the value. -/
def Captures (e value : Expr N) : Prop :=
  ∃ key bindings result, letIn key bindings result ∈ e.nodes ∧ ∃ b ∈ bindings, value.Free b.1

theorem Captures.of_child {e c value : Expr N} (hc : c ∈ e.children) (h : c.Captures value) :
    e.Captures value := by
  obtain ⟨key, bindings, result, hmem, hbound⟩ := h
  exact ⟨key, bindings, result, mem_nodes.mpr (.inr ⟨c, hc, hmem⟩), hbound⟩

variable [Scalar N] {env env' : Env N}

/-! ## Outcomes by free variables -/

/-- The variables that bindings bring into scope have their names. -/
theorem names_evalBindings {bindings : List (String × Expr N)} {bound : List (String × Value N)}
    (h : evalBindings bindings env = .ok bound) : bound.map (·.1) = bindings.map (·.1) :=
  (map_eq_map_of_forall₂ (evalBindings_eq_ok_iff.mp h) fun _ _ hb => hb.1.symm).symm

/-- An outcome depends on no variables but the free ones. -/
theorem eval_eq_of_free {e : Expr N} (hinput : env.SameInput env')
    (h : ∀ name, e.Free name → env'.lookup name = env.lookup name) : e.eval env' = e.eval env := by
  induction e using induction_on_children generalizing env env' with
  | h e ih =>
    have hother : e.usesScope = false → e.eval env' = e.eval env := by
      intro hnode
      have hchildren := eval_mapChildren (f := id) hnode (fun _ => hinput.zoom)
        (fun _ => hinput.feature) fun c hc =>
        ih c hc hinput fun name hfree => h name (.child hnode hc hfree)
      rwa [mapChildren_id] at hchildren
    cases e with
    | var key type name => exact h name (.var key type)
    | letIn key bindings result =>
      have hbindings : evalBindings bindings env' = evalBindings bindings env :=
        evalBindings_congr (List.forall₂_same.mpr fun b hb => ⟨rfl,
          ih b.2 (List.mem_append_left _ (List.mem_map_of_mem hb)) hinput fun name hfree =>
            h name (.binding hb hfree)⟩)
      rw [eval_letIn, eval_letIn, hbindings]
      cases hbound : evalBindings bindings env with
      | error failure => rfl
      | ok bound =>
        refine ih result (List.mem_append_right _ (List.mem_singleton.mpr rfl))
          (hinput.bind bound bound) fun name hfree => Env.lookup_bind_congr fun hname => ?_
        rw [names_evalBindings hbound] at hname
        exact h name (.result hname hfree)
    | _ => exact hother rfl

/-! ## Outcomes by substitution -/

/-- What puts expressions in place of the free variables of a tree keeps its outcome: in the second
environment each has the outcome that its variable has in the first, and no `let` on the way gets
hold of a variable of it. -/
structure Replaces (σ : String → Option (Expr N)) (e : Expr N) (env env' : Env N) :
    Prop where
  kept : ∀ name, e.Free name → σ name = none → env'.lookup name = env.lookup name
  replaced : ∀ name value, e.Free name → σ name = some value → value.eval env' = env.lookup name
  spared : ∀ name value, e.Free name → σ name = some value → ¬e.Captures value

variable {σ : String → Option (Expr N)}

/-- Where the free variables of a node below are free in the tree, too. -/
theorem Replaces.mono {e c : Expr N} (h : Replaces σ e env env') (hc : c ∈ e.children)
    (hfree : ∀ name, c.Free name → e.Free name) : Replaces σ c env env' where
  kept name hname := h.kept name (hfree name hname)
  replaced name value hname := h.replaced name value (hfree name hname)
  spared name value hname hvalue hcaptures :=
    h.spared name value (hfree name hname) hvalue (hcaptures.of_child hc)

/-- Variables that the `let` binds are kept, and nothing is put in place of them. -/
theorem Replaces.into {key : Path} {bindings : List (String × Expr N)} {result : Expr N}
    (h : Replaces σ (letIn key bindings result) env env') {bound : List (String × Value N)}
    (hbound : bound.map (·.1) = bindings.map (·.1)) :
    Replaces (hide (bindings.map (·.1)) σ) result (env.bind bound) (env'.bind bound) where
  kept name hfree hkept := Env.lookup_bind_congr fun hname => by
    rw [hbound] at hname
    exact h.kept name (.result hname hfree) (hide_eq_none_iff.mp hkept hname)
  replaced name value hfree hvalue := by
    obtain ⟨hname, hvalue⟩ := hide_eq_some_iff.mp hvalue
    have hspared := h.spared name value (.result hname hfree) hvalue
    have hreplaced := h.replaced name value (.result hname hfree) hvalue
    rw [Env.lookup_bind_of_not_mem (hbound ▸ hname), ← hreplaced]
    -- The variables that the `let` binds are not free in the value.
    refine eval_eq_of_free ⟨rfl, rfl⟩ fun inner hinner => Env.lookup_bind_of_not_mem fun hmem => ?_
    rw [hbound] at hmem
    obtain ⟨b, hb, rfl⟩ := List.mem_map.mp hmem
    exact hspared ⟨key, bindings, result, mem_nodes.mpr (.inl rfl), b, hb, hinner⟩
  spared name value hfree hvalue hcaptures := by
    obtain ⟨hname, hvalue⟩ := hide_eq_some_iff.mp hvalue
    exact h.spared name value (.result hname hfree) hvalue
      (hcaptures.of_child (List.mem_append_right _ (List.mem_singleton.mpr rfl)))

/-- Expressions that have the outcomes of free variables may stand in their place. -/
theorem eval_subst {e : Expr N} (h : Replaces σ e env env') (hinput : env.SameInput env') :
    (e.subst σ).eval env' = e.eval env := by
  induction e using induction_on_children generalizing σ env env' with
  | h e ih =>
    have hother : e.usesScope = false → (e.subst σ).eval env' = e.eval env := by
      intro hnode
      rw [subst_eq_mapChildren σ hnode]
      exact eval_mapChildren hnode (fun _ => hinput.zoom) (fun _ => hinput.feature) fun c hc =>
        ih c hc (h.mono hc fun name => .child hnode hc) hinput
    cases e with
    | var key type name =>
      have hfree : (var key type name : Expr N).Free name := .var key type
      rw [subst]
      cases hvalue : σ name with
      | none => exact h.kept name hfree hvalue
      | some value => exact h.replaced name value hfree hvalue
    | letIn key bindings result =>
      have hbindings : evalBindings (bindings.map fun b => (b.1, b.2.subst σ)) env' =
          evalBindings bindings env := by
        refine evalBindings_congr (List.forall₂_map_right_iff.mpr ?_)
        refine List.forall₂_same.mpr fun b hb => ?_
        have hc : b.2 ∈ (letIn key bindings result).children :=
          List.mem_append_left _ (List.mem_map_of_mem hb)
        exact ⟨rfl, ih b.2 hc (h.mono hc fun name => .binding hb) hinput⟩
      rw [subst, substBindings_eq_map, eval_letIn, eval_letIn, hbindings]
      cases hbound : evalBindings bindings env with
      | error failure => rfl
      | ok bound =>
        exact ih result (List.mem_append_right _ (List.mem_singleton.mpr rfl))
          (h.into (names_evalBindings hbound)) (hinput.bind bound bound)
    | _ => exact hother rfl

/-- The last expressions bound to the names have the outcomes of the variables. -/
theorem replaces_lookup {bindings : List (String × Expr N)} {bound : List (String × Value N)}
    (hbound : evalBindings bindings env = .ok bound) {result : Expr N}
    (hspared : ∀ name value, result.Free name → bindings.reverse.lookup name = some value →
      ¬result.Captures value) :
    Replaces (fun name => bindings.reverse.lookup name) result (env.bind bound) env where
  kept name _ hkept := by
    rw [lookup_reverse_eq_none_iff, ← names_evalBindings hbound] at hkept
    exact (Env.lookup_bind_of_not_mem hkept).symm
  replaced name value _ hvalue := by
    have hforall := List.forall₂_reverse_iff.mpr (evalBindings_eq_ok_iff.mp hbound)
    obtain ⟨v, hv, heval⟩ :=
      lookup_of_forall₂ (R := fun value v => value.eval env = .ok v) hforall hvalue
    rw [heval, Env.lookup_bind, hv]
  spared := hspared

/-- A `let` is substitution. Of bindings that fail the first gives its failure; where none fails, the
outcome is that of the result with each variable replaced by the last expression bound to its name,
if no `let` in the result binds a variable that is free in such an expression. -/
theorem eval_letIn_eq_subst (key : Path) (bindings : List (String × Expr N)) (result : Expr N)
    (env : Env N) :
    (∀ before b after failure, bindings = before ++ b :: after →
      (∀ b ∈ before, ∃ v, b.2.eval env = .ok v) → b.2.eval env = .error failure →
        (letIn key bindings result).eval env = .error failure) ∧
    ((∀ b ∈ bindings, ∃ v, b.2.eval env = .ok v) →
      (∀ name value, result.Free name → bindings.reverse.lookup name = some value →
        ¬result.Captures value) →
      (letIn key bindings result).eval env =
        (result.subst fun name => bindings.reverse.lookup name).eval env) := by
  refine ⟨fun before b after failure hbindings hbefore hfailure => ?_, fun hvalues hspared => ?_⟩
  · rw [hbindings, eval_letIn, evalBindings_eq_error hbefore hfailure]
    rfl
  · obtain ⟨bound, hlen, hbound⟩ := exists_of_forall_getElem?
      (P := fun _ b v => v.1 = b.1 ∧ b.2.eval env = .ok v.2) fun i b hb =>
        (hvalues b (List.mem_of_getElem? hb)).elim fun v hv => ⟨(b.1, v), rfl, hv⟩
    have hbound := evalBindings_eq_ok_iff.mpr (forall₂_iff_getElem?.mpr ⟨hlen, hbound⟩)
    rw [eval_letIn, hbound]
    exact (eval_subst (replaces_lookup hbound hspared) ⟨rfl, rfl⟩).symm

/-- Inside two variables, the sum of an expression and a third variable. -/
def innerSum (e : Expr Float) : Expr Float :=
  letIn [3, 3] [("b", literal [3, 3, 2] .number (.number (Scalar.ofInt 2)))]
    (apply [3, 3, 3] .number .sum [e, var [3, 3, 3, 2] .number "b"])

theorem eval_letIn_eq_subst_sum :
    (∃ node, parse (.call "let" [.string "c", .integer 1, .call "let" [.string "a",
        .call "var" [.string "c"], .call "let" [.string "b", .integer 2,
          .call "+" [.call "var" [.string "a"], .call "var" [.string "b"]]]]]) none =
        .ok (letIn [] [("c", literal [2] .number (.number (Scalar.ofInt 1)))] node) ∧
      ∀ zoom feature v, node.eval ⟨zoom, feature, [("c", v)]⟩ =
        (innerSum (var [3, 2] .number "c")).eval ⟨zoom, feature, [("c", v)]⟩) ∧
    ∃ e : Expr Float, parse (.call "let" [.string "a", .integer 1,
        .string "b", .call "error" [.string "none"], .call "var" [.string "a"]]) none = .ok e ∧
      ∀ env, e.eval env = .error (.raised "none") := by
  refine ⟨⟨letIn [3] [("a", var [3, 2] .number "c")] (innerSum (var [3, 3, 3, 1] .number "a")), rfl,
    fun zoom feature v => ?_⟩, _, rfl, fun env => ?_⟩
  · refine (eval_letIn_eq_subst _ _ _ _).2 ?_ ?_
    · rintro b hb
      obtain rfl := List.mem_singleton.mp hb
      exact ⟨v, rfl⟩
    · rintro name value - hvalue ⟨key, bindings, result, hmem, b, hb, hfree⟩
      cases List.mem_singleton.mp (mem_of_lookup_eq_some hvalue)
      -- The only variable that is bound inside is `b`, and `c` is the only one that is free.
      obtain ⟨-, rfl, -⟩ : key = [3, 3] ∧
          bindings = [("b", literal [3, 3, 2] .number (.number (Scalar.ofInt 2)))] ∧ _ := by
        simpa [innerSum, nodes, bindingNodes, argNodes] using hmem
      obtain rfl := List.mem_singleton.mp hb
      exact absurd (free_var_iff.mp hfree) (by decide)
  · refine (eval_letIn_eq_subst _ _ _ env).1 [_] _ [] _ rfl ?_ rfl
    rintro b hb
    obtain rfl := List.mem_singleton.mp hb
    exact ⟨_, rfl⟩

end Expr

end MapStyle
