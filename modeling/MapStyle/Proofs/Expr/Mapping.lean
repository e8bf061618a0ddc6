import MapStyle.Expr.Json
import MapStyle.Proofs.Expr.Typing

/-!
# Changing the parts of trees

`Expr.mapParts f e` is the tree `e` with other things in its nodes: it changes the keys, values,
labels, interpolations and inputs of stops, and keeps the nodes and their types.

`Expr.rekey f e` changes the keys only, which the value of an expression does not depend on
(`eval_rekey`).
-/

namespace MapStyle

variable {N : Type}

/-- What to put in place of the parts of nodes that are not expressions. -/
structure PartMap (N : Type) where
  key : Path → Path := id
  value : Value N → Value N := id
  labels : List (Label N) → List (Label N) := id
  interpolation : Interpolation N → Interpolation N := id
  input : N → N := id

/-- Whether the new parts are written as the old ones. -/
structure PartMap.KeepsJson [Scalar N] (f : PartMap N) : Prop where
  value (v : Value N) : Expr.literalToJson (f.value v) = Expr.literalToJson v
  labels (labels : List (Label N)) : Expr.labelsToJson (f.labels labels) = Expr.labelsToJson labels
  interpolation (kind : Interpolation N) : (f.interpolation kind).toJson = kind.toJson
  input (x : N) : Json.ofNumber (f.input x) = Json.ofNumber x

namespace Expr

/-! ## Parts of nodes -/

mutual

/-- The tree with other parts in its nodes. -/
def mapParts (f : PartMap N) : Expr N → Expr N
  | .literal key type value => .literal (f.key key) type (f.value value)
  | .var key type name => .var (f.key key) type name
  | .letIn key bindings result => .letIn (f.key key) (mapBindings f bindings) (mapParts f result)
  | .coalesce key type args => .coalesce (f.key key) type (mapArgs f args)
  | .conditional key type branches otherwise =>
    .conditional (f.key key) type (mapBranches f branches) (mapParts f otherwise)
  | .matching key type input branches otherwise =>
    .matching (f.key key) type (mapParts f input) (mapLabelled f branches) (mapParts f otherwise)
  | .curve key type kind input stops =>
    .curve (f.key key) type (f.interpolation kind) (mapParts f input) (mapStops f stops)
  | .arrayOf key item length input => .arrayOf (f.key key) item length (mapParts f input)
  | .apply key type op args => .apply (f.key key) type op (mapArgs f args)

def mapArgs (f : PartMap N) : List (Expr N) → List (Expr N)
  | [] => []
  | arg :: rest => mapParts f arg :: mapArgs f rest

def mapBindings (f : PartMap N) : List (String × Expr N) → List (String × Expr N)
  | [] => []
  | (name, value) :: rest => (name, mapParts f value) :: mapBindings f rest

def mapBranches (f : PartMap N) : List (Expr N × Expr N) → List (Expr N × Expr N)
  | [] => []
  | (test, output) :: rest => (mapParts f test, mapParts f output) :: mapBranches f rest

def mapLabelled (f : PartMap N) :
    List (List (Label N) × Expr N) → List (List (Label N) × Expr N)
  | [] => []
  | (labels, output) :: rest => (f.labels labels, mapParts f output) :: mapLabelled f rest

def mapStops (f : PartMap N) : List (N × Expr N) → List (N × Expr N)
  | [] => []
  | (input, output) :: rest => (f.input input, mapParts f output) :: mapStops f rest

end

theorem mapArgs_eq_map (f : PartMap N) (args : List (Expr N)) :
    mapArgs f args = args.map (mapParts f) :=
  eq_map_of_cons rfl (fun _ _ => rfl) args

theorem mapBindings_eq_map (f : PartMap N) (bindings : List (String × Expr N)) :
    mapBindings f bindings = bindings.map fun b => (b.1, b.2.mapParts f) :=
  eq_map_of_cons rfl (fun _ _ => rfl) bindings

theorem mapBranches_eq_map (f : PartMap N) (branches : List (Expr N × Expr N)) :
    mapBranches f branches = branches.map fun b => (b.1.mapParts f, b.2.mapParts f) :=
  eq_map_of_cons rfl (fun _ _ => rfl) branches

theorem mapLabelled_eq_map (f : PartMap N) (branches : List (List (Label N) × Expr N)) :
    mapLabelled f branches = branches.map fun b => (f.labels b.1, b.2.mapParts f) :=
  eq_map_of_cons rfl (fun _ _ => rfl) branches

theorem mapStops_eq_map (f : PartMap N) (stops : List (N × Expr N)) :
    mapStops f stops = stops.map fun s => (f.input s.1, s.2.mapParts f) :=
  eq_map_of_cons rfl (fun _ _ => rfl) stops

theorem type_mapParts (f : PartMap N) : ∀ e : Expr N, (e.mapParts f).type = e.type
  | .letIn _ _ result => type_mapParts f result
  | .literal .. | .var .. | .coalesce .. | .conditional .. | .matching .. | .curve .. | .arrayOf ..
  | .apply .. => rfl

theorem map_type_mapParts (f : PartMap N) (es : List (Expr N)) :
    (es.map (mapParts f)).map type = es.map type := by
  rw [List.map_map]
  exact List.map_congr_left fun e _ => e.type_mapParts f

theorem children_mapParts (f : PartMap N) (e : Expr N) :
    (e.mapParts f).children = e.children.map (mapParts f) := by
  cases e with
  | literal | var | arrayOf => rfl
  | letIn => simp [mapParts, children, mapBindings_eq_map]
  | coalesce | apply => exact mapArgs_eq_map f _
  | conditional => simp [mapParts, children, mapBranches_eq_map, List.map_flatMap, List.flatMap_map]
  | matching => simp [mapParts, children, mapLabelled_eq_map]
  | curve => simp [mapParts, children, mapStops_eq_map]

theorem boundTypes_mapParts (f : PartMap N) (bindings : List (String × Expr N)) :
    boundTypes (bindings.map fun b => (b.1, b.2.mapParts f)) = boundTypes bindings := by
  rw [boundTypes, List.map_map]
  exact List.map_congr_left fun b _ => congrArg (b.1, ·) (b.2.type_mapParts f)

/-! ## Writing -/

section Json

variable [Scalar N] {f : PartMap N}

mutual

theorem toJson_mapParts (hf : f.KeepsJson) : ∀ e : Expr N, (e.mapParts f).toJson = e.toJson
  | .literal _ _ value => hf.value value
  | .var .. => rfl
  | .letIn _ bindings result => by
    rw [mapParts, toJson, toJson, bindingsToJson_mapParts hf bindings, toJson_mapParts hf result]
  | .coalesce _ _ args => by
    rw [mapParts, toJson, toJson, argsToJson_mapParts hf args]
  | .conditional _ _ branches otherwise => by
    rw [mapParts, toJson, toJson, branchesToJson_mapParts hf branches,
      toJson_mapParts hf otherwise]
  | .matching _ _ input branches otherwise => by
    rw [mapParts, toJson, toJson, toJson_mapParts hf input, labelledToJson_mapParts hf branches,
      toJson_mapParts hf otherwise]
  | .curve _ _ kind input stops => by
    rw [mapParts, toJson, toJson, hf.interpolation, toJson_mapParts hf input,
      stopsToJson_mapParts hf stops]
  | .arrayOf _ _ _ input => by
    rw [mapParts, toJson, toJson, toJson_mapParts hf input]
  | .apply _ _ _ args => by
    rw [mapParts, toJson, toJson, argsToJson_mapParts hf args]

theorem argsToJson_mapParts (hf : f.KeepsJson) : ∀ args : List (Expr N),
    argsToJson (mapArgs f args) = argsToJson args
  | [] => rfl
  | arg :: rest => by
    rw [mapArgs, argsToJson, argsToJson, toJson_mapParts hf arg, argsToJson_mapParts hf rest]

theorem bindingsToJson_mapParts (hf : f.KeepsJson) : ∀ bindings : List (String × Expr N),
    bindingsToJson (mapBindings f bindings) = bindingsToJson bindings
  | [] => rfl
  | (_, value) :: rest => by
    rw [mapBindings, bindingsToJson, bindingsToJson, toJson_mapParts hf value,
      bindingsToJson_mapParts hf rest]

theorem branchesToJson_mapParts (hf : f.KeepsJson) : ∀ branches : List (Expr N × Expr N),
    branchesToJson (mapBranches f branches) = branchesToJson branches
  | [] => rfl
  | (test, output) :: rest => by
    rw [mapBranches, branchesToJson, branchesToJson, toJson_mapParts hf test,
      toJson_mapParts hf output, branchesToJson_mapParts hf rest]

theorem labelledToJson_mapParts (hf : f.KeepsJson) :
    ∀ branches : List (List (Label N) × Expr N),
      labelledToJson (mapLabelled f branches) = labelledToJson branches
  | [] => rfl
  | (labels, output) :: rest => by
    rw [mapLabelled, labelledToJson, labelledToJson, hf.labels, toJson_mapParts hf output,
      labelledToJson_mapParts hf rest]

theorem stopsToJson_mapParts (hf : f.KeepsJson) : ∀ stops : List (N × Expr N),
    stopsToJson (mapStops f stops) = stopsToJson stops
  | [] => rfl
  | (input, output) :: rest => by
    rw [mapStops, stopsToJson, stopsToJson, hf.input, toJson_mapParts hf output,
      stopsToJson_mapParts hf rest]

end

end Json

/-! ## Keys -/

/-- The tree with other keys. -/
def rekey (f : Path → Path) (e : Expr N) : Expr N := e.mapParts { key := f }

variable [Scalar N] (f : Path → Path)

mutual

/-- The value of an expression does not depend on where it stands. -/
theorem eval_rekey : ∀ e : Expr N, (e.rekey f).eval = e.eval
  | .literal .. => rfl
  | .var .. => rfl
  | .letIn _ bindings result => by
    rw [rekey, mapParts, eval, eval, evalBindings_rekey bindings]
    show _ >>= (fun bound => withReader _ (result.rekey f).eval) = _
    rw [eval_rekey result]
  | .coalesce _ _ args => by
    rw [rekey, mapParts, eval, eval, evalArgs_rekey args]
  | .conditional _ _ branches otherwise => by
    rw [rekey, mapParts, eval, eval, evalBranches_rekey branches]
    exact congrArg _ (eval_rekey otherwise)
  | .matching _ _ input branches otherwise => by
    rw [rekey, mapParts, eval, eval, evalLabelled_rekey branches]
    show (input.rekey f).eval >>= (fun v => byLabel v _ (otherwise.rekey f).eval) = _
    rw [eval_rekey input, eval_rekey otherwise]
  | .curve _ type kind input stops => by
    rw [rekey, mapParts, eval, eval, evalStops_rekey stops, mapStops_eq_map, List.map_map]
    show (input.rekey f).eval >>= _ = _
    rw [eval_rekey input]
    rfl
  | .arrayOf _ _ _ input => by
    rw [rekey, mapParts, eval, eval]
    show (input.rekey f).eval >>= _ = _
    rw [eval_rekey input]
  | .apply _ _ _ args => by
    rw [rekey, mapParts, eval, eval, evalArgs_rekey args]

theorem evalArgs_rekey : ∀ args : List (Expr N), evalArgs (mapArgs { key := f } args) = evalArgs args
  | [] => rfl
  | arg :: rest => by
    rw [mapArgs, evalArgs, evalArgs, evalArgs_rekey rest]
    exact congrArg (· :: _) (eval_rekey arg)

theorem evalBindings_rekey : ∀ bindings : List (String × Expr N),
    evalBindings (mapBindings { key := f } bindings) = evalBindings bindings
  | [] => rfl
  | (name, value) :: rest => by
    rw [mapBindings, evalBindings, evalBindings, evalBindings_rekey rest]
    exact congrArg (· >>= _) (eval_rekey value)

theorem evalBranches_rekey : ∀ branches : List (Expr N × Expr N),
    evalBranches (mapBranches { key := f } branches) = evalBranches branches
  | [] => rfl
  | (test, output) :: rest => by
    rw [mapBranches, evalBranches, evalBranches, evalBranches_rekey rest]
    exact congrArg (· :: _) (Prod.ext (eval_rekey test) (eval_rekey output))

theorem evalLabelled_rekey : ∀ branches : List (List (Label N) × Expr N),
    evalLabelled (mapLabelled { key := f } branches) = evalLabelled branches
  | [] => rfl
  | (labels, output) :: rest => by
    rw [mapLabelled, evalLabelled, evalLabelled, evalLabelled_rekey rest]
    exact congrArg (fun output => (labels, output) :: _) (eval_rekey output)

theorem evalStops_rekey : ∀ stops : List (N × Expr N),
    evalStops (mapStops { key := f } stops) = evalStops stops
  | [] => rfl
  | (_, output) :: rest => by
    rw [mapStops, evalStops, evalStops, evalStops_rekey rest]
    exact congrArg (· :: _) (eval_rekey output)

end

end Expr

end MapStyle
