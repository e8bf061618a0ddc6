import MapStyle.Failure

/-!
# The parts that are evaluated

The forms that choose what to evaluate are written over any monad in which an evaluation can fail.
`Traced` is one in which the choice shows: the evaluation of a part notes the index of the part. So
`Traced.trace` is the outcome of an evaluation together with the parts that it has evaluated.
-/

namespace MapStyle

variable {N α β : Type}

/-- An evaluation that keeps a list of the parts evaluated so far, by their indices. -/
abbrev Traced (N : Type) := ExceptT (Failure N) (StateM (List Nat))

namespace Traced

/-- The evaluation of a part with an outcome, which notes the index of the part. -/
def part (index : Nat) (o : Outcome N α) : Traced N α := ExceptT.mk do
  modify (· ++ [index])
  return o

/-- The evaluations of parts with the given outcomes. -/
def parts (outcomes : List (Outcome N α)) : List (Traced N α) := outcomes.mapIdx part

/-- The outcome of an evaluation, and the parts that it evaluates, in order. -/
def trace (x : Traced N α) : Outcome N α × List Nat := x.run.run []

theorem length_parts (outcomes : List (Outcome N α)) : (parts outcomes).length = outcomes.length :=
  List.length_mapIdx

theorem getElem?_parts {outcomes : List (Outcome N α)} {i : Nat} {o : Outcome N α}
    (h : outcomes[i]? = some o) : (parts outcomes)[i]? = some (part i o) := by
  unfold parts
  rw [List.getElem?_mapIdx, h]
  rfl

theorem run_part_bind (index : Nat) (a : α) (f : α → Traced N β) (seen : List Nat) :
    ((part index (.ok a) >>= f).run.run seen) = (f a).run.run (seen ++ [index]) := rfl

theorem trace_part (index : Nat) (o : Outcome N α) : (part index o).trace = (o, [index]) := rfl

/-! ## Outcomes -/

/-- Whether an evaluation has an outcome, whatever has been evaluated before. -/
def Gives (x : Traced N α) (o : Outcome N α) : Prop := ∀ seen, (x.run.run seen).1 = o

theorem gives_part (index : Nat) (o : Outcome N α) : (part index o).Gives o := fun _ => rfl

theorem Gives.bind {x : Traced N α} {o : Outcome N α} {f : α → Traced N β} {g : α → Outcome N β}
    (hx : x.Gives o) (hf : ∀ a, (f a).Gives (g a)) : (x >>= f).Gives (o >>= g) := by
  intro seen
  show (ExceptT.bindCont f (x.run.run seen).1 (x.run.run seen).2).1 = _
  rw [hx seen]
  cases o with
  | error failure => rfl
  | ok a => exact hf a _

end Traced

end MapStyle
