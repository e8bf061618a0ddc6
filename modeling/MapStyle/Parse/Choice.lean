import MapStyle.Parse.Context

/-!
# Parsing choices

The outputs of `coalesce`, `case` and `match` share a type: the one asked for, else that of the first
output that can have a value. Each output is parsed against what the outputs before it have settled.
Errors in one part do not keep the others from being parsed.
-/

namespace MapStyle.Parse

variable {N : Type} [Scalar N]

/-! ## Coalesce -/

/-- Parses one argument of a `coalesce`. -/
def coalesceStep (c : Context) (shared : Option Ty) (arg : Argument N × Nat) :
    Option Ty × Checked N (Expr N) :=
  let parsed := arg.1.parse (c.child arg.2 shared)
  (unifyOutput shared parsed.result, parsed)

/-- Parses the arguments of a `coalesce`. -/
def coalesce (c : Context) (args : List (Argument N)) : Checked N (Expr N) :=
  if args.isEmpty then c.fail .noArgument
  else
    let (shared, parsed) := Checked.sweep (coalesceStep c) c.outputHint (args.zipIdx 1)
    (fun args => .coalesce c.key (shared.getD .error) args) <$> parsed

/-! ## Case -/

/-- Parses one condition and its output. -/
def conditionalStep (c : Context) (shared : Option Ty) (branch : Nat × Argument N × Argument N) :
    Option Ty × Checked N (Expr N × Expr N) :=
  let (i, test, output) := branch
  let parsed := (test.parse (c.child i (some .boolean))).zip
    (output.parse (c.child (i + 1) shared))
  (unifyOutput shared (parsed.result.map (·.2)), parsed)

/-- Parses the arguments of a `case`. -/
def conditional (c : Context) (args : List (Argument N)) : Checked N (Expr N) :=
  if args.length < 3 then c.fail (.tooFewArguments 3 args.length)
  else if args.length % 2 = 0 then c.fail .evenArguments
  else match args.getLast? with
    | none => c.fail (.tooFewArguments 3 0)
    | some otherwise =>
      let (shared, branches) :=
        Checked.sweep (conditionalStep c) c.outputHint (pairsFrom 1 args.dropLast)
      let otherwise := otherwise.parse (c.child args.length shared)
      let type := (unifyOutput shared otherwise.result).getD .error
      (fun (branches, otherwise) => .conditional c.key type branches otherwise) <$>
        branches.zip otherwise

/-! ## Match -/

/-- What the labels of a match have settled so far: their type, and which have occurred. -/
structure Labels (N : Type) where
  type : Option Ty
  seen : List (Label N)

/-- Adds a label, which has to be of the type of those before and none of them. -/
def Labels.add (labels : Labels N) (label : Label N) : Except (Problem N) (Labels N) :=
  let added : Labels N := ⟨some label.type, label :: labels.seen⟩
  match labels.type with
  | some type =>
    if type = label.type then
      if labels.seen.contains label then .error .labelRepeated else .ok added
    else .error (.typeMismatch type label.type)
  | none => .ok added

/-- The label that a number makes. -/
def numberLabel (x : N) : Except (Problem N) (Label N) :=
  if !Scalar.isSafe x then .error .labelTooLarge
  else if !Scalar.isWhole x then .error .labelNotWhole
  else .ok (.number x)

/-- The label that a raw value makes. -/
def label (raw : Json N) : Except (Problem N) (Label N) :=
  match raw with
  | .string s => .ok (.string s)
  | .integer n => numberLabel (Scalar.ofInt n)
  | .real x => numberLabel x
  | other => .error (.labelKind other.kind)

/-- Parses labels from the first on, up to one that is not in order; they stand at index `i`. -/
def labelList (c : Context) (i : Nat) (labels : Labels N) :
    List (Json N) → Labels N × Checked N (List (Label N))
  | [] => (labels, pure [])
  | raw :: rest =>
    match label raw with
    | .error problem => (labels, c.failAt i problem)
    | .ok here => match labels.add here with
      | .error problem => (labels, c.failAt i problem)
      | .ok labels =>
        let (labels, others) := labelList c i labels rest
        (labels, (here :: ·) <$> others)

/-- Parses the label or list of labels at index `i`. -/
def labelsAt (c : Context) (i : Nat) (labels : Labels N) (raw : Json N) :
    Labels N × Checked N (List (Label N)) :=
  match raw with
  | .array [] => (labels, c.failAt i .noLabel)
  | .array items => labelList c i labels items
  | single => labelList c i labels [single]

/-- Parses one output and its labels. -/
def matchingStep (c : Context) (state : Labels N × Option Ty)
    (branch : Nat × Argument N × Argument N) :
    (Labels N × Option Ty) × Checked N (List (Label N) × Expr N) :=
  let (labels, shared) := state
  let (i, raw, output) := branch
  let (labels, here) := labelsAt c i labels raw.raw
  let parsed := here.zip (output.parse (c.child (i + 1) shared))
  ((labels, unifyOutput shared (parsed.result.map (·.2))), parsed)

/-- Parses the arguments of a `match`. The input is parsed against the type of the labels. -/
def matching (c : Context) (args : List (Argument N)) : Checked N (Expr N) :=
  if args.length < 4 then c.fail (.tooFewArguments 4 args.length)
  else if args.length % 2 = 1 then c.fail .oddArguments
  else match args, args.getLast? with
    | input :: rest, some otherwise =>
      let ((labels, shared), branches) :=
        Checked.sweep (matchingStep c) (⟨none, []⟩, c.outputHint) (pairsFrom 2 rest.dropLast)
      let input := input.parse (c.child 1 labels.type)
      let otherwise := otherwise.parse (c.child args.length shared)
      let type := (unifyOutput shared otherwise.result).getD .error
      (fun ((branches, input), otherwise) => .matching c.key type input branches otherwise) <$>
        (branches.zip input).zip otherwise
    | _, _ => c.fail (.tooFewArguments 4 0)

end MapStyle.Parse
