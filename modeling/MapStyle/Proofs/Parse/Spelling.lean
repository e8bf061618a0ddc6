import MapStyle.Parse.Expr
import MapStyle.Proofs.Expr.Mapping

/-!
# What a raw value spells

`Spells c raw e` says that in the context `c` the raw value `raw` stands for the expression `e`. It
has one rule for each form, and says of the parts of a form only what they spell themselves; how
errors are collected does not come into it.

The outputs of a choice share a type. `settle hint outputs` is the type that they have agreed on, so
that the output at index `i` is read against `settle hint (outputs.take i)`.
-/

namespace MapStyle

variable {N : Type}

/-- Whether an expression of the type can stand in the context. -/
def Context.Accepts (c : Context) (type : Ty) : Prop :=
  ∀ expected, c.expected = some expected → type ≤ expected

namespace Parse

/-! ## Shared types -/

/-- The type that outputs share, from the type they start from. -/
def settle (hint : Option Ty) (outputs : List (Expr N)) : Option Ty :=
  outputs.foldl (fun shared e => unifyOutput shared (some e)) hint

@[simp] theorem settle_nil (hint : Option Ty) : settle hint ([] : List (Expr N)) = hint := rfl

@[simp] theorem settle_cons (hint : Option Ty) (e : Expr N) (rest : List (Expr N)) :
    settle hint (e :: rest) = settle (unifyOutput hint (some e)) rest := rfl

/-- A type that has been settled stays. -/
theorem settle_some (t : Ty) (outputs : List (Expr N)) : settle (some t) outputs = some t := by
  induction outputs with
  | nil => rfl
  | cons e rest ih => exact ih

theorem settle_append (hint : Option Ty) (outputs rest : List (Expr N)) :
    settle hint (outputs ++ rest) = settle (settle hint outputs) rest := List.foldl_append

theorem settle_concat (hint : Option Ty) (outputs : List (Expr N)) (e : Expr N) :
    settle hint (outputs ++ [e]) = unifyOutput (settle hint outputs) (some e) := settle_append ..

/-- An output that suits what has been settled before it suits what is settled in the end. -/
theorem le_settle_cons {hint : Option Ty} {e : Expr N} (rest : List (Expr N))
    (h : ∀ t, hint = some t → e.type ≤ t) : e.type ≤ (settle hint (e :: rest)).getD .error := by
  rw [settle_cons]
  cases hint with
  | some t =>
    show e.type ≤ (settle (some t) rest).getD .error
    rw [settle_some]
    exact h t rfl
  | none =>
    by_cases herror : e.type = .error
    · rw [herror]
      exact Ty.error_le _
    · have hsettled : unifyOutput none (some e) = some e.type := if_neg herror
      rw [hsettled, settle_some]
      exact Ty.le_refl _

/-- Outputs that each suit what has been settled before them all suit what is settled in the end. -/
theorem le_settle {α : Type} {f : α → Expr N} (hint : Option Ty) (items : List α)
    (rest : List (Expr N)) (h : ∀ (i : Nat) a, items[i]? = some a →
      ∀ t, settle hint ((items.take i).map f) = some t → (f a).type ≤ t) :
    ∀ a ∈ items, (f a).type ≤ (settle hint (items.map f ++ rest)).getD .error := by
  induction items generalizing hint with
  | nil => exact fun a ha => absurd ha List.not_mem_nil
  | cons first others ih =>
    rw [List.forall_mem_cons]
    exact ⟨le_settle_cons _ (h 0 first rfl), ih _ fun i a ha => h (i + 1) a ha⟩

theorem le_settle_last {hint : Option Ty} {outputs : List (Expr N)} {e : Expr N}
    (h : ∀ t, settle hint outputs = some t → e.type ≤ t) :
    e.type ≤ (settle hint (outputs ++ [e])).getD .error := by
  rw [settle_append]
  exact le_settle_cons [] h

/-- What outputs settle depends on their types only. -/
theorem settle_congr {hint : Option Ty} {outputs outputs' : List (Expr N)}
    (h : outputs.map Expr.type = outputs'.map Expr.type) :
    settle hint outputs = settle hint outputs' := by
  have hunify : ∀ (shared : Option Ty) (e : Expr N),
      unifyOutput shared (some e) = shared.or (if e.type = .error then none else some e.type) := by
    intro shared e
    cases shared <;> rfl
  have hsettle : ∀ es : List (Expr N), settle hint es = (es.map Expr.type).foldl
      (fun shared t => shared.or (if t = .error then none else some t)) hint := by
    intro es
    rw [settle, List.foldl_map]
    exact congrArg (fun f => es.foldl f hint) (funext fun s => funext fun e => hunify s e)
  rw [hsettle, hsettle, h]

theorem settle_map {α : Type} {f : α → Expr N} {g : α → α} (h : ∀ a, (f (g a)).type = (f a).type)
    (hint : Option Ty) (items : List α) :
    settle hint ((items.map g).map f) = settle hint (items.map f) := by
  refine settle_congr ?_
  rw [List.map_map, List.map_map, List.map_map]
  exact List.map_congr_left fun a _ => h a

theorem settle_map_concat {α : Type} {f : α → Expr N} {g : α → α} {e e' : Expr N}
    (h : ∀ a, (f (g a)).type = (f a).type) (hlast : e'.type = e.type) (hint : Option Ty)
    (items : List α) :
    settle hint ((items.map g).map f ++ [e']) = settle hint (items.map f ++ [e]) := by
  rw [settle_append, settle_append, settle_map h]
  exact settle_congr (congrArg ([·]) hlast)

theorem settle_mapParts (f : PartMap N) (hint : Option Ty) (es : List (Expr N)) :
    settle hint (es.map (Expr.mapParts f)) = settle hint es :=
  settle_congr (Expr.map_type_mapParts f es)

/-! ## Arguments -/

/-- Pairs written one after the other. -/
def alternate {α : Type} : List (α × α) → List α
  | [] => []
  | (a, b) :: rest => a :: b :: alternate rest

theorem eq_alternate_of_cons {α β : Type} {f : List β → List α} {g : β → α × α} (hnil : f [] = [])
    (hcons : ∀ b rest, f (b :: rest) = (g b).1 :: (g b).2 :: f rest) (bs : List β) :
    f bs = alternate (bs.map g) := by
  induction bs with
  | nil => exact hnil
  | cons b rest ih =>
    rw [hcons, ih]
    rfl

/-- The labels that a raw value spells: one, or a list of one or more. -/
def SpellsLabels [Scalar N] (raw : Json N) (labels : List (Label N)) : Prop :=
  match raw with
  | .array items => items ≠ [] ∧ List.Forall₂ (fun item l => label item = .ok l) items labels
  | single => ∃ l, label single = .ok l ∧ labels = [l]

/-- Whether all labels are of one kind, and none equals an earlier one. -/
def Distinct [Scalar N] (labels : List (Label N)) : Prop :=
  labels.Pairwise fun earlier later => later.type = earlier.type ∧ (later == earlier) = false

/-- The type of items and the length that the arguments of an array check in front of its input ask
for. -/
def arrayCheck? : List (Json N) → Option (Ty × Option Nat)
  | [] => some (.value, none)
  | [item] => (itemType? item).map (·, none)
  | [item, length] => (itemType? item).bind fun t => length.natural?.map fun n => (t, some n)
  | _ => none

/-! ## Expressions -/

/-- In the context, the raw value stands for the expression. -/
inductive Spells [Scalar N] : Context → Json N → Expr N → Prop
  | bare {c : Context} {raw : Json N} (harray : raw.isArray = false) (hobject : raw.isObject = false)
      (hsafe : raw.isSafe = true) (hc : c.Accepts (literalType (.ofJson raw) c.expected)) :
      Spells c raw (.literal c.key (literalType (.ofJson raw) c.expected) (.ofJson raw))
  | literal {c : Context} {raw : Json N} (hsafe : raw.isSafe = true)
      (hc : c.Accepts (literalType (.ofJson raw) c.expected)) :
      Spells c (.call "literal" [raw])
        (.literal c.key (literalType (.ofJson raw) c.expected) (.ofJson raw))
  | var {c : Context} {name : String} {type : Ty} (hlookup : c.lookup name = some type)
      (hc : c.Accepts type) : Spells c (.call "var" [.string name]) (.var c.key type name)
  | letIn {c : Context} {pairs : List (Json N × Json N)} {bindings : List (String × Expr N)}
      {raw : Json N} {result : Expr N} (hne : pairs ≠ []) (hlen : bindings.length = pairs.length)
      (hnames : ∀ (i : Nat) (p : Json N × Json N) (b : String × Expr N),
        pairs[i]? = some p → bindings[i]? = some b →
        p.1 = .string b.1 ∧ isVariableName b.1 = true)
      (hvalues : ∀ (i : Nat) (p : Json N × Json N) (b : String × Expr N),
        pairs[i]? = some p → bindings[i]? = some b →
        Spells (c.child (2 * i + 2) none) p.2 b.2)
      (hresult : Spells (c.childWith (2 * pairs.length + 1) c.expected (Expr.boundTypes bindings))
        raw result) :
      Spells c (.call "let" (alternate pairs ++ [raw])) (.letIn c.key bindings result)
  | coalesce {c : Context} {raws : List (Json N)} {args : List (Expr N)} {type : Ty} (hne : raws ≠ [])
      (hlen : args.length = raws.length)
      (hargs : ∀ (i : Nat) (raw : Json N) (e : Expr N), raws[i]? = some raw → args[i]? = some e →
        Spells (c.child (i + 1) (settle c.outputHint (args.take i))) raw e)
      (htype : (settle c.outputHint args).getD .error = type) (hc : c.Accepts type) :
      Spells c (.call "coalesce" raws) (.coalesce c.key type args)
  | conditional {c : Context} {pairs : List (Json N × Json N)} {branches : List (Expr N × Expr N)}
      {raw : Json N} {otherwise : Expr N} {type : Ty} (hne : pairs ≠ [])
      (hlen : branches.length = pairs.length)
      (htests : ∀ (i : Nat) (p : Json N × Json N) (b : Expr N × Expr N),
        pairs[i]? = some p → branches[i]? = some b →
        Spells (c.child (2 * i + 1) (some .boolean)) p.1 b.1)
      (houtputs : ∀ (i : Nat) (p : Json N × Json N) (b : Expr N × Expr N),
        pairs[i]? = some p → branches[i]? = some b →
        Spells (c.child (2 * i + 2) (settle c.outputHint ((branches.take i).map (·.2)))) p.2 b.2)
      (hotherwise : Spells (c.child (2 * pairs.length + 1)
        (settle c.outputHint (branches.map (·.2)))) raw otherwise)
      (htype : (settle c.outputHint (branches.map (·.2) ++ [otherwise])).getD .error = type)
      (hc : c.Accepts type) :
      Spells c (.call "case" (alternate pairs ++ [raw])) (.conditional c.key type branches otherwise)
  | matching {c : Context} {pairs : List (Json N × Json N)}
      {branches : List (List (Label N) × Expr N)} {rawInput raw : Json N} {input otherwise : Expr N}
      {type : Ty} (hne : pairs ≠ []) (hlen : branches.length = pairs.length)
      (hlabels : ∀ (i : Nat) (p : Json N × Json N) (b : List (Label N) × Expr N),
        pairs[i]? = some p → branches[i]? = some b → SpellsLabels p.1 b.1)
      (hdistinct : Distinct (branches.flatMap (·.1)))
      (houtputs : ∀ (i : Nat) (p : Json N × Json N) (b : List (Label N) × Expr N),
        pairs[i]? = some p → branches[i]? = some b →
        Spells (c.child (2 * i + 3) (settle c.outputHint ((branches.take i).map (·.2)))) p.2 b.2)
      (hinput : Spells (c.child 1 ((branches.flatMap (·.1)).head?.map Label.type)) rawInput input)
      (hotherwise : Spells (c.child (2 * pairs.length + 2)
        (settle c.outputHint (branches.map (·.2)))) raw otherwise)
      (htype : (settle c.outputHint (branches.map (·.2) ++ [otherwise])).getD .error = type)
      (hc : c.Accepts type) :
      Spells c (.call "match" (rawInput :: alternate pairs ++ [raw]))
        (.matching c.key type input branches otherwise)
  | curve {c : Context} {pairs : List (Json N × Json N)} {stops : List (N × Expr N)}
      {rawKind rawInput : Json N} {kind : Interpolation N} {input : Expr N} {type : Ty}
      (hne : pairs ≠ []) (hlen : stops.length = pairs.length)
      (hkind : readInterpolation rawKind = .ok kind)
      (hinput : Spells (c.child 2 (some .number)) rawInput input)
      (hstops : ∀ (i : Nat) (p : Json N × Json N) (s : N × Expr N),
        pairs[i]? = some p → stops[i]? = some s → p.1.number? = some s.1)
      (hascending : (stops.map (·.1)).IsChain fun x y => Scalar.atMost y x = false)
      (houtputs : ∀ (i : Nat) (p : Json N × Json N) (s : N × Expr N),
        pairs[i]? = some p → stops[i]? = some s →
        Spells (c.child (2 * i + 4) (settle c.outputHint ((stops.take i).map (·.2)))) p.2 s.2)
      (htype : (settle c.outputHint (stops.map (·.2))).getD .error = type)
      (hblend : kind.isStep = true ∨ Curve.OutputKind.ofType type ≠ .discrete)
      (hc : c.Accepts type) :
      Spells c (.call "curve" (rawKind :: rawInput :: alternate pairs))
        (.curve c.key type kind input stops)
  | arrayOf {c : Context} {raws : List (Json N)} {item : Ty} {length : Option Nat} {raw : Json N}
      {input : Expr N} (hcheck : arrayCheck? raws = some (item, length))
      (hinput : Spells (c.child (raws.length + 1) (some .value)) raw input)
      (hc : c.Accepts (.array item length)) :
      Spells c (.call "array" (raws ++ [raw])) (.arrayOf c.key item length input)
  | apply {c : Context} {op : Operator} {raws : List (Json N)} {args : List (Expr N)} {type : Ty}
      (hlen : args.length = raws.length)
      (hargs : ∀ (i : Nat) (raw : Json N) (e : Expr N), raws[i]? = some raw → args[i]? = some e →
        Spells (c.child (i + 1) (op.signature.argumentType? i)) raw e)
      (htype : op.signature.resolve? (args.map Expr.type) = some type) (hc : c.Accepts type) :
      Spells c (.call op.symbol raws) (.apply c.key type op args)

end Parse

end MapStyle
