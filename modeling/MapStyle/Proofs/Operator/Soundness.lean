import MapStyle.Proofs.Operator.Connectives
import MapStyle.Proofs.Operator.Matching

/-!
# Operators keep to their signatures

`Operator.apply_yields`: for operands that the signature admits, an operator has a value of the type
that the signature gives, or fails because of the data. The failures of `Operand` cannot come up.
`Operator.run_yields` is the same for operands that still have to be evaluated.
-/

namespace MapStyle

variable {N : Type}

/-! ## Operands -/

namespace Operand

/-- Whether all operands are read one by one, and each that is of the type can be. -/
structure Reads {α : Type} (t : Ty) (read : List (Value N) → Outcome N (List α)) : Prop where
  nil : read [] = .ok []
  cons (v : Value N) : v.Belongs t → ∃ a, ∀ rest,
    read (v :: rest) = read rest >>= fun others => .ok (a :: others)

theorem reads_numbers : Reads .number (numbers : List (Value N) → _) where
  nil := rfl
  cons := by
    rintro _ ⟨x, rfl⟩
    exact ⟨x, fun _ => rfl⟩

theorem reads_strings : Reads .string (strings : List (Value N) → _) where
  nil := rfl
  cons := by
    rintro _ ⟨s, rfl⟩
    exact ⟨s, fun _ => rfl⟩

theorem Reads.yields {α : Type} {t : Ty} {read : List (Value N) → Outcome N (List α)}
    (hread : Reads t read) {operands : List (Value N)} (h : ∀ v ∈ operands, v.Belongs t) :
    Yields (fun _ => True) (read operands) := by
  induction operands with
  | nil =>
    rw [hread.nil]
    trivial
  | cons v rest ih =>
    rw [List.forall_mem_cons] at h
    obtain ⟨a, hcons⟩ := hread.cons v h.1
    rw [hcons]
    exact (ih h.2).bind fun _ _ => trivial

end Operand

/-! ## Assertions, conversions and look-ups -/

namespace Value

theorem assertType_yields (v : Value N) (t : Ty) :
    Yields (fun w => w = v ∧ w.Belongs t) (v.assertType t none) := by
  unfold assertType
  split
  · next h => exact ⟨rfl, belongs_of_type_le h⟩
  · trivial

/-- A value that is asserted to be of a kind without parts is passed on just if it is of this kind. -/
theorem assertType_eq {kind : AssertedKind} (hkind : kind ≠ .object) (v : Value N) :
    v.assertType kind.type none =
      if v.type = kind.type then .ok v else .error (.typeAssertion none kind.type v.type) := by
  have hle : v.type ≤ kind.type ↔ v.type = kind.type := by
    cases kind <;> cases v <;>
      first | exact absurd rfl hkind | exact iff_of_true rfl rfl | exact iff_of_false nofun nofun
  unfold assertType
  simp only [hle]

theorem property_yields (properties : Properties N) (key : String) :
    Yields (fun _ => True) (property properties key) := by
  unfold property
  cases properties.lookup key <;> trivial

theorem atKey_yields (fields : List (String × Value N)) (key : String) :
    Yields (fun _ => True) ((Value.object fields).atKey key none) := by
  unfold atKey
  dsimp only
  cases fields.lookup key <;> trivial

variable [Scalar N]

theorem toNumber_yields (v : Value N) : Yields (fun _ => True) v.toNumber := by
  unfold toNumber
  split <;> trivial

theorem toText_yields (v : Value N) : Yields (fun _ => True) v.toText := by
  unfold toText
  split <;> trivial

/-- An item that is found is one of the items. -/
theorem itemAt_yields (index : N) (items : List (Value N)) :
    Yields (fun v => v ∈ items) (itemAt index items) := by
  unfold itemAt
  dsimp only
  split
  · split
    · split
      · next h => exact List.mem_of_getElem? h
      · trivial
    · trivial
  · trivial

theorem contains_yields (items : List (Value N)) (needle : Value N) :
    Yields (fun _ => True) (contains items needle) := by
  unfold contains
  split <;> trivial

end Value

theorem Env.readZoom_yields (env : Env N) : Yields (fun _ => True) env.readZoom := by
  unfold Env.readZoom
  split <;> trivial

variable [Scalar N]

theorem Color.ofText_yields (text : String) :
    Yields (fun _ => True) (Color.ofText text : Outcome N (Color N)) := by
  unfold Color.ofText
  split <;> trivial

theorem Color.ofChannels_yields (red green blue : N) (alpha : Option N) :
    Yields (fun _ => True) (Color.ofChannels red green blue alpha) := by
  unfold Color.ofChannels
  dsimp only
  split
  · split <;> trivial
  · trivial

namespace Operator

omit [Scalar N] in
theorem firstOfType_yields (t : Ty) {operands : List (Value N)} (h : operands ≠ []) :
    Yields (fun v => v.Belongs t) (firstOfType t operands) := by
  fun_induction firstOfType t operands with
  | case1 => exact absurd rfl h
  | case2 last => exact (Value.assertType_yields last t).mono fun w hw => hw.2
  | case3 v rest hrest hle => exact Value.belongs_of_type_le hle
  | case4 v rest hrest hle ih => exact ih (by simpa using hrest)

theorem firstNumber_yields (operands : List (Value N)) :
    Yields (fun _ => True) (firstNumber operands) := by
  fun_induction firstNumber operands with
  | case1 => exact Value.toNumber_yields _
  | case2 last => exact Value.toNumber_yields last
  | case3 => trivial
  | case4 _ _ _ _ ih => exact ih

theorem firstColor_yields {operands : List (Value N)} (h : operands ≠ []) :
    Yields (fun _ => True) (firstColor operands) := by
  fun_induction firstColor operands with
  | case1 => exact absurd rfl h
  | case2 => trivial
  | case3 v here failure hfail =>
    cases v with
    | color c =>
      have hok : here = .ok c := rfl
      rw [hok] at hfail
      cases hfail
    | string s => exact (Color.ofText_yields s).of_error hfail
    | _ =>
      obtain rfl := Except.error.inj hfail
      trivial
  | case4 v rest _ _ _ hrest ih => exact ih (by simpa using hrest)

/-! ## Application -/

theorem compare_yields (o : Order) {operands : List (Value N)} {t : Ty}
    (h : (signature (.order o)).Admits operands t) :
    Yields (fun _ => True) (o.compare operands) := by
  obtain ⟨bound, hv, rfl⟩ := Signature.Admits.either h
  rcases hv with hv | hv
  · rcases hv with _ | ⟨⟨a, rfl⟩, _ | ⟨⟨b, rfl⟩, _ | _⟩⟩
    trivial
  · rcases hv with _ | ⟨⟨a, rfl⟩, _ | ⟨⟨b, rfl⟩, _ | _⟩⟩
    trivial

theorem apply_yields (op : Operator) (env : Env N) {operands : List (Value N)} {t : Ty}
    (h : op.signature.Admits operands t) (hlazy : op.isLazy = false) :
    Yields (fun v => v.Belongs t) (op.apply env operands) := by
  cases op with
  | constant c =>
    obtain ⟨bound, hv, rfl⟩ := h.fixed
    exact ⟨_, rfl⟩
  | typeOf =>
    obtain ⟨bound, hv, rfl⟩ := h.fixed
    exact ⟨_, rfl⟩
  | assertion kind =>
    obtain ⟨bound, hne, -, rfl⟩ := h.some
    exact firstOfType_yields kind.type hne
  | toText =>
    obtain ⟨bound, hv, rfl⟩ := h.fixed
    exact (Value.toText_yields _).bind fun _ _ => ⟨_, rfl⟩
  | toNumber =>
    obtain ⟨bound, hv, -, rfl⟩ := h.some
    exact (firstNumber_yields operands).bind fun _ _ => ⟨_, rfl⟩
  | toBoolean =>
    obtain ⟨bound, hv, rfl⟩ := h.fixed
    exact ⟨_, rfl⟩
  | toChannels =>
    obtain ⟨bound, hv, rfl⟩ := h.fixed
    rcases hv with _ | ⟨⟨c, rfl⟩, _ | _⟩
    refine ⟨_, rfl, ?_, fun n hn => Option.some.inj hn⟩
    intro w hw
    obtain ⟨x, -, rfl⟩ := List.mem_map.mp hw
    exact ⟨x, rfl⟩
  | toColor =>
    obtain ⟨bound, hne, -, rfl⟩ := h.some
    exact (firstColor_yields hne).bind fun _ _ => ⟨_, rfl⟩
  | rgb =>
    obtain ⟨bound, hv, rfl⟩ := h.fixed
    rcases hv with _ | ⟨⟨r, rfl⟩, _ | ⟨⟨g, rfl⟩, _ | ⟨⟨b, rfl⟩, _ | _⟩⟩⟩
    exact (Color.ofChannels_yields r g b none).bind fun _ _ => ⟨_, rfl⟩
  | rgba =>
    obtain ⟨bound, hv, rfl⟩ := h.fixed
    rcases hv with _ | ⟨⟨r, rfl⟩, _ | ⟨⟨g, rfl⟩, _ | ⟨⟨b, rfl⟩, _ | ⟨⟨a, rfl⟩, _ | _⟩⟩⟩⟩
    exact (Color.ofChannels_yields r g b (some a)).bind fun _ _ => ⟨_, rfl⟩
  | get =>
    obtain ⟨bound, hv, rfl⟩ := h.either
    rcases hv with hv | hv
    · rcases hv with _ | ⟨⟨key, rfl⟩, _ | _⟩
      exact (Value.property_yields _ key).mono fun _ _ => trivial
    · rcases hv with _ | ⟨⟨key, rfl⟩, _ | ⟨⟨fields, rfl⟩, _ | _⟩⟩
      exact (Value.atKey_yields fields key).mono fun _ _ => trivial
  | has =>
    obtain ⟨bound, hv, rfl⟩ := h.either
    rcases hv with hv | hv
    · rcases hv with _ | ⟨⟨key, rfl⟩, _ | _⟩
      exact ⟨_, rfl⟩
    · rcases hv with _ | ⟨⟨key, rfl⟩, _ | ⟨⟨fields, rfl⟩, _ | _⟩⟩
      exact ⟨_, rfl⟩
  | item =>
    obtain ⟨bound, hv, rfl⟩ := h.fixed
    rcases hv with _ | ⟨⟨index, rfl⟩, _ | ⟨⟨items, rfl, hitems, -⟩, _ | _⟩⟩
    exact (Value.itemAt_yields index items).mono hitems
  | length =>
    obtain ⟨bound, hv, rfl⟩ := h.either
    rcases hv with hv | hv
    · rcases hv with _ | ⟨⟨s, rfl⟩, _ | _⟩
      exact ⟨_, rfl⟩
    · rcases hv with _ | ⟨⟨items, rfl, -⟩, _ | _⟩
      exact ⟨_, rfl⟩
  | contains =>
    obtain ⟨bound, hv, rfl⟩ := h.fixed
    rcases hv with _ | ⟨⟨items, rfl, -⟩, _ | ⟨-, _ | _⟩⟩
    exact (Value.contains_yields items _).bind fun _ _ => ⟨_, rfl⟩
  | properties =>
    obtain rfl := h.result_eq
    exact ⟨_, rfl⟩
  | geometryType =>
    obtain rfl := h.result_eq
    exact ⟨_, rfl⟩
  | id =>
    obtain rfl := h.result_eq
    trivial
  | zoom =>
    obtain rfl := h.result_eq
    exact (Env.readZoom_yields env).bind fun _ _ => ⟨_, rfl⟩
  | sum | product | least | greatest =>
    obtain ⟨bound, -, hv, rfl⟩ := h.some
    exact (Operand.reads_numbers.yields hv).bind fun _ _ => ⟨_, rfl⟩
  | minus =>
    obtain ⟨bound, hv, rfl⟩ := h.either
    rcases hv with hv | hv
    · rcases hv with _ | ⟨⟨a, rfl⟩, _ | ⟨⟨b, rfl⟩, _ | _⟩⟩
      exact ⟨_, rfl⟩
    · rcases hv with _ | ⟨⟨a, rfl⟩, _ | _⟩
      exact ⟨_, rfl⟩
  | divide | remainder | power =>
    obtain ⟨bound, hv, rfl⟩ := h.fixed
    rcases hv with _ | ⟨⟨a, rfl⟩, _ | ⟨⟨b, rfl⟩, _ | _⟩⟩
    exact ⟨_, rfl⟩
  | math f =>
    obtain ⟨bound, hv, rfl⟩ := h.fixed
    rcases hv with _ | ⟨⟨a, rfl⟩, _ | _⟩
    exact ⟨_, rfl⟩
  | equal | unequal =>
    obtain rfl := h.result_eq
    exact ⟨_, rfl⟩
  | order o =>
    obtain rfl := h.result_eq
    exact (compare_yields o h).bind fun _ _ => ⟨_, rfl⟩
  | not =>
    obtain ⟨bound, hv, rfl⟩ := h.fixed
    rcases hv with _ | ⟨⟨a, rfl⟩, _ | _⟩
    exact ⟨_, rfl⟩
  | and | or => cases hlazy
  | upper | lower =>
    obtain ⟨bound, hv, rfl⟩ := h.fixed
    rcases hv with _ | ⟨⟨a, rfl⟩, _ | _⟩
    exact ⟨_, rfl⟩
  | concat =>
    obtain ⟨bound, -, hv, rfl⟩ := h.some
    exact (Operand.reads_strings.yields hv).bind fun _ _ => ⟨_, rfl⟩
  | raise =>
    obtain ⟨bound, hv, rfl⟩ := h.fixed
    rcases hv with _ | ⟨⟨a, rfl⟩, _ | _⟩
    trivial

/-! ## Evaluating operands -/

section

variable {env : Env N} {operands : List (Eval N (Value N))}

omit [Scalar N] in
theorem report_yields {α : Type} {P : α → Prop} {x : Outcome N α} (h : Yields P x) :
    Yields P ((report x : Eval N α) env) := by
  cases x with
  | ok a => exact h
  | error failure => exact h

omit [Scalar N] in
theorem evalAll_yields {types : List Ty}
    (h : List.Forall₂ (fun o t => Yields (fun v => v.Belongs t) (o env)) operands types) :
    Yields (fun vs => List.Forall₂ (fun v t => Value.Belongs v t) vs types)
      (evalAll operands env) := by
  induction h with
  | nil => exact .nil
  | cons ho _ ih =>
    refine Yields.bind_eval ho fun v hv => ?_
    exact Yields.bind_eval ih fun vs hvs => .cons hv hvs

omit [Scalar N] in
/-- The operands of `&&` and `||` are booleans. -/
theorem lazy_operands_yield {op : Operator} (hlazy : op.isLazy = true) {types : List Ty} {t : Ty}
    (hop : op.signature.resolve? types = some t)
    (h : List.Forall₂ (fun o t => Yields (fun v => Value.Belongs v t) (o env)) operands types) :
    t = .boolean ∧ ∀ o ∈ operands, Yields (fun v => v.Belongs .boolean) (o env) := by
  obtain ⟨stop, rfl⟩ := exists_shortCircuit hlazy
  obtain ⟨o, ho, bound, -, hle, ht⟩ := Signature.resolve?_sound hop
  rw [signature_shortCircuit] at ho ht
  obtain rfl := List.mem_singleton.mp ho
  have hall : List.Forall₂ (fun (o : Eval N (Value N)) (p : Pattern) =>
      Yields (fun v => v.Belongs (p.resolve bound)) (o env)) operands
      (List.replicate types.length .boolean) :=
    forall₂_comp h hle fun _ _ _ ho hle => ho.mono fun _ hv => hv.mono hle
  have hboolean := forall_of_forall₂_replicate hall
  exact ⟨ht, hboolean⟩

theorem run_eq_apply {m : Type → Type} [Monad m] [MonadExceptOf (Failure N) m] {op : Operator}
    (hlazy : op.isLazy = false) (env : Env N) (operands : List (m (Value N))) :
    op.run env operands = (do report (op.apply env (← evalAll operands))) := by
  cases op <;> first | rfl | cases hlazy

/-- An operator that its signature types has a value of that type, if it has one, and fails only
because of the data. -/
theorem run_yields (op : Operator) {types : List Ty} {t : Ty}
    (hop : op.signature.resolve? types = some t)
    (h : List.Forall₂ (fun o t => Yields (fun v => v.Belongs t) (o env)) operands types) :
    Yields (fun v => v.Belongs t) (op.run env operands env) := by
  cases hlazy : op.isLazy with
  | false =>
    rw [run_eq_apply hlazy]
    refine Yields.bind_eval (evalAll_yields h) fun vs hvs => ?_
    exact report_yields (apply_yields op env (Signature.admits_of_resolve? hop hvs) hlazy)
  | true =>
    obtain ⟨rfl, hboolean⟩ := lazy_operands_yield hlazy hop h
    obtain ⟨stop, rfl⟩ := exists_shortCircuit hlazy
    rw [run_shortCircuit]
    exact Yields.bind_eval (stopAt_yields stop hboolean) fun _ _ => ⟨_, rfl⟩

end

end Operator

end MapStyle
