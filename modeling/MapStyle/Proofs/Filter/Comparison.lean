import MapStyle.Proofs.Binary64.Order
import MapStyle.Proofs.Filter.Subject

/-!
# Comparisons in filters

A comparison with an operand passes the features for which what it refers to stands in the relation
with the operand: `Filter.passes_equality` for equality, and `Filter.passes_order` for the orders, in
which only numbers and strings stand, each among their kind. Null is an operand of its own: what is
compared is not the value but the name of its kind, which an order can hold of without any null
(`Filter.exists_boolean_below_null`).
-/

namespace MapStyle

variable {N : Type}

/-! ## Orders -/

namespace Order

/-- Whether two things stand in an order, told by what is below and what is equal. -/
def Among {α : Type} (below equal : α → α → Prop) : Order → α → α → Prop
  | .less, a, b => below a b
  | .greater, a, b => below b a
  | .atMost, a, b => below a b ∨ equal a b
  | .atLeast, a, b => below b a ∨ equal b a

variable [Scalar N]

/-- Whether two values stand in an order: two numbers, in numeric order, or two strings, in that of
their code points. -/
def Relates (o : Order) : Value N → Value N → Prop
  | .number a, .number b => o.Among (fun x y => Scalar.less x y = true) (fun x y => (x == y) = true) a b
  | .string a, .string b => o.Among (· < ·) (· = ·) a b
  | _, _ => False

theorem numbers_iff [LawfulComparison N] (o : Order) (a b : N) : o.numbers a b = true ↔
    o.Among (fun x y => Scalar.less x y = true) (fun x y => (x == y) = true) a b := by
  cases o with
  | less | greater => exact Iff.rfl
  | atMost | atLeast => exact Scalar.atMost_iff_less_or_beq

theorem strings_iff (o : Order) (a b : String) :
    o.strings a b = true ↔ o.Among (· < ·) (· = ·) a b := by
  have hnot (s t : String) : (!decide (s < t)) = true ↔ t < s ∨ t = s := by
    rw [Bool.not_eq_true', decide_eq_false_iff_not, String.not_lt]
    exact Std.le_iff_lt_or_eq
  cases o with
  | less | greater => exact decide_eq_true_iff
  | atMost => exact hnot b a
  | atLeast => exact hnot a b

/-- The order of two values, where they have one. -/
theorem compare_eq_some_true_iff [LawfulComparison N] (o : Order) (v w : Value N) :
    (o.compare [v, w]).toOption = some true ↔ o.Relates v w := by
  cases v with
  | number a =>
    cases w with
    | number b => exact Option.some_inj.trans (o.numbers_iff a b)
    | _ => exact iff_of_false nofun id
  | string a =>
    cases w with
    | string b => exact Option.some_inj.trans (o.strings_iff a b)
    | _ => exact iff_of_false nofun id
  | _ => exact iff_of_false nofun id

end Order

namespace Filter

open Parse

variable [Scalar N] {name : String} {raw : Json N}

/-! ## Operands -/

/-- The raw values that are null, a boolean, a number or a string. -/
inductive IsPlain : Json N → Prop
  | null : IsPlain .null
  | boolean (b : Bool) : IsPlain (.boolean b)
  | integer (n : Int) : IsPlain (.integer n)
  | real (x : N) : IsPlain (.real x)
  | string (s : String) : IsPlain (.string s)

/-- Whether a raw value can be compared with: a number has to be small enough to be exact. -/
structure IsOperand (raw : Json N) : Prop where
  plain : IsPlain raw
  isSafe_eq : raw.isSafe = true

section

omit [Scalar N]

theorem IsPlain.isArray_eq (h : IsPlain raw) : raw.isArray = false := by
  cases h <;> rfl

theorem IsPlain.isObject_eq (h : IsPlain raw) : raw.isObject = false := by
  cases h <;> rfl

/-- A plain value is null, or has a kind that can be asserted. -/
theorem IsPlain.null_or_kind (h : IsPlain raw) : raw = .null ∨ ∃ kind : AssertedKind,
    kind ≠ .object ∧ kindOf raw = some (Operator.assertion kind).symbol := by
  cases h with
  | null => exact .inl rfl
  | boolean b => exact .inr ⟨.boolean, nofun, rfl⟩
  | integer n => exact .inr ⟨.number, nofun, rfl⟩
  | real x => exact .inr ⟨.number, nofun, rfl⟩
  | string s => exact .inr ⟨.string, nofun, rfl⟩

theorem isNull_eq_of_kindOf {symbol : String} (h : kindOf raw = some symbol) : raw.isNull = false := by
  cases raw with
  | null => cases h
  | _ => rfl

end

/-- The kind of a value is that of its type. -/
theorem type_of_kindOf {kind : AssertedKind} (hkind : kind ≠ .object)
    (h : kindOf raw = some (Operator.assertion kind).symbol) :
    (Value.ofJson raw).type = kind.type := by
  have hsymbol := congrArg (Option.map Operator.ofSymbol?) h
  rw [Option.map_some, Operator.ofSymbol?_symbol] at hsymbol
  cases raw with
  | null => cases hsymbol
  | array | object =>
    cases hsymbol
    exact absurd rfl hkind
  | _ =>
    cases hsymbol
    rfl

/-- Whether an operator takes two values of one type and answers as `answers` does, where this has an
answer. -/
structure IsComparison (op : Operator) (answers : Value N → Value N → Option Bool) : Prop where
  strict : op.isLazy = false
  argument (i : Nat) : op.signature.argumentType? i = none
  strings : op.signature.resolve? [.string, .string] = some .boolean
  apply (env : Env N) (v w : Value N) :
    (op.apply env [v, w]).toOption = (answers v w).map .boolean

theorem isComparison_equal : IsComparison (N := N) .equal fun v w => some (v == w) where
  strict := rfl
  argument _ := rfl
  strings := rfl
  apply _ _ _ := rfl

theorem isComparison_order (o : Order) :
    IsComparison (N := N) (.order o) fun v w => (o.compare [v, w]).toOption where
  strict := rfl
  argument _ := rfl
  strings := rfl
  apply _ v w := by
    show (Except.bind (o.compare [v, w]) _).toOption = _
    cases o.compare [v, w] <;> rfl

variable {op : Operator} {answers : Value N → Value N → Option Bool}

/-- What a comparison with an operand answers for a value. Null is told from the name of the kind, and
any other operand is compared with values of its kind. -/
def compared (answers : Value N → Value N → Option Bool) (raw : Json N) (v : Value N) : Option Bool :=
  if raw.isNull then answers (.string v.kindName) (.string "Null")
  else if v.type = (Value.ofJson raw).type then answers v (.ofJson raw) else none

/-- Whether a value is null is told by comparing the name of its kind. -/
theorem decides_nullTest (hop : IsComparison op answers) {c : Context} (hc : c.Accepts .boolean)
    {values : Env N → Option (Value N)}
    (h : Denotes ((c.child 1 none).child 1 (some .value)) raw .value values) :
    Decides c (isNullTest op.symbol raw) fun env => (values env).bind (compared answers .null) := by
  have hkind : Denotes (N := N) (c.child 1 none) (.call "typeof" [raw]) .string fun env =>
      (values env).bind fun v => some (.string v.kindName) :=
    Denotes.unary .typeOf rfl h rfl nofun
  have hnull : Denotes (N := N) (c.child 2 none) (.string "Null") .string
      fun _ => some (.string "Null") := denotes_bare rfl rfl rfl nofun
  rw [← hop.argument 0] at hkind
  rw [← hop.argument 1] at hnull
  refine (Denotes.binary op hop.strict hkind hnull hop.strings hc).congr fun env => ?_
  beta_reduce
  cases values env with
  | none => rfl
  | some v => exact hop.apply env _ _

/-- What is asserted to be of the kind of an operand is compared with it. -/
theorem decides_kindTest (hop : IsComparison op answers) (hname : name ≠ "$type") (hraw : IsOperand raw)
    {kind : AssertedKind} (hkind : kind ≠ .object)
    (hof : kindOf raw = some (Operator.assertion kind).symbol)
    (htype : op.signature.resolve? [kind.type, kind.type] = some .boolean) {c : Context}
    (hc : c.Accepts .boolean) :
    Decides c (.call op.symbol [reference (.string name) (kindOf raw), raw])
      fun env => (subject name env.feature).bind (compared answers raw) := by
  have hty := type_of_kindOf hkind hof
  have hsubject : Denotes (N := N) (c.child 1 none) (reference (.string name) (kindOf raw)) kind.type
      fun env => (subject name env.feature).filter fun v => v.type = kind.type :=
    hof ▸ denotes_asserted hname hkind nofun
  have hoperand : Denotes (N := N) (c.child 2 none) raw (Value.ofJson raw).type
      fun _ => some (.ofJson raw) :=
    denotes_bare hraw.plain.isArray_eq hraw.plain.isObject_eq hraw.isSafe_eq nofun
  rw [← hop.argument 0] at hsubject
  rw [← hop.argument 1, hty] at hoperand
  refine (Denotes.binary op hop.strict hsubject hoperand htype hc).congr fun env => ?_
  beta_reduce
  cases subject name env.feature with
  | none => rfl
  | some v =>
    rw [Option.filter_some, Option.bind_some]
    unfold compared
    rw [isNull_eq_of_kindOf hof, if_neg Bool.false_ne_true, hty]
    by_cases hv : v.type = kind.type
    · rw [if_pos (decide_eq_true hv), if_pos hv]
      exact hop.apply env _ _
    · rw [if_neg (by simpa using hv), if_neg hv]
      rfl

omit [Scalar N] in
theorem comparison_of_kindOf {symbol kind : String} {property : Json N} (h : kindOf raw = some kind) :
    comparison symbol property raw =
      orElse (.call symbol [reference property (kindOf raw), raw]) (symbol == "!=") := by
  cases raw with
  | null => cases h
  | _ => rfl

/-- What a comparison stands for answers as the comparison of what it refers to. -/
theorem decides_comparison (hop : IsComparison op answers) (hname : name ≠ "$type")
    (hraw : IsOperand raw) (htype : ∀ kind : AssertedKind, kind ≠ .object →
      kindOf raw = some (Operator.assertion kind).symbol →
      op.signature.resolve? [kind.type, kind.type] = some .boolean)
    (key : Path) : Decides (.test key) (comparison op.symbol (.string name) raw) fun env =>
      some (((subject name env.feature).bind (compared answers raw)).getD (op.symbol == "!=")) := by
  have hc : (Context.test (key ++ [1])).Accepts .boolean := Context.accepts_expected rfl
  obtain rfl | ⟨kind, hkind, hof⟩ := hraw.plain.null_or_kind
  · exact (decides_nullTest hop hc (denotes_reference hname (Context.accepts_expected rfl))).orElse _
  · rw [comparison_of_kindOf hof]
    exact (decides_kindTest hop hname hraw hkind hof (htype kind hkind hof) hc).orElse _

/-! ## Equality -/

theorem compared_equal (hraw : IsPlain raw) (v : Value N) :
    (compared (fun v w => some (v == w)) raw v).getD false = (v == Value.ofJson raw) := by
  unfold compared
  cases hraw <;> cases v <;> rfl

/-- What an equality with an operand stands for tells whether what it refers to equals the operand. -/
theorem decides_equality (hname : name ≠ "$type") (hraw : IsOperand raw) (key : Path) :
    Decides (.test key) (comparison "==" (.string name) raw) fun env =>
      some ((subject name env.feature).any fun v => v == Value.ofJson raw) := by
  have htype : ∀ kind : AssertedKind, kind ≠ .object →
      Operator.equal.signature.resolve? [kind.type, kind.type] = some .boolean := by
    intro kind hkind
    cases kind with
    | object => exact absurd rfl hkind
    | _ => rfl
  refine (decides_comparison isComparison_equal hname hraw (fun kind hkind _ => htype kind hkind)
    key).congr fun env => ?_
  cases subject name env.feature with
  | none => rfl
  | some v => exact congrArg some (compared_equal hraw.plain v)

/-- What equals a plain value is of its kind and equals itself, and has no parts. -/
theorem of_beq_plain [LawfulOrder N] (hraw : IsPlain raw) {v : Value N}
    (h : (v == Value.ofJson raw) = true) :
    v.type = (Value.ofJson raw).type ∧ (v == v) = true ∧ v.isPrimitive = true := by
  cases hraw with
  | null =>
    cases v with
    | null => exact ⟨rfl, rfl, rfl⟩
    | _ => cases h
  | boolean b =>
    cases v with
    | boolean b' => exact ⟨rfl, beq_self_eq_true b', rfl⟩
    | _ => cases h
  | string s =>
    cases v with
    | string s' => exact ⟨rfl, beq_self_eq_true s', rfl⟩
    | _ => cases h
  | integer | real =>
    cases v with
    | number x => exact ⟨rfl, Scalar.self_of_beq h, rfl⟩
    | _ => cases h

/-- An equality can be built with every operand, and passes the features for which what it refers to is
there and equals the operand in kind and value: none where it is of another kind, differs from itself
as what is not a number does, or has parts. -/
theorem passes_equality [LawfulOrder N] (hname : name ≠ "$type") (hraw : IsOperand raw) :
    ∃ filter, ofJson (.call "==" [.string name, raw]) = .ok filter ∧
      (∀ feature, filter.passes feature = true ↔
        ∃ v, subject name feature = some v ∧ (v == Value.ofJson raw) = true) ∧
      ∀ feature, (∀ v, subject name feature = some v → v.type ≠ (Value.ofJson raw).type ∨
        (v == v) = false ∨ v.isPrimitive = false) → filter.passes feature = false := by
  have hdecides : ∀ key, Decides (.test key) (lower (.call "==" [.string name, raw])) _ :=
    decides_equality hname hraw
  obtain ⟨filter, hfilter, hanswer⟩ := exists_ofJson_of_decides rfl
    (fun feature => (subject name feature).any fun v => v == Value.ofJson raw) hdecides
  have hpasses : ∀ feature, filter.passes feature = true ↔
      ∃ v, subject name feature = some v ∧ (v == Value.ofJson raw) = true := by
    intro feature
    rw [hanswer, Option.any_eq_true]
  refine ⟨filter, hfilter, hpasses, fun feature hnone => Bool.eq_false_iff.mpr fun htrue => ?_⟩
  obtain ⟨v, hv, heq⟩ := (hpasses feature).mp htrue
  obtain ⟨htype, hself, hprimitive⟩ := of_beq_plain hraw.plain heq
  rcases hnone v hv with h | h | h
  · exact h htype
  · rw [hself] at h
    cases h
  · rw [hprimitive] at h
    cases h

theorem passes_equality_id : ∃ filter : Filter Float,
    ofJson (.call "==" [.string "$id", .integer 12]) = .ok filter ∧
      ∀ feature, filter.passes feature = (feature.id == .number (Scalar.ofInt 12)) := by
  have hraw : IsOperand (.integer 12 : Json Float) := ⟨.integer 12, rfl⟩
  have hname : "$id" ≠ "$type" := by decide
  obtain ⟨filter, hfilter, hpasses, -⟩ := passes_equality hname hraw
  refine ⟨filter, hfilter, fun feature => ?_⟩
  have hsubject : subject "$id" feature = some feature.id := rfl
  rw [Bool.eq_iff_iff, hpasses, hsubject]
  exact ⟨fun ⟨_, hv, h⟩ => Option.some.inj hv ▸ h, fun h => ⟨_, rfl, h⟩⟩

/-! ## Orders -/

theorem type_eq_of_relates {o : Order} {v w : Value N} (h : o.Relates v w) : v.type = w.type := by
  cases v with
  | number =>
    cases w with
    | number => rfl
    | _ => exact h.elim
  | string =>
    cases w with
    | string => rfl
    | _ => exact h.elim
  | _ => exact h.elim

theorem compared_order_iff [LawfulComparison N] (o : Order) (v : Value N) :
    compared (fun v w => (o.compare [v, w]).toOption) raw v = some true ↔
      if raw.isNull then o.Among (· < ·) (· = ·) v.kindName "Null"
      else o.Relates v (Value.ofJson raw) := by
  unfold compared
  cases raw.isNull with
  | true => exact o.compare_eq_some_true_iff (.string v.kindName : Value N) (.string "Null")
  | false =>
    rw [if_neg Bool.false_ne_true, if_neg Bool.false_ne_true]
    by_cases htype : v.type = (Value.ofJson raw).type
    · rw [if_pos htype]
      exact o.compare_eq_some_true_iff v (Value.ofJson raw)
    · rw [if_neg htype]
      exact iff_of_false nofun fun h => htype (type_eq_of_relates h)

omit [Scalar N] in
theorem lower_order (o : Order) (property value : Json N) :
    lower (.call (Operator.order o).symbol [property, value]) =
      comparison (Operator.order o).symbol property value := by
  cases o <;> rfl

/-- What an order with an operand that is no boolean stands for, where it holds. -/
theorem decides_order (o : Order) (hname : name ≠ "$type") (hraw : IsOperand raw)
    (hboolean : ∀ b, raw ≠ .boolean b) (key : Path) :
    Decides (.test key) (comparison (Operator.order o).symbol (.string name) raw) fun env =>
      some (((subject name env.feature).bind
        (compared (fun v w => (o.compare [v, w]).toOption) raw)).getD false) := by
  have hother : ((Operator.order o).symbol == "!=") = false := by
    cases o <;> rfl
  rw [← hother]
  refine decides_comparison (isComparison_order o) hname hraw (fun kind hkind hof => ?_) key
  rw [← type_of_kindOf hkind hof]
  cases hraw.plain with
  | null => cases hof
  | boolean b => exact absurd rfl (hboolean b)
  | _ => rfl

/-- An order can be built with null, a string or a number, and passes the features for which what it
refers to is there and stands in the order to the operand, both numbers or both strings. With null it is
the names of kinds that stand in the order. -/
theorem passes_order [LawfulComparison N] (o : Order) (hname : name ≠ "$type") (hraw : IsOperand raw)
    (hboolean : ∀ b, raw ≠ .boolean b) :
    ∃ filter, ofJson (.call (Operator.order o).symbol [.string name, raw]) = .ok filter ∧
      ∀ feature, filter.passes feature = true ↔ ∃ v, subject name feature = some v ∧
        if raw.isNull then o.Among (· < ·) (· = ·) v.kindName "Null"
        else o.Relates v (Value.ofJson raw) := by
  have hdecides := decides_order o hname hraw hboolean
  rw [← lower_order] at hdecides
  obtain ⟨filter, hfilter, hanswer⟩ := exists_ofJson_of_decides rfl (fun feature =>
    ((subject name feature).bind (compared (fun v w => (o.compare [v, w]).toOption) raw)).getD false)
    hdecides
  refine ⟨filter, hfilter, fun feature => ?_⟩
  have hgetD (answer : Option Bool) : answer.getD false = true ↔ answer = some true := by
    cases answer with
    | none => exact iff_of_false nofun nofun
    | some b => exact Option.some_inj.symm
  rw [hanswer, hgetD, Option.bind_eq_some_iff]
  exact exists_congr fun v => and_congr_right fun _ => compared_order_iff o v

theorem passes_order_rank : ∃ filter : Filter Float,
    ofJson (.call ">=" [.string "rank", .integer 3]) = .ok filter ∧
      ∀ feature, filter.passes feature = true ↔ ∃ v, subject "rank" feature = some v ∧
        Order.atLeast.Relates v (.number (Scalar.ofInt 3)) := by
  have hraw : IsOperand (.integer 3 : Json Float) := ⟨.integer 3, rfl⟩
  exact passes_order .atLeast (by decide) hraw nofun

/-- Every boolean is below null, since the names of their kinds are. -/
theorem exists_boolean_below_null : ∃ filter : Filter Float,
    ofJson (.call "<" [.string "class", .null]) = .ok filter ∧
      filter.passes ⟨[("class", .boolean true)], .null, .point⟩ = true :=
  ⟨_, rfl, rfl⟩

end Filter

end MapStyle
