import MapStyle.Proofs.Filter.Comparison

/-!
# Membership in filters

A membership is lowered in one of four ways, by the kinds of its values: `false`, a test for null, a
membership of an asserted kind, or a disjunction over a variable. `Filter.any_eq_any_groups` puts the
values back together from the null among them and the groups by kind. So in all four ways a membership
passes the features that some equality with one of the values passes, and it can be built exactly when
these can (`Filter.passes_membership`).
-/

namespace MapStyle

variable {N : Type}

/-! ## Values by kind -/

theorem itemsSafe_eq_all [Scalar N] (items : List (Json N)) :
    Json.itemsSafe items = items.all Json.isSafe := by
  induction items with
  | nil => rfl
  | cons item rest ih => rw [Json.itemsSafe, ih, List.all_cons]

theorem Value.ofItems_eq_map [Scalar N] (items : List (Json N)) :
    ofItems items = items.map ofJson :=
  eq_map_of_cons rfl (fun _ _ => rfl) items

namespace Filter

open Parse

variable {name : String} {raw : Json N} {values : List (Json N)}

theorem mem_ofKind {kind : String} {v : Json N} :
    v ∈ ofKind kind values ↔ v ∈ values ∧ kindOf v = some kind := by
  unfold ofKind
  rw [List.mem_filter, beq_iff_eq]

theorem mem_groups {group : String × List (Json N)} : group ∈ groups values ↔
    ∃ kind : AssertedKind, kind ≠ .object ∧ group.1 = (Operator.assertion kind).symbol ∧
      group.2 = ofKind group.1 values ∧ group.2 ≠ [] := by
  unfold groups
  rw [List.mem_filter, List.mem_map, Bool.not_eq_true', List.isEmpty_eq_false_iff]
  constructor
  · rintro ⟨⟨symbol, hsymbol, rfl⟩, hne⟩
    simp only [List.mem_cons, List.not_mem_nil, or_false] at hsymbol
    obtain rfl | rfl | rfl := hsymbol
    · exact ⟨.string, nofun, rfl, rfl, hne⟩
    · exact ⟨.number, nofun, rfl, rfl, hne⟩
    · exact ⟨.boolean, nofun, rfl, rfl, hne⟩
  · rintro ⟨kind, hkind, hsymbol, hmembers, hne⟩
    refine ⟨⟨group.1, ?_, Prod.ext rfl hmembers.symm⟩, hne⟩
    rw [hsymbol]
    cases kind with
    | object => exact absurd rfl hkind
    | _ => decide

/-- Every value is null or in a group. -/
theorem null_or_exists_group (hplain : ∀ v ∈ values, IsPlain v) {v : Json N} (hv : v ∈ values) :
    v = .null ∨ ∃ group ∈ groups values, v ∈ group.2 := by
  refine (hplain v hv).null_or_kind.imp_right fun ⟨kind, hkind, hof⟩ => ?_
  have hmem := mem_ofKind.mpr ⟨hv, hof⟩
  exact ⟨(_, _), mem_groups.mpr ⟨kind, hkind, rfl, rfl, List.ne_nil_of_mem hmem⟩, hmem⟩

/-- What holds of some value holds of null among them or of one in a group. -/
theorem any_eq_any_groups (hplain : ∀ v ∈ values, IsPlain v) (p : Json N → Bool) :
    values.any p = ((values.any Json.isNull && p .null) ||
      (groups values).any fun group => group.2.any p) := by
  rw [Bool.eq_iff_iff, Bool.or_eq_true, Bool.and_eq_true]
  simp only [List.any_eq_true]
  constructor
  · rintro ⟨v, hv, hp⟩
    obtain rfl | ⟨group, hgroup, hmem⟩ := null_or_exists_group hplain hv
    · exact .inl ⟨⟨_, hv, rfl⟩, hp⟩
    · exact .inr ⟨group, hgroup, v, hmem, hp⟩
  · rintro (⟨⟨v, hv, hnull⟩, hp⟩ | ⟨group, hgroup, v, hv, hp⟩)
    · cases v with
      | null => exact ⟨_, hv, hp⟩
      | _ => cases hnull
    · obtain ⟨kind, -, -, hmembers, -⟩ := mem_groups.mp hgroup
      rw [hmembers] at hv
      exact ⟨v, (mem_ofKind.mp hv).1, hp⟩

variable [Scalar N]

theorem isOperand_of_mem_groups (hoperands : ∀ v ∈ values, IsOperand v)
    {group : String × List (Json N)} (hgroup : group ∈ groups values) :
    ∀ member ∈ group.2, IsOperand member := by
  intro member h
  obtain ⟨kind, -, -, hof, -⟩ := mem_groups.mp hgroup
  rw [hof, mem_ofKind] at h
  exact hoperands member h.1

/-! ## Members -/

/-- What a list of members answers for a value: whether one of them is equal, if it has no parts. -/
def memberAnswer (members : List (Json N)) (v : Value N) : Option Bool :=
  if v.isPrimitive then some (members.any fun member => v == Value.ofJson member) else none

theorem beq_plain_comm [LawfulOrder N] (h : IsPlain raw) (v : Value N) :
    (v == Value.ofJson raw) = (Value.ofJson raw == v) := by
  cases h with
  | null => cases v <;> rfl
  | boolean b =>
    cases v with
    | boolean b' =>
      show (b' == b) = (b == b')
      exact Bool.beq_comm
    | _ => rfl
  | string s =>
    cases v with
    | string s' =>
      show (s' == s) = (s == s')
      exact BEq.comm
    | _ => rfl
  | integer | real =>
    cases v with
    | number x => exact Scalar.beq_comm _ _
    | _ => rfl

/-- A value with parts equals no member. -/
theorem getD_memberAnswer [LawfulOrder N] {members : List (Json N)}
    (hplain : ∀ member ∈ members, IsPlain member) (v : Value N) : (memberAnswer members v).getD false =
      members.any fun member => v == Value.ofJson member := by
  unfold memberAnswer
  cases hprimitive : v.isPrimitive with
  | true => rfl
  | false =>
    refine (List.any_eq_false.mpr fun member hmember heq => ?_).symm
    rw [(of_beq_plain (hplain member hmember) heq).2.2] at hprimitive
    cases hprimitive

theorem resolve?_contains (item : Ty) (length : Option Nat) (t : Ty) :
    Operator.contains.signature.resolve? [.array item length, t] = some .boolean := by
  have hitem : (Pattern.array .value none).unify? [] (.array item length) = some [] := by
    simp [Pattern.unify?, Ty.le_value]
  have hvalue : Pattern.value.unify? [] t = some [] := by
    simp [Pattern.unify?, Ty.le_value]
  have haccept : (Overload.exactly [.array .value none, .value]).accept? [.array item length, t] =
      some [] := by
    show ((Pattern.array .value none).unify? [] (.array item length)).bind
      (fun bound => (Pattern.value.unify? bound t).bind some) = _
    rw [hitem, Option.bind_some, hvalue]
    rfl
  show [Overload.exactly [.array .value none, .value]].findSome? _ = _
  rw [List.findSome?_cons, haccept]
  rfl

/-- A test for members answers for every value without parts. -/
theorem decides_memberTest [LawfulOrder N] {members : List (Json N)} (hne : members ≠ [])
    (hoperands : ∀ member ∈ members, IsOperand member) {c : Context} (hc : c.Accepts .boolean)
    {t : Ty} {subjects : Env N → Option (Value N)}
    (h : Denotes (c.child 2 (some .value)) raw t subjects) :
    Decides c (memberTest members raw) fun env => (subjects env).bind (memberAnswer members) := by
  have hsafe : (Json.array members).isSafe = true := by
    show Json.itemsSafe members = true
    rw [itemsSafe_eq_all, List.all_eq_true]
    exact fun member hmember => (hoperands member hmember).isSafe_eq
  have hitems : Value.ofJson (.array members) = .array (members.map Value.ofJson) :=
    congrArg Value.array (Value.ofItems_eq_map members)
  have hliteral : Denotes (N := N) (c.child 1 (some (.array .value none)))
      (.call "literal" [.array members]) (Value.ofJson (.array members)).type
      fun _ => some (.ofJson (.array members)) := by
    refine denotes_literal (fun hnil => hne ?_) hsafe fun expected hexpected => ?_
    · rw [hitems] at hnil
      exact List.map_eq_nil_iff.mp (Value.array.inj hnil)
    · cases hexpected
      exact Ty.array_le_array.mpr ⟨.inl rfl, Ty.le_value _⟩
  refine (Denotes.binary .contains rfl hliteral h (resolve?_contains _ _ _) hc).congr fun env => ?_
  beta_reduce
  rw [Option.bind_some, hitems]
  cases subjects env with
  | none => rfl
  | some v =>
    show ((Value.contains (members.map Value.ofJson) v).bind _).toOption =
      (memberAnswer members v).map Value.boolean
    unfold Value.contains memberAnswer
    cases v.isPrimitive with
    | false => rfl
    | true =>
      have hany : (members.map Value.ofJson).any (· == v) =
          members.any fun member => v == Value.ofJson member := by
        rw [List.any_map]
        exact any_eq_any_of_forall fun member hmember =>
          (beq_plain_comm (hoperands member hmember).plain v).symm
      rw [hany]
      rfl

/-- The variable that a membership in values of several kinds tests. -/
def input : Json N := .call "var" [.string "input"]

/-- The tests of the variable, for null if it is among the values and for each group, with what they
answer for its value. -/
def groupTests (values : List (Json N)) : List (Json N × (Value N → Option Bool)) :=
  (if values.any Json.isNull then
    [(isNullTest "==" input, compared (fun v w => some (v == w)) .null)] else []) ++
    (groups values).map fun group => (memberTest group.2 input, memberAnswer group.2)

theorem forall_mem_groupTests {P : Json N × (Value N → Option Bool) → Prop}
    (hnull : P (isNullTest "==" input, compared (fun v w => some (v == w)) .null))
    (hgroups : ∀ group ∈ groups values, P (memberTest group.2 input, memberAnswer group.2)) :
    ∀ test ∈ groupTests values, P test := by
  unfold groupTests
  rw [List.forall_mem_append, List.forall_mem_map]
  refine ⟨fun test htest => ?_, hgroups⟩
  split at htest
  · rwa [List.mem_singleton.mp htest]
  · exact absurd htest List.not_mem_nil

/-- The tests as they are written. -/
theorem map_fst_groupTests (values : List (Json N)) : (groupTests values).map Prod.fst =
    (if values.any Json.isNull then [isNullTest "==" input] else []) ++
      (groups values).map fun group => memberTest group.2 input := by
  unfold groupTests
  rw [List.map_append, List.map_map]
  cases values.any Json.isNull <;> rfl

theorem groupTests_ne_nil (hplain : ∀ v ∈ values, IsPlain v) (hne : values ≠ []) :
    groupTests values ≠ [] := by
  obtain ⟨v, hv⟩ := List.exists_mem_of_ne_nil values hne
  unfold groupTests
  obtain rfl | ⟨group, hgroup, -⟩ := null_or_exists_group hplain hv
  · rw [if_pos (List.any_eq_true.mpr ⟨_, hv, rfl⟩)]
    exact List.cons_ne_nil _ _
  · exact List.append_ne_nil_of_right_ne_nil _ (List.ne_nil_of_mem (List.mem_map_of_mem hgroup))

/-- Together the tests tell whether a value equals one of the values. -/
theorem getD_someHolds_groupTests [LawfulOrder N] (hoperands : ∀ v ∈ values, IsOperand v)
    (v : Value N) : (someHolds ((groupTests values).map fun test => test.2 v)).getD false =
      values.any fun member => v == Value.ofJson member := by
  have hplain : ∀ v ∈ values, IsPlain v := fun v hv => (hoperands v hv).plain
  have hnull : (compared (fun v w => some (v == w)) .null v).getD false =
      (v == Value.ofJson (.null : Json N)) := compared_equal .null v
  -- A value with parts has no answer from the groups, but then it is not null either.
  have hanswers : (∀ answer ∈ (groupTests values).map fun test => test.2 v, answer.isSome = true) ∨
      ∀ answer ∈ (groupTests values).map fun test => test.2 v, answer.getD false = false := by
    rw [List.forall_mem_map, List.forall_mem_map]
    cases hprimitive : v.isPrimitive with
    | true =>
      refine .inl (forall_mem_groupTests rfl fun group _ => ?_)
      show (memberAnswer group.2 v).isSome = true
      unfold memberAnswer
      rw [hprimitive]
      rfl
    | false =>
      refine .inr (forall_mem_groupTests ?_ fun group _ => ?_)
      · cases v with
        | null => cases hprimitive
        | _ => exact hnull
      · show (memberAnswer group.2 v).getD false = false
        unfold memberAnswer
        rw [hprimitive]
        rfl
  have hgroups : ((groups values).map fun group => (memberTest group.2 (input : Json N),
      memberAnswer group.2)).any (fun test => (test.2 v).getD false) =
        (groups values).any fun group => group.2.any fun member => v == Value.ofJson member := by
    rw [List.any_map]
    exact any_eq_any_of_forall fun group hgroup => getD_memberAnswer
      (fun member h => (isOperand_of_mem_groups hoperands hgroup member h).plain) v
  rw [getD_someHolds hanswers, List.any_map, any_eq_any_groups hplain]
  show (groupTests values).any (fun test => (test.2 v).getD false) = _
  rw [groupTests, List.any_append, hgroups]
  refine congrArg (· || _) ?_
  cases values.any Json.isNull with
  | true => exact (Bool.or_false _).trans hnull
  | false => rfl

/-! ## Membership -/

/-- Whether what a filter refers to equals one of some values. -/
def isAmong (name : String) (values : List (Json N)) (feature : Feature N) : Bool :=
  (subject name feature).any fun v => values.any fun member => v == Value.ofJson member

omit [Scalar N] in
theorem getD_bind_eq_any {α : Type} {o : Option α} {f : α → Option Bool} {p : α → Bool}
    (h : ∀ a, (f a).getD false = p a) : (o.bind f).getD false = o.any p := by
  cases o with
  | none => rfl
  | some a => exact h a

section

variable (hname : name ≠ "$type") (hoperands : ∀ v ∈ values, IsOperand v)

include hname hoperands

/-- A membership in nothing but null. -/
theorem decides_membership_null (hgroups : groups values = []) (hnull : values.any Json.isNull = true)
    (key : Path) :
    Decides (.test key) (orElse (isNullTest "==" (reference (.string name) none)) false)
      fun env => some (isAmong name values env.feature) := by
  have hsubject := denotes_reference (N := N)
    (c := ((Context.test (key ++ [1])).child 1 none).child 1 (some .value)) hname
    (Context.accepts_expected rfl)
  have htest := decides_nullTest isComparison_equal (Context.accepts_expected rfl) hsubject
  refine (htest.orElse false).congr fun env => congrArg some (getD_bind_eq_any fun v => ?_)
  rw [compared_equal .null, any_eq_any_groups fun v hv => (hoperands v hv).plain, hgroups,
    hnull]
  exact (Bool.or_false _).symm

variable [LawfulOrder N]

/-- A membership in values of one kind. -/
theorem decides_membership_kind {kind : String} {members : List (Json N)}
    (hgroups : groups values = [(kind, members)]) (hnull : values.any Json.isNull = false)
    (key : Path) :
    Decides (.test key) (orElse (memberTest members (reference (.string name) (some kind))) false)
      fun env => some (isAmong name values env.feature) := by
  obtain ⟨asserted, hkind, hsymbol, hmembers, hne⟩ :=
    mem_groups.mp (hgroups ▸ List.mem_singleton.mpr rfl : (kind, members) ∈ groups values)
  dsimp only at hsymbol hmembers hne
  have hmember : ∀ member ∈ members, IsOperand member ∧
      (Value.ofJson member).type = asserted.type := by
    intro member h
    rw [hmembers, mem_ofKind] at h
    have hoperand := hoperands member h.1
    exact ⟨hoperand, type_of_kindOf hkind (hsymbol ▸ h.2)⟩
  have hsubject : Denotes (N := N) ((Context.test (key ++ [1])).child 2 (some .value))
      (reference (.string name) (some kind)) asserted.type
      fun env => (subject name env.feature).filter fun v => v.type = asserted.type := by
    rw [hsymbol]
    exact denotes_asserted hname hkind (Context.accepts_value rfl _)
  have htest := decides_memberTest hne (fun member h => (hmember member h).1)
    (Context.accepts_expected rfl) hsubject
  refine (htest.orElse false).congr fun env => congrArg some ?_
  unfold isAmong
  cases subject name env.feature with
  | none => rfl
  | some v =>
    have hvalues : (values.any fun member => v == Value.ofJson member) =
        members.any fun member => v == Value.ofJson member := by
      rw [any_eq_any_groups fun v hv => (hoperands v hv).plain, hgroups, hnull]
      exact Bool.or_false _
    rw [Option.any_some, hvalues, Option.filter_some]
    by_cases htype : v.type = asserted.type
    · rw [if_pos (decide_eq_true htype)]
      exact getD_memberAnswer (fun member h => (hmember member h).1.plain) v
    · rw [if_neg (by simpa using htype)]
      -- No member is of the kind of the value, so none is equal.
      refine (List.any_eq_false.mpr fun member h heq => htype ?_).symm
      rw [(of_beq_plain (hmember member h).1.plain heq).1, (hmember member h).2]

omit hname in
/-- The tests of the variable, where it is in scope. -/
theorem decides_groupTests (hne : groupTests values ≠ []) {c : Context} (hc : c.Accepts .boolean)
    (hlookup : c.lookup "input" = some .value) :
    Decides c (.call "||" ((groupTests values).map Prod.fst)) fun env => someHolds
      ((groupTests values).map fun test => (env.scope.lookup "input").bind test.2) := by
  have hinput : ∀ key : Path, Denotes (N := N) ⟨key, some .value, c.scope⟩ input .value
      fun env => env.scope.lookup "input" := fun key =>
    denotes_var hlookup (Context.accepts_expected rfl)
  have htests : List.Forall₂ (fun raw test => ∀ key, Decides ⟨key, some .boolean, c.scope⟩ raw test)
      ((groupTests values).map Prod.fst)
      ((groupTests values).map fun test (env : Env N) => (env.scope.lookup "input").bind test.2) := by
    rw [List.forall₂_map_left_iff, List.forall₂_map_right_iff, List.forall₂_same]
    refine forall_mem_groupTests (fun key => ?_) fun group hgroup key => ?_
    · exact decides_nullTest isComparison_equal (Context.accepts_expected rfl) (hinput _)
    · obtain ⟨kind, -, -, -, hmembers⟩ := mem_groups.mp hgroup
      exact decides_memberTest hmembers (isOperand_of_mem_groups hoperands hgroup)
        (Context.accepts_expected rfl) (hinput _)
  refine (Decides.or hc (fun h => hne (List.map_eq_nil_iff.mp h)) htests).congr fun env => ?_
  rw [List.map_map]
  rfl

/-- A membership in values of several kinds. -/
theorem decides_membership_let (hne : groupTests values ≠ []) (key : Path) :
    Decides (.test key) (orElse (.call "let" [.string "input", reference (.string name) none,
        .call "||" ((groupTests values).map Prod.fst)]) false)
      fun env => some (isAmong name values env.feature) := by
  let c : Context := .test (key ++ [1])
  have hsome : Decides (c.childWith 3 c.expected [("input", .value)])
      (.call "||" ((groupTests values).map Prod.fst)) fun env => someHolds
        ((groupTests values).map fun test => (env.scope.lookup "input").bind test.2) :=
    decides_groupTests hoperands hne (Context.accepts_expected rfl) rfl
  have hlet : Decides c (.call "let" [.string "input", reference (.string name) none,
      .call "||" ((groupTests values).map Prod.fst)]) fun env => (subject name env.feature).bind fun v =>
        someHolds ((groupTests values).map fun test => test.2 v) := by
    refine (Denotes.letIn (by decide) (denotes_reference hname nofun) hsome).congr fun env => ?_
    beta_reduce
    cases subject name env.feature <;> rfl
  exact (hlet.orElse false).congr fun env => congrArg some
    (getD_bind_eq_any fun v => getD_someHolds_groupTests hoperands v)

omit [LawfulOrder N] [Scalar N] hname hoperands in
theorem lower_membership (name : String) (values : List (Json N)) :
    lower (.call "in" (.string name :: values)) = membership (.string name) values := rfl

/-- What a membership stands for tells whether what it refers to equals one of the values. -/
theorem decides_membership (hne : values ≠ []) (key : Path) :
    Decides (.test key) (membership (.string name) values) fun env =>
      some (isAmong name values env.feature) := by
  have htests := groupTests_ne_nil (fun v hv => (hoperands v hv).plain) hne
  unfold membership
  dsimp only
  split
  · next hgroups hnull =>
    unfold groupTests at htests
    rw [hgroups, hnull] at htests
    exact absurd rfl htests
  · next hgroups hnull => exact decides_membership_null hname hoperands hgroups hnull key
  · next kind members hgroups hnull => exact decides_membership_kind hname hoperands hgroups hnull key
  · have hlet := decides_membership_let hname hoperands htests key
    rw [map_fst_groupTests] at hlet
    exact hlet

end

/-! ## Values that can be compared with -/

theorem isSafe_of_spells {c : Context} {e : Expr N} (hplain : IsPlain raw) (h : Spells c raw e) :
    raw.isSafe = true := by
  cases h with
  | bare _ _ hsafe _ => exact hsafe
  | _ => cases hplain

theorem exists_spells_of_mem {c : Context} (op : Operator) {raws : List (Json N)} {e : Expr N}
    (h : Spells c (.call op.symbol raws) e) (hraw : raw ∈ raws) : ∃ c' arg, Spells c' raw arg := by
  obtain ⟨args, type, hlen, hargs, -⟩ := spells_operator_iff.mp h
  obtain ⟨i, arg, harg, hraw⟩ := exists_getElem?_of_mem hlen.symm hraw
  exact ⟨_, arg, hargs i raw arg hraw harg⟩

theorem isSafe_of_spells_memberTest {c : Context} {members : List (Json N)} {e : Expr N}
    (h : Spells c (memberTest members raw) e) : ∀ member ∈ members, member.isSafe = true := by
  obtain ⟨c', literal, hliteral⟩ := exists_spells_of_mem .contains h List.mem_cons_self
  obtain ⟨hsafe, -⟩ := spells_literal_iff.mp hliteral
  exact List.all_eq_true.mp ((itemsSafe_eq_all members).symm.trans hsafe)

/-- The values of a membership that is a boolean expression are operands. -/
theorem isSafe_of_spells_membership (hplain : ∀ v ∈ values, IsPlain v) {property : Json N} {key : Path}
    {e : Expr N} (h : Spells (.test key) (membership property values) e) :
    ∀ v ∈ values, v.isSafe = true := by
  suffices hgroups : ∀ group ∈ groups values, ∀ member ∈ group.2, member.isSafe = true by
    intro v hv
    obtain rfl | ⟨group, hgroup, hmem⟩ := null_or_exists_group hplain hv
    · rfl
    · exact hgroups group hgroup v hmem
  unfold membership at h
  dsimp only at h
  split at h
  · next hgroups _ => simp [hgroups]
  · next hgroups _ => simp [hgroups]
  · next kind members hgroups _ =>
    obtain ⟨test, htest, -⟩ := spells_orElse_iff.mp h
    rw [hgroups, List.forall_mem_singleton]
    exact isSafe_of_spells_memberTest htest
  · obtain ⟨test, htest, -⟩ := spells_orElse_iff.mp h
    have hlet : Spells _ (.call "let" (alternate [(.string "input", reference property none)] ++ [_]))
      test := htest
    obtain ⟨-, bindings, result, -, -, -, hresult, -⟩ := spells_letIn_iff.mp hlet
    intro group hgroup
    have hmem : memberTest group.2 input ∈
        (if values.any Json.isNull then [isNullTest "==" (input : Json N)] else []) ++
          (groups values).map fun group => memberTest group.2 input :=
      List.mem_append_right _ (List.mem_map_of_mem hgroup)
    obtain ⟨c, e, he⟩ := exists_spells_of_mem .or hresult hmem
    exact isSafe_of_spells_memberTest he

/-- An equality is a boolean expression just if its value is an operand. -/
theorem exists_spells_equality_iff (hname : name ≠ "$type") (hplain : IsPlain raw) {key : Path} :
    (∃ e, Spells (.test key) (comparison "==" (.string name) raw) e) ↔ raw.isSafe = true := by
  constructor
  · rintro ⟨e, h⟩
    obtain rfl | ⟨kind, -, hof⟩ := hplain.null_or_kind
    · rfl
    · rw [comparison_of_kindOf hof] at h
      obtain ⟨test, htest, -⟩ := spells_orElse_iff.mp h
      obtain ⟨c, arg, harg⟩ := exists_spells_of_mem .equal htest
        (List.mem_cons_of_mem _ List.mem_cons_self)
      exact isSafe_of_spells hplain harg
  · intro hsafe
    obtain ⟨e, he, -⟩ := decides_equality hname ⟨hplain, hsafe⟩ key
    exact ⟨e, he⟩

/-! ## Memberships and equalities -/

/-- The equalities with the values, one of which has to hold. -/
def anyEquality (name : String) (values : List (Json N)) : Json N :=
  .call "any" (values.map fun v => .call "==" [.string name, v])

omit [Scalar N] in
theorem lower_anyEquality (name : String) (hne : values ≠ []) : lower (anyEquality name values) =
    .call "||" (values.map fun v => comparison "==" (.string name) v) := by
  have hne' : (values.map fun v => Json.call "==" [.string name, v]) ≠ [] := fun h =>
    hne (List.map_eq_nil_iff.mp h)
  rw [anyEquality]
  refine (lower_junction .any hne').trans ?_
  rw [List.map_map]
  rfl

theorem exists_anyEquality_iff (hname : name ≠ "$type") (hne : values ≠ [])
    (hplain : ∀ v ∈ values, IsPlain v) :
    (∃ filter, ofJson (anyEquality name values) = .ok filter) ↔ ∀ v ∈ values, v.isSafe = true := by
  have hne' : (values.map fun v => comparison "==" (.string name) v) ≠ [] := fun h =>
    hne (List.map_eq_nil_iff.mp h)
  rw [exists_ofJson_iff rfl [], lower_anyEquality name hne]
  refine (exists_spells_connective_iff (isConnective_shortCircuit true hne')).trans ?_
  rw [List.forall_mem_map]
  exact forall₂_congr fun v hv => exists_spells_equality_iff hname (hplain v hv)

theorem exists_membership_iff [LawfulOrder N] (hname : name ≠ "$type") (hne : values ≠ [])
    (hplain : ∀ v ∈ values, IsPlain v) :
    (∃ filter, ofJson (.call "in" (.string name :: values)) = .ok filter) ↔
      ∀ v ∈ values, v.isSafe = true := by
  rw [exists_ofJson_iff rfl [], lower_membership]
  constructor
  · rintro ⟨e, he⟩
    exact isSafe_of_spells_membership hplain he
  · intro hsafe
    obtain ⟨e, he, -⟩ :=
      decides_membership hname (fun v hv => ⟨hplain v hv, hsafe v hv⟩) hne ([] : Path)
    exact ⟨e, he⟩

theorem decides_anyEquality (hname : name ≠ "$type") (hne : values ≠ [])
    (hoperands : ∀ v ∈ values, IsOperand v) (key : Path) :
    Decides (.test key) (lower (anyEquality name values)) fun env =>
      some (isAmong name values env.feature) := by
  have htests : List.Forall₂ (fun raw test => ∀ key, Decides (.test key) raw test)
      (values.map fun v => comparison "==" (.string name) v)
      (values.map fun v (env : Env N) =>
        some ((subject name env.feature).any fun w => w == Value.ofJson v)) := by
    rw [List.forall₂_map_left_iff, List.forall₂_map_right_iff, List.forall₂_same]
    exact fun v hv => decides_equality hname (hoperands v hv)
  rw [lower_anyEquality name hne]
  refine (Decides.or (c := .test key) (Context.accepts_expected rfl)
    (fun h => hne (List.map_eq_nil_iff.mp h)) htests).congr fun env => ?_
  rw [List.map_map]
  refine (someHolds_map_some _ values).trans (congrArg some ?_)
  unfold isAmong
  cases subject name env.feature with
  | none => exact List.any_eq_false.mpr fun _ _ => Bool.false_ne_true
  | some v => rfl

/-- A membership in plain values can be built just if the disjunction of the equalities with them can, and
the two pass the same features. -/
theorem passes_membership [LawfulOrder N] (hname : name ≠ "$type") (hne : values ≠ [])
    (hplain : ∀ v ∈ values, IsPlain v) :
    ((∃ filter, ofJson (.call "in" (.string name :: values)) = .ok filter) ↔
      ∃ filter, ofJson (.call "any" (values.map fun v => .call "==" [.string name, v])) =
        .ok filter) ∧
    ∀ filter filter', ofJson (.call "in" (.string name :: values)) = .ok filter →
      ofJson (.call "any" (values.map fun v => .call "==" [.string name, v])) = .ok filter' →
      ∀ feature, filter.passes feature = filter'.passes feature := by
  have hin := exists_membership_iff hname hne hplain
  refine ⟨hin.trans (exists_anyEquality_iff hname hne hplain).symm, ?_⟩
  intro filter filter' hfilter hfilter' feature
  have hoperands : ∀ v ∈ values, IsOperand v := fun v hv =>
    ⟨hplain v hv, hin.mp ⟨filter, hfilter⟩ v hv⟩
  rw [passes_of_decides rfl (fun key => lower_membership name values ▸
      decides_membership hname hoperands hne key) hfilter,
    passes_of_decides rfl (decides_anyEquality hname hne hoperands) hfilter']

theorem passes_membership_mixed :
    ∃ filter filter' : Filter Float,
      ofJson (.call "in" [.string "class", .string "park", .null, .integer 3]) = .ok filter ∧
      ofJson (.call "any" [.call "==" [.string "class", .string "park"],
        .call "==" [.string "class", .null], .call "==" [.string "class", .integer 3]]) =
          .ok filter' ∧
      ∀ feature, filter.passes feature = filter'.passes feature := by
  have hne : ([.string "park", .null, .integer 3] : List (Json Float)) ≠ [] := List.cons_ne_nil _ _
  have hplain : ∀ v ∈ ([.string "park", .null, .integer 3] : List (Json Float)), IsPlain v :=
    List.forall_mem_cons.mpr ⟨.string "park", List.forall_mem_cons.mpr ⟨.null,
      List.forall_mem_singleton.mpr (.integer 3)⟩⟩
  have hname : "class" ≠ "$type" := by decide
  obtain ⟨hbuilt, hpasses⟩ := passes_membership hname hne hplain
  have hsafe : ∀ v ∈ ([.string "park", .null, .integer 3] : List (Json Float)), v.isSafe = true :=
    List.forall_mem_cons.mpr ⟨rfl, List.forall_mem_cons.mpr ⟨rfl, List.forall_mem_singleton.mpr rfl⟩⟩
  obtain ⟨filter, hfilter⟩ := (exists_membership_iff hname hne hplain).mpr hsafe
  obtain ⟨filter', hfilter'⟩ := hbuilt.mp ⟨filter, hfilter⟩
  exact ⟨filter, filter', hfilter, hfilter', hpasses filter filter' hfilter hfilter'⟩

end Filter

end MapStyle
