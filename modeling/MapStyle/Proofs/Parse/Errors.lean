import MapStyle.Proofs.Parse.Correctness

/-!
# Errors of parsing

Parsing a raw value in a context has errors exactly when it has no result, and every error tells what
is wrong at a place inside of the raw value.

* `Argument.ReportsAt items i a`: the argument `a` is the item `i` of an array, and reports its errors.
  Every form that stands at the array then does so too, since it parses an item only in a context
  whose key ends in the index of the item.
* `Expr.parser_reports`: the parser reports its errors, by recursion over the raw value.
* `Expr.parse_eq_ok_iff`: parsing a whole expression succeeds with what the raw value spells.
-/

namespace MapStyle

variable {N : Type}

/-- Whether an error tells what is wrong at a place inside of the raw value that stands at `key`. -/
def ParseError.Inside (key : Path) (raw : Json N) (err : ParseError N) : Prop :=
  (∃ path sub, err.key = key ++ path ∧ raw.at? path = some sub) ∧ err.problem ≠ .unparsed

namespace ParseError

variable {key : Path} {raw : Json N} {problem : Problem N}

theorem inside_self (h : problem ≠ .unparsed) : Inside key raw ⟨key, problem⟩ :=
  ⟨⟨[], raw, (List.append_nil key).symm, rfl⟩, h⟩

variable {items : List (Json N)} {i : Nat}

theorem inside_item {sub : Json N} (hi : items[i]? = some sub) {err : ParseError N}
    (h : Inside (key ++ [i]) sub err) : Inside key (.array items) err := by
  obtain ⟨⟨path, inner, hkey, hat⟩, hproblem⟩ := h
  refine ⟨⟨i :: path, inner, by rw [hkey, List.append_assoc]; rfl, ?_⟩, hproblem⟩
  show items[i]?.bind (Json.at? · path) = some inner
  rw [hi]
  exact hat

end ParseError

open Checked (Reports reports_pure reports_fail)
open ParseError (Inside inside_self inside_item)

namespace Context

variable {α : Type} {c : Context} {problem : Problem N}

theorem fail_reports {raw : Json N} (h : problem ≠ .unparsed) :
    (c.fail problem : Checked N α).Reports (Inside c.key raw) :=
  reports_fail (inside_self h)

theorem failAt_reports {items : List (Json N)} {i : Nat} {sub : Json N} (hi : items[i]? = some sub)
    (h : problem ≠ .unparsed) :
    (c.failAt i problem : Checked N α).Reports (Inside c.key (.array items)) :=
  reports_fail (inside_item hi (inside_self h))

end Context

open Context (fail_reports failAt_reports)

namespace Argument

variable {α : Type} {c : Context} {items : List (Json N)} {i : Nat} {problem : Problem N}

/-- Whether an argument is the item at an index, and parsing it reports its errors. -/
def ReportsAt (items : List (Json N)) (i : Nat) (a : Argument N) : Prop :=
  items[i]? = some a.raw ∧ ∀ c : Context, (a.parse c).Reports (Inside c.key a.raw)

theorem ReportsAt.failAt {a : Argument N} (ha : a.ReportsAt items i) (h : problem ≠ .unparsed) :
    (c.failAt i problem : Checked N α).Reports (Inside c.key (.array items)) :=
  failAt_reports ha.1 h

theorem ReportsAt.parse {a : Argument N} (ha : a.ReportsAt items i) (expected : Option Ty)
    (bindings : List (String × Ty)) :
    (a.parse (c.childWith i expected bindings)).Reports (Inside c.key (.array items)) := by
  have hchild := ha.2 (c.childWith i expected bindings)
  exact ⟨hchild.accounts, fun err herr => inside_item ha.1 (hchild.kind err herr)⟩

end Argument

namespace Parse

section

variable {items : List (Json N)}

/-- Whether arguments are the items of an array from an index on. -/
def ReportFrom (items : List (Json N)) (start : Nat) (args : List (Argument N)) : Prop :=
  ∀ (i : Nat) a, args[i]? = some a → a.ReportsAt items (start + i)

variable {start : Nat} {args : List (Argument N)}

theorem ReportFrom.tail {a : Argument N} (h : ReportFrom items start (a :: args)) :
    ReportFrom items (start + 1) args := by
  intro i b hb
  rw [Nat.add_assoc, Nat.add_comm 1 i]
  exact h (i + 1) b hb

theorem ReportFrom.dropLast (h : ReportFrom items start args) :
    ReportFrom items start args.dropLast := by
  intro i a ha
  rw [List.getElem?_dropLast] at ha
  split at ha
  · exact h i a ha
  · cases ha

theorem ReportFrom.last (h : ReportFrom items start args) {a : Argument N}
    (ha : args.getLast? = some a) : a.ReportsAt items (start + (args.length - 1)) := by
  rw [List.getLast?_eq_getElem?] at ha
  exact h _ a ha

theorem ReportFrom.pair {i : Nat} {a b : Argument N} : ∀ {start : Nat} {args : List (Argument N)},
    ReportFrom items start args → (i, a, b) ∈ pairsFrom start args →
      a.ReportsAt items i ∧ b.ReportsAt items (i + 1)
  | _, [], _, hmem => absurd hmem List.not_mem_nil
  | _, [_], _, hmem => absurd hmem List.not_mem_nil
  | _, _ :: _ :: _, h, hmem => by
    rcases List.mem_cons.mp hmem with heq | hrest
    · cases heq
      exact ⟨h 0 a rfl, h 1 b rfl⟩
    · exact ReportFrom.pair h.tail.tail hrest

theorem ReportFrom.mem_zipIdx (h : ReportFrom items start args) {a : Argument N × Nat}
    (ha : a ∈ args.zipIdx start) : a.1.ReportsAt items a.2 := by
  obtain ⟨hle, hget⟩ := List.mem_zipIdx_iff_le_and_getElem?_sub.mp ha
  have := h _ _ hget
  rwa [Nat.add_sub_cancel' hle] at this

end

/-! ## Forms -/

section

variable {c : Context} {items : List (Json N)} {args : List (Argument N)}

theorem var_reports {raws : List (Json N)} (h : ∀ (i : Nat) raw, raws[i]? = some raw →
    items[i + 1]? = some raw) : (var c raws).Reports (Inside c.key (.array items)) := by
  unfold var
  split
  · split
    · exact reports_pure _
    · exact failAt_reports (h 0 _ rfl) nofun
  · exact fail_reports nofun

theorem binding_reports {i : Nat} {name value : Argument N} (hname : name.ReportsAt items i)
    (hvalue : value.ReportsAt items (i + 1)) :
    (binding c i name value).Reports (Inside c.key (.array items)) := by
  unfold binding
  split
  · split
    · exact (hvalue.parse none []).map _
    · exact hname.failAt nofun
  · exact hname.failAt nofun

theorem letIn_reports (hargs : ReportFrom items 1 args) :
    (letIn c args).Reports (Inside c.key (.array items)) := by
  unfold letIn
  split
  · exact fail_reports nofun
  · split
    · exact fail_reports nofun
    · split
      · exact fail_reports nofun
      · next last hlast =>
        have hreports := hargs.last hlast
        refine Reports.bind (Reports.collect fun a ha => ?_) fun bindings => ?_
        · obtain ⟨⟨i, name, value⟩, hpair, rfl⟩ := List.mem_map.mp ha
          obtain ⟨hname, hvalue⟩ := hargs.dropLast.pair hpair
          exact binding_reports hname hvalue
        · rw [show 1 + (args.length - 1) = args.length by omega] at hreports
          exact (hreports.parse _ _).bind fun _ => reports_pure _

theorem coalesce_reports (hargs : ReportFrom items 1 args) :
    (coalesce c args).Reports (Inside c.key (.array items)) := by
  unfold coalesce
  split
  · exact fail_reports nofun
  · exact Reports.map (Reports.sweep (fun a ha s => (hargs.mem_zipIdx ha).parse s []) _) _

theorem conditional_reports (hargs : ReportFrom items 1 args) :
    (conditional c args).Reports (Inside c.key (.array items)) := by
  unfold conditional
  split
  · exact fail_reports nofun
  · split
    · exact fail_reports nofun
    · split
      · exact fail_reports nofun
      · next last hlast =>
        have hreports := hargs.last hlast
        refine (Reports.zip (Reports.sweep (fun a ha s => ?_) _) ?_).map _
        · obtain ⟨i, test, output⟩ := a
          obtain ⟨htest, houtput⟩ := hargs.dropLast.pair ha
          exact (htest.parse _ []).zip (houtput.parse _ [])
        · rw [show 1 + (args.length - 1) = args.length by omega] at hreports
          exact hreports.parse _ []

theorem arrayOf_reports (hargs : ReportFrom items 1 args) :
    (arrayOf c args).Reports (Inside c.key (.array items)) := by
  unfold arrayOf
  dsimp only
  split
  · exact ((hargs 0 _ rfl).parse _ []).map _
  · split
    · exact ((hargs 1 _ rfl).parse _ []).map _
    · exact (hargs 0 _ rfl).failAt nofun
  · split
    · exact ((hargs 2 _ rfl).parse _ []).map _
    · exact (hargs 1 _ rfl).failAt nofun
    · exact (hargs 0 _ rfl).failAt nofun
  · exact fail_reports nofun

theorem application_reports {op : Operator} (hargs : ReportFrom items 1 args) :
    (application c op args).Reports (Inside c.key (.array items)) := by
  unfold application
  dsimp only
  split
  · exact fail_reports nofun
  · refine Reports.bind (Reports.collect fun a ha => ?_) fun es => ?_
    · obtain ⟨⟨arg, i⟩, harg, rfl⟩ := List.mem_map.mp ha
      exact (hargs.mem_zipIdx harg).parse _ []
    · split
      · exact reports_pure _
      · exact fail_reports nofun

theorem expect_reports {raw : Json N} (c : Context) (e : Expr N) :
    (c.expect e).Reports (Inside c.key raw) := by
  unfold Context.expect
  split
  · split
    · exact reports_pure _
    · exact fail_reports nofun
  · exact reports_pure _

variable [Scalar N]

theorem literal_reports {raw : Json N} (args : List (Json N)) :
    (literal c args).Reports (Inside c.key raw) := by
  unfold literal
  split
  · split
    · exact reports_pure _
    · exact fail_reports nofun
  · exact fail_reports nofun

/-- What a raw value or the labels so far find wrong with a label is a problem of its own. -/
theorem label_ne_unparsed {raw : Json N} {problem : Problem N} (h : label raw = .error problem) :
    problem ≠ .unparsed := by
  rintro rfl
  unfold label numberLabel at h
  split at h
  · cases h
  · split_ifs at h <;> cases h
  · split_ifs at h <;> cases h
  · cases h

theorem add_ne_unparsed {labels : Labels N} {l : Label N} {problem : Problem N}
    (h : labels.add l = .error problem) : problem ≠ .unparsed := by
  rintro rfl
  unfold Labels.add at h
  dsimp only at h
  split at h
  · split_ifs at h <;> cases h
  · cases h

theorem labelList_reports {i : Nat} {sub : Json N} (hi : items[i]? = some sub) {labels : Labels N}
    {raws : List (Json N)} :
    (labelList c i labels raws).2.Reports (Inside c.key (.array items)) := by
  induction raws generalizing labels with
  | nil => exact reports_pure _
  | cons raw rest ih =>
    unfold labelList
    split
    · next problem hlabel => exact failAt_reports hi (label_ne_unparsed hlabel)
    · split
      · next problem hadd => exact failAt_reports hi (add_ne_unparsed hadd)
      · exact ih.map _

theorem labelsAt_reports {i : Nat} {labels : Labels N} {raw : Json N} (hi : items[i]? = some raw) :
    (labelsAt c i labels raw).2.Reports (Inside c.key (.array items)) := by
  unfold labelsAt
  split
  · exact failAt_reports hi nofun
  · exact labelList_reports hi
  · exact labelList_reports hi

theorem matching_reports (hargs : ReportFrom items 1 args) :
    (matching c args).Reports (Inside c.key (.array items)) := by
  unfold matching
  split
  · exact fail_reports nofun
  · split
    · exact fail_reports nofun
    · split
      · next input rest last _ _ hlast =>
        have hreports := hargs.last hlast
        refine (Reports.zip (Reports.zip (Reports.sweep (fun a ha s => ?_) _) ?_) ?_).map _
        · obtain ⟨i, labels, output⟩ := a
          obtain ⟨hlabels, houtput⟩ := hargs.tail.dropLast.pair ha
          exact (labelsAt_reports hlabels.1).zip (houtput.parse _ [])
        · exact (hargs 0 input rfl).parse _ []
        · rw [List.length_cons, Nat.add_sub_cancel, Nat.add_comm 1] at hreports
          exact hreports.parse _ []
      · exact fail_reports nofun

theorem interpolation_ne_unparsed {raw : Json N} {problem : Problem N}
    (h : readInterpolation raw = .error problem) : problem ≠ .unparsed := by
  rintro rfl
  unfold readInterpolation at h
  split at h
  · cases h
  · cases h
  · split at h <;> cases h
  · split at h <;> cases h
  · cases h
  · cases h

theorem stopStep_reports {s : Option N × Option Ty} {i : Nat} {input output : Argument N}
    (hinput : input.ReportsAt items i) (houtput : output.ReportsAt items (i + 1)) :
    (stopStep c s (i, input, output)).2.Reports (Inside c.key (.array items)) := by
  unfold stopStep
  dsimp only
  split
  · exact hinput.failAt (by rintro ⟨⟩)
  · split
    · exact hinput.failAt (by rintro ⟨⟩)
    · exact (houtput.parse _ []).map _

theorem curve_reports (hargs : ReportFrom items 1 args) :
    (curve c args).Reports (Inside c.key (.array items)) := by
  unfold curve
  split
  · exact fail_reports nofun
  · split
    · exact fail_reports nofun
    · split
      · next kind input stops _ _ =>
        refine Reports.bind (Reports.zip (Reports.zip ?_ ?_) ?_) fun _ => ?_
        · unfold interpolation
          split
          · exact reports_pure _
          · next problem hkind => exact (hargs 0 kind rfl).failAt (interpolation_ne_unparsed hkind)
        · exact (hargs 1 input rfl).parse _ []
        · refine Reports.sweep (fun a ha s => ?_) _
          obtain ⟨i, x, output⟩ := a
          obtain ⟨hx, houtput⟩ := hargs.tail.tail.pair ha
          exact stopStep_reports hx houtput
        · dsimp only
          split
          · exact fail_reports nofun
          · exact reports_pure _
      · exact fail_reports nofun

theorem named_reports {name : String} (hargs : ReportFrom items 1 args)
    (hhead : items[0]? = some (.string name)) :
    (named c name args).Reports (Inside c.key (.array items)) := by
  have hraws : ∀ (i : Nat) raw, (args.map Argument.raw)[i]? = some raw →
      items[i + 1]? = some raw := by
    intro i raw hraw
    rw [List.getElem?_map, Option.map_eq_some_iff] at hraw
    obtain ⟨a, ha, rfl⟩ := hraw
    rw [Nat.add_comm]
    exact (hargs i a ha).1
  unfold named
  split
  · exact literal_reports _
  · exact var_reports hraws
  · exact letIn_reports hargs
  · exact coalesce_reports hargs
  · exact conditional_reports hargs
  · exact matching_reports hargs
  · exact curve_reports hargs
  · exact arrayOf_reports hargs
  · split
    · exact application_reports hargs
    · exact failAt_reports hhead nofun

theorem form_reports (hargs : ReportFrom items 0 args) :
    (form c args).Reports (Inside c.key (.array items)) := by
  unfold form
  split
  · exact fail_reports nofun
  · next head rest =>
    have hhead := (hargs 0 head rfl).1
    split
    · next name hname =>
      rw [hname] at hhead
      exact (named_reports hargs.tail hhead).bind (expect_reports c)
    · exact failAt_reports hhead nofun

end

end Parse

namespace Expr

open Parse
open ParseError (Inside)

variable [Scalar N]

mutual

/-- Parsing has errors exactly when it has no result, and they are inside of the raw value. -/
theorem parser_reports :
    ∀ (raw : Json N) (c : Context), (parser raw c).Reports (Inside c.key raw)
  | .array items, _ => form_reports fun i a ha => by
    rw [Nat.zero_add]
    exact arguments_reports items i a ha
  | .object _, _ => fail_reports nofun
  | .null, c | .boolean _, c | .integer _, c | .real _, c | .string _, c =>
    (literal_reports _).bind (expect_reports c)

theorem arguments_reports : ∀ (items : List (Json N)) (i : Nat) (a : Argument N),
    (arguments items)[i]? = some a → a.ReportsAt items i
  | [], _, _, ha => by cases ha
  | item :: _, 0, _, ha => by
    cases ha
    exact ⟨rfl, parser_reports item⟩
  | _ :: rest, i + 1, a, ha => arguments_reports rest i a ha

end

/-- Parsing succeeds with what a raw value spells for itself. -/
theorem parse_eq_ok_iff {raw : Json N} {expected : Option Ty} {e : Expr N} :
    parse raw expected = .ok e ↔ Spells (.root expected) raw e := by
  rw [← parser_result_iff]
  have haccounts := (parser_reports raw (.root expected)).accounts
  unfold parse
  dsimp only
  constructor
  · intro h
    split at h
    · next e' hresult _ => rw [hresult, Except.ok.inj h]
    · cases h
    · cases h
  · intro h
    rw [h, haccounts.mp (by rw [h]; rfl)]

/-- Parsing fails with the errors met, where there is no result. -/
theorem parse_eq_error_iff {raw : Json N} {expected : Option Ty} {errors : List (ParseError N)} :
    parse raw expected = .error errors ↔
      (parser raw (.root expected)).result = none ∧ (parser raw (.root expected)).errors = errors := by
  have haccounts := (parser_reports raw (.root expected)).accounts
  unfold parse
  dsimp only
  cases hresult : (parser raw (.root expected)).result with
  | some e =>
    rw [haccounts.mp (by rw [hresult]; rfl)]
    constructor
    · rintro ⟨⟩
    · rintro ⟨⟨⟩, -⟩
  | none =>
    cases herrors : (parser raw (.root expected)).errors with
    | nil =>
      have hsome := haccounts.mpr herrors
      rw [hresult] at hsome
      cases hsome
    | cons err rest => exact ⟨fun h => ⟨rfl, Except.error.inj h⟩, fun h => congrArg _ h.2⟩

theorem parse_eq_error_of_eq {raw : Json N} {expected : Option Ty} {errors : List (ParseError N)}
    (h : parser raw (.root expected) = ⟨none, errors⟩) : parse raw expected = .error errors :=
  parse_eq_error_iff.mpr ⟨congrArg Checked.result h, congrArg Checked.errors h⟩

end Expr

end MapStyle
