import Mathlib.Data.List.Perm.Basic
import MapStyle.Proofs.Binary64.Equality
import MapStyle.Proofs.Parse.Agreement

/-!
# The order of branches

A match evaluates the output of the first branch whose labels hold its input. No two labels of a match
are equal, so at most one branch holds a value, and the order does not count:
`Expr.eval_eq_of_branchesPerm`. To write the branches in another order may change the types that are
asked of the outputs and of the input, but not their outcomes (`Spells.outcome_eq`).
-/

namespace MapStyle

variable {N : Type} [Scalar N]

/-! ## Labels -/

/-- Labels that hold the same value are equal. -/
theorem Label.beq_of_holds [LawfulEq N] {l l' : Label N} {v : Value N} (h : l.holds v = true)
    (h' : l'.holds v = true) : (l == l') = true := by
  cases l with
  | number x =>
    cases v with
    | number z =>
      cases l' with
      | number y => exact (LawfulEq.beq_left_congr h).trans (LawfulEq.symm h')
      | string => cases h'
    | _ => cases h
  | string s =>
    cases v with
    | string t =>
      cases l' with
      | number => cases h'
      | string s' =>
        have hs : s = t := eq_of_beq h
        have hs' : s' = t := eq_of_beq h'
        show (s == s') = true
        exact beq_iff_eq.mpr (hs.trans hs'.symm)
    | _ => cases h

/-- At most one branch holds the value. -/
def HeldOnce {α : Type} (v : Value N) (branches : List (List (Label N) × α)) : Prop :=
  branches.Pairwise fun b b' => ¬(b.1.any (·.holds v) = true ∧ b'.1.any (·.holds v) = true)

/-- Where all labels are distinct, at most one branch holds a value. -/
theorem Parse.Distinct.heldOnce [LawfulEq N] {α : Type} {branches : List (List (Label N) × α)}
    (h : Parse.Distinct (branches.flatMap (·.1))) (v : Value N) : HeldOnce v branches := by
  obtain ⟨-, hpairwise⟩ := List.pairwise_flatMap.mp h
  refine hpairwise.imp fun {b b'} hne => ?_
  rintro ⟨hb, hb'⟩
  obtain ⟨l, hl, hold⟩ := List.any_eq_true.mp hb
  obtain ⟨l', hl', hold'⟩ := List.any_eq_true.mp hb'
  have hbeq := Label.beq_of_holds hold' hold
  rw [(hne l hl l' hl').2] at hbeq
  cases hbeq

/-! ## Choosing by label -/

section

variable {m : Type → Type} {v : Value N} {branches branches' : List (List (Label N) × m (Value N))}

/-- Where at most one branch holds the value, the order of the branches does not count. -/
theorem byLabel_perm (hperm : branches.Perm branches') (hone : HeldOnce v branches)
    (otherwise : m (Value N)) :
    byLabel v branches otherwise = byLabel v branches' otherwise := by
  induction hperm with
  | nil => rfl
  | cons b _ ih => rw [byLabel, byLabel, ih (List.pairwise_cons.mp hone).2]
  | swap b b' rest =>
    have hnot := (List.pairwise_cons.mp hone).1 b List.mem_cons_self
    rw [byLabel, byLabel, byLabel, byLabel]
    by_cases hb : b.1.any (·.holds v) = true
    · have hb' : ¬b'.1.any (·.holds v) = true := fun hb' => hnot ⟨hb', hb⟩
      rw [if_pos hb, if_neg hb', if_pos hb]
    · rw [if_neg hb, if_neg hb]
  | trans hfirst _ ih ih' =>
    rw [ih hone, ih' ((hfirst.pairwise_iff fun h h' => h h'.symm).mp hone)]

/-- Of the labels of a branch only those that hold the value count. -/
theorem byLabel_congr (h : List.Forall₂ (fun b b' : List (Label N) × m (Value N) =>
    b.1.Perm b'.1 ∧ b.2 = b'.2) branches branches') (otherwise : m (Value N)) :
    byLabel v branches otherwise = byLabel v branches' otherwise := by
  induction h with
  | nil => rfl
  | cons hb _ ih => rw [byLabel, byLabel, hb.1.any_eq, hb.2, ih]

end

/-! ## Written orders -/

/-- One form of labels is another, or a list of the same labels in another order. -/
inductive LabelsPerm : Json N → Json N → Prop where
  | refl (raw : Json N) : LabelsPerm raw raw
  | list {items items' : List (Json N)} (hperm : items.Perm items') :
    LabelsPerm (.array items) (.array items')

/-- The same branches are written in another order, some with their labels in another order. -/
def BranchesPerm (pairs pairs' : List (Json N × Json N)) : Prop :=
  ∃ moved, pairs.Perm moved ∧
    List.Forall₂ (fun p p' => LabelsPerm p.1 p'.1 ∧ p.2 = p'.2) moved pairs'

namespace Parse

theorem SpellsLabels.perm {raw raw' : Json N} {labels labels' : List (Label N)}
    (h : SpellsLabels raw labels) (hperm : LabelsPerm raw raw') (h' : SpellsLabels raw' labels') :
    labels.Perm labels' := by
  cases hperm with
  | refl => exact h.unique h' ▸ .refl labels
  | @list items items' hperm =>
    obtain ⟨moved, hmoved, hlabels⟩ := List.perm_comp_forall₂ hperm.symm h.2
    have hspelled : SpellsLabels (.array items') moved := ⟨h'.1, hmoved⟩
    exact hspelled.unique h' ▸ hlabels.symm

/-- Of a branch: its labels, and an output that is spelled among the variables. -/
def SpellsBranch (scope : Scope) (p : Json N × Json N) (b : List (Label N) × Expr N) : Prop :=
  SpellsLabels p.1 b.1 ∧ ∃ c : Context, c.scope = scope ∧ Spells c p.2 b.2

/-- The branches of a match in two orders. -/
theorem exists_perm_of_branchesPerm {scope : Scope} {pairs pairs' : List (Json N × Json N)}
    {branches branches' : List (List (Label N) × Expr N)} (hperm : BranchesPerm pairs pairs')
    (h : List.Forall₂ (SpellsBranch scope) pairs branches)
    (h' : List.Forall₂ (SpellsBranch scope) pairs' branches') {env : Env N} (henv : env.Fits scope) :
    ∃ moved, branches.Perm moved ∧ List.Forall₂ (fun b b' => b.1.Perm b'.1 ∧
      b.2.eval env = b'.2.eval env) moved branches' := by
  obtain ⟨written, hpairs, hlabels⟩ := hperm
  obtain ⟨moved, hmoved, hbranches⟩ := List.perm_comp_forall₂ hpairs.symm h
  refine ⟨moved, hbranches.symm, ?_⟩
  have hwritten := forall₂_comp (T := fun p b' => ∃ p', (LabelsPerm p.1 p'.1 ∧ p.2 = p'.2) ∧
    SpellsBranch scope p' b') hlabels h' fun p p' b' hp hb' => ⟨p', hp, hb'⟩
  refine forall₂_comp hmoved.flip hwritten ?_
  rintro b p b' ⟨hb, c, rfl, hread⟩ ⟨p', ⟨hlabel, hp⟩, hb', c', hc', hread'⟩
  rw [← hp] at hread'
  exact ⟨hb.perm hlabel hb', (hread.outcome_eq hread' hc' henv).symm⟩

/-- The order in which the branches of a match are written, and that of the labels of a branch, count
neither for the values nor for the failures of the match. -/
theorem Spells.outcome_eq_of_branchesPerm [LawfulEq N] {c c' : Context}
    {pairs pairs' : List (Json N × Json N)} {rawInput raw : Json N} {e e' : Expr N}
    (h : Spells c (.call "match" (rawInput :: alternate pairs ++ [raw])) e)
    (h' : Spells c' (.call "match" (rawInput :: alternate pairs' ++ [raw])) e')
    (hperm : BranchesPerm pairs pairs') (hscope : c'.scope = c.scope) {env : Env N}
    (henv : env.Fits c.scope) : e'.eval env = e.eval env := by
  obtain ⟨-, input, branches, otherwise, type, hlen, hlabels, hdistinct, houtputs, hinput,
    hotherwise, -, -, rfl⟩ := spells_matching_iff.mp h
  obtain ⟨-, input', branches', otherwise', type', hlen', hlabels', -, houtputs', hinput',
    hotherwise', -, -, rfl⟩ := spells_matching_iff.mp h'
  have hbranches : List.Forall₂ (SpellsBranch c.scope) pairs branches :=
    forall₂_iff_getElem?.mpr ⟨hlen, fun i p b hp hb =>
      ⟨hlabels i p b hp hb, c.child _ _, rfl, houtputs i p b hp hb⟩⟩
  have hbranches' : List.Forall₂ (SpellsBranch c.scope) pairs' branches' :=
    forall₂_iff_getElem?.mpr ⟨hlen', fun i p b hp hb =>
      ⟨hlabels' i p b hp hb, c'.child _ _, hscope, houtputs' i p b hp hb⟩⟩
  obtain ⟨moved, hmoved, hsame⟩ := exists_perm_of_branchesPerm hperm hbranches hbranches' henv
  rw [Expr.eval_matching, Expr.eval_matching, hinput.outcome_eq hinput' hscope henv,
    hotherwise.outcome_eq hotherwise' hscope henv]
  refine congrArg (Except.bind _) (funext fun v => ?_)
  have hone : HeldOnce v (branches.map fun b => (b.1, b.2.eval env)) :=
    List.pairwise_map.mpr (hdistinct.heldOnce v)
  rw [byLabel_perm (hmoved.map _) hone]
  exact (byLabel_congr (List.forall₂_map_left_iff.mpr (List.forall₂_map_right_iff.mpr hsame)) _).symm

end Parse

namespace Expr

/-- Matches with the same branches in another order have the same values and failures at every zoom
and for every feature, where both are expressions. -/
theorem eval_eq_of_branchesPerm [LawfulEq N] {pairs pairs' : List (Json N × Json N)}
    (hperm : BranchesPerm pairs pairs') {rawInput raw : Json N} {expected : Option Ty} {e e' : Expr N}
    (h : parse (.call "match" (rawInput :: Parse.alternate pairs ++ [raw])) expected = .ok e)
    (h' : parse (.call "match" (rawInput :: Parse.alternate pairs' ++ [raw])) expected = .ok e')
    (zoom : Option N) (feature : Feature N) :
    e'.eval ⟨zoom, feature, []⟩ = e.eval ⟨zoom, feature, []⟩ :=
  (parse_eq_ok_iff.mp h).outcome_eq_of_branchesPerm (parse_eq_ok_iff.mp h') hperm rfl
    (Env.fits_nil _)

theorem eval_eq_of_branchesPerm_labels :
    BranchesPerm (N := Float)
      [(.array [.string "park", .string "wood"], .integer 1), (.string "sand", .integer 2)]
      [(.string "sand", .integer 2), (.array [.string "wood", .string "park"], .integer 1)] ∧
    ∃ e e' : Expr Float,
      parse (.call "match" [.call "string" [.call "get" [.string "class"]],
        .array [.string "park", .string "wood"], .integer 1, .string "sand", .integer 2,
        .integer 3]) none = .ok e ∧
      parse (.call "match" [.call "string" [.call "get" [.string "class"]],
        .string "sand", .integer 2, .array [.string "wood", .string "park"], .integer 1,
        .integer 3]) none = .ok e' ∧
      ∀ zoom feature, e'.eval ⟨zoom, feature, []⟩ = e.eval ⟨zoom, feature, []⟩ := by
  have hperm : BranchesPerm (N := Float)
      [(.array [.string "park", .string "wood"], .integer 1), (.string "sand", .integer 2)]
      [(.string "sand", .integer 2), (.array [.string "wood", .string "park"], .integer 1)] :=
    ⟨_, .swap _ _ [], .cons ⟨.refl _, rfl⟩ (.cons ⟨.list (.swap _ _ []), rfl⟩ .nil)⟩
  obtain ⟨e, he⟩ : ∃ e : Expr Float, parse (.call "match" [
      .call "string" [.call "get" [.string "class"]],
      .array [.string "park", .string "wood"], .integer 1, .string "sand", .integer 2,
      .integer 3]) none = .ok e := ⟨_, rfl⟩
  obtain ⟨e', he'⟩ : ∃ e : Expr Float, parse (.call "match" [
      .call "string" [.call "get" [.string "class"]],
      .string "sand", .integer 2, .array [.string "wood", .string "park"], .integer 1,
      .integer 3]) none = .ok e := ⟨_, rfl⟩
  exact ⟨hperm, e, e', he, he', eval_eq_of_branchesPerm hperm he he'⟩

end Expr

end MapStyle
