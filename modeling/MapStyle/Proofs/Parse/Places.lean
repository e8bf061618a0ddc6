import Mathlib.Data.List.Nodup
import Mathlib.Order.Monotone.Basic
import MapStyle.Proofs.Expr.Nodes
import MapStyle.Proofs.Parse.Errors

/-!
# Places of nodes and of errors

The key of a node is the place that the node was parsed from, and so is the key of an error.

* `Spells.exists_places`: the children of a node are spelled by items of the raw value, at places that
  ascend from one child to the next. It is the one fact about each form that the rest rests on.
* `Spells.exists_place`: every node below is spelled by what stands at its key.
* `Spells.nodup_keys`: no two nodes have one key, since the keys below two children part at their
  places.
* `Path.text_injective`: paths that differ are written differently.
* `Expr.places_of_parse`: all of it for whole expressions.
-/

namespace MapStyle

variable {N : Type}

/-! ## Paths as written -/

namespace Path

theorem toList_text_cons (i : Nat) (path : Path) :
    (text (i :: path)).toList = '[' :: (Nat.toDigits 10 i ++ ']' :: (text path).toList) := by
  unfold text
  rw [List.map_cons, String.join_cons, String.toList_append, String.toList_append,
    String.toList_append, show toString i = i.repr from rfl, Nat.toList_repr, List.append_assoc,
    List.append_assoc]
  rfl

/-- Digits end where a bracket stands. -/
theorem takeWhile_toDigits (i : Nat) (rest : List Char) :
    (Nat.toDigits 10 i ++ ']' :: rest).takeWhile Char.isDigit = Nat.toDigits 10 i := by
  rw [List.takeWhile_append_of_pos fun c => Nat.isDigit_of_mem_toDigits (by omega) (by omega),
    List.takeWhile_cons_of_neg (by decide), List.append_nil]

/-- A path can be read off its text. -/
theorem text_injective : Function.Injective text := by
  intro path
  induction path with
  | nil =>
    intro path' h
    cases path' with
    | nil => rfl
    | cons i rest =>
      have hlist := congrArg String.toList h
      rw [toList_text_cons] at hlist
      cases hlist
  | cons i rest ih =>
    intro path' h
    have hlist := congrArg String.toList h
    cases path' with
    | nil =>
      rw [toList_text_cons] at hlist
      cases hlist
    | cons j rest' =>
      rw [toList_text_cons, toList_text_cons] at hlist
      have htail := (List.cons.inj hlist).2
      have hdigits := congrArg (List.takeWhile Char.isDigit) htail
      rw [takeWhile_toDigits, takeWhile_toDigits] at hdigits
      rw [hdigits] at htail
      have hrest := (List.cons.inj (List.append_cancel_left htail)).2
      have hij : i = j := by
        rw [← Nat.ofDigitChars_ten_toDigits (n := i), hdigits, Nat.ofDigitChars_ten_toDigits]
      rw [hij, ih (String.toList_injective hrest)]

end Path

/-! ## Raw values at places -/

theorem Json.at?_cons (raw : Json N) (i : Nat) (path : List Nat) :
    raw.at? (i :: path) = (raw.at? [i]).bind (Json.at? · path) := by
  cases raw with
  | array items =>
    show items[i]?.bind (Json.at? · path) = (items[i]?.bind (Json.at? · [])).bind (Json.at? · path)
    cases items[i]? <;> rfl
  | _ => rfl

theorem Json.at?_call (name : String) (args : List (Json N)) (i : Nat) :
    (Json.call name args).at? [i + 1] = args[i]? := by
  show args[i]?.bind some = args[i]?
  exact Option.bind_fun_some _

namespace Parse

section

variable {α : Type}

theorem getElem?_append_of_eq_some {xs rest : List α} {k : Nat} {a : α} (h : xs[k]? = some a) :
    (xs ++ rest)[k]? = some a := by
  rw [List.getElem?_append_left (List.getElem?_eq_some_iff.mp h).1, h]

theorem getElem?_concat_eq_some {xs : List α} {last a : α} {k : Nat} :
    (xs ++ [last])[k]? = some a ↔ xs[k]? = some a ∨ k = xs.length ∧ a = last := by
  rw [List.getElem?_append]
  split
  · next h => simp [Nat.ne_of_lt h]
  · next h =>
    rw [List.getElem?_eq_none (Nat.le_of_not_lt h)]
    rcases Nat.eq_or_lt_of_le (Nat.le_of_not_lt h) with heq | hlt
    · simp [← heq, eq_comm]
    · rw [List.getElem?_eq_none (by rw [List.length_singleton]; omega)]
      simp [Nat.ne_of_gt hlt]

theorem getElem?_alternate {pairs : List (α × α)} {k : Nat} {a : α} :
    (alternate pairs)[k]? = some a ↔
      ∃ j p, pairs[j]? = some p ∧ (k = 2 * j ∧ a = p.1 ∨ k = 2 * j + 1 ∧ a = p.2) := by
  induction pairs generalizing k with
  | nil => simp [alternate]
  | cons first rest ih =>
    rw [alternate]
    rcases k with _ | _ | k
    · constructor
      · rintro ⟨⟩
        exact ⟨0, first, rfl, .inl ⟨rfl, rfl⟩⟩
      · rintro ⟨j, p, hp, ⟨hj, rfl⟩ | ⟨hj, -⟩⟩
        · obtain rfl : j = 0 := by omega
          cases hp
          rfl
        · omega
    · constructor
      · rintro ⟨⟩
        exact ⟨0, first, rfl, .inr ⟨rfl, rfl⟩⟩
      · rintro ⟨j, p, hp, ⟨hj, -⟩ | ⟨hj, rfl⟩⟩
        · omega
        · obtain rfl : j = 0 := by omega
          cases hp
          rfl
    · rw [List.getElem?_cons_succ, List.getElem?_cons_succ, ih]
      constructor
      · rintro ⟨j, p, hp, ⟨rfl, rfl⟩ | ⟨rfl, rfl⟩⟩
        · exact ⟨j + 1, p, hp, .inl ⟨rfl, rfl⟩⟩
        · exact ⟨j + 1, p, hp, .inr ⟨rfl, rfl⟩⟩
      · rintro ⟨j, p, hp, h⟩
        cases j with
        | zero => omega
        | succ j => exact ⟨j, p, hp, h.imp (And.imp_left (by omega)) (And.imp_left (by omega))⟩

variable {pairs : List (α × α)} {rest : List α} {j : Nat} {p : α × α}

theorem getElem?_alternate_fst (hp : pairs[j]? = some p) :
    (alternate pairs ++ rest)[2 * j]? = some p.1 :=
  getElem?_append_of_eq_some (getElem?_alternate.mpr ⟨j, p, hp, .inl ⟨rfl, rfl⟩⟩)

theorem getElem?_alternate_snd (hp : pairs[j]? = some p) :
    (alternate pairs ++ rest)[2 * j + 1]? = some p.2 :=
  getElem?_append_of_eq_some (getElem?_alternate.mpr ⟨j, p, hp, .inr ⟨rfl, rfl⟩⟩)

theorem getElem?_alternate_last {last : α} :
    (alternate pairs ++ [last])[2 * pairs.length]? = some last :=
  getElem?_concat_eq_some.mpr (.inr ⟨(length_alternate pairs).symm, rfl⟩)

end

/-! ## Children -/

variable [Scalar N]

theorem Spells.key_eq {c : Context} {raw : Json N} {e : Expr N} (h : Spells c raw e) :
    e.key = c.key := by
  cases h <;> rfl

/-- Whether the item of a raw value at a place spells an expression, in a context there. -/
def SpelledAt (c : Context) (raw : Json N) (i : Nat) (e : Expr N) : Prop :=
  ∃ inner sub, inner.key = c.key ++ [i] ∧ raw.at? [i] = some sub ∧ Spells inner sub e

theorem spelledAt_call {c inner : Context} {name : String} {args : List (Json N)} {i : Nat}
    {sub : Json N} {e : Expr N} (hsub : args[i]? = some sub) (hkey : inner.key = c.key ++ [i + 1])
    (h : Spells inner sub e) : SpelledAt c (.call name args) (i + 1) e :=
  ⟨inner, sub, hkey, by rw [Json.at?_call, hsub], h⟩

/-- The children of a node are spelled by items of the raw value, one after the other. -/
theorem Spells.exists_places {c : Context} {raw : Json N} {e : Expr N} (h : Spells c raw e) :
    ∃ place : Nat → Nat, StrictMono place ∧
      ∀ (k : Nat) d, e.children[k]? = some d → SpelledAt c raw (place k) d := by
  cases h with
  | bare | literal | var => exact ⟨id, strictMono_id, fun k d hd => by cases hd⟩
  | @letIn _ pairs bindings rawResult result _ hlen _ hvalues hresult =>
    refine ⟨fun k => if k < pairs.length then 2 * k + 2 else k + pairs.length + 1, ?_, ?_⟩
    · intro a b hab
      dsimp only
      split_ifs <;> omega
    · intro k d hd
      rcases getElem?_concat_eq_some.mp hd with hd | ⟨rfl, rfl⟩
      · rw [List.getElem?_map, Option.map_eq_some_iff] at hd
        obtain ⟨b, hb, rfl⟩ := hd
        obtain ⟨p, hp⟩ := exists_getElem?_of_getElem? hlen hb
        dsimp only
        rw [if_pos (List.getElem?_eq_some_iff.mp hp).1]
        exact spelledAt_call (getElem?_alternate_snd hp) rfl (hvalues k p b hp hb)
      · rw [List.length_map, hlen]
        dsimp only
        rw [if_neg (by omega), ← Nat.two_mul]
        exact spelledAt_call getElem?_alternate_last rfl hresult
  | @coalesce _ raws args _ _ hlen hargs =>
    refine ⟨(· + 1), fun a b hab => Nat.succ_lt_succ hab, fun k d hd => ?_⟩
    obtain ⟨sub, hsub⟩ := exists_getElem?_of_getElem? hlen hd
    exact spelledAt_call hsub rfl (hargs k sub d hsub hd)
  | @conditional _ pairs branches rawLast otherwise _ _ hlen htests houtputs hotherwise =>
    refine ⟨(· + 1), fun a b hab => Nat.succ_lt_succ hab, fun k d hd => ?_⟩
    rw [Expr.children, ← alternate_eq_flatMap] at hd
    rcases getElem?_concat_eq_some.mp hd with hd | ⟨rfl, rfl⟩
    · obtain ⟨j, b, hb, hk⟩ := getElem?_alternate.mp hd
      obtain ⟨p, hp⟩ := exists_getElem?_of_getElem? hlen hb
      rcases hk with ⟨rfl, rfl⟩ | ⟨rfl, rfl⟩
      · exact spelledAt_call (getElem?_alternate_fst hp) rfl (htests j p b hp hb)
      · exact spelledAt_call (getElem?_alternate_snd hp) rfl (houtputs j p b hp hb)
    · rw [length_alternate, hlen]
      exact spelledAt_call getElem?_alternate_last rfl hotherwise
  | @matching _ pairs branches rawInput rawLast input otherwise _ _ hlen _ _ houtputs hinput
      hotherwise =>
    refine ⟨fun k => if k < pairs.length + 1 then 2 * k + 1 else k + pairs.length + 1, ?_, ?_⟩
    · intro a b hab
      dsimp only
      split_ifs <;> omega
    · intro k d hd
      rw [Expr.children, List.cons_append] at hd
      cases k with
      | zero =>
        cases hd
        dsimp only
        rw [if_pos (Nat.succ_pos _)]
        exact spelledAt_call (i := 0) rfl rfl hinput
      | succ k =>
        rcases getElem?_concat_eq_some.mp hd with hd | ⟨rfl, rfl⟩
        · rw [List.getElem?_map, Option.map_eq_some_iff] at hd
          obtain ⟨b, hb, rfl⟩ := hd
          obtain ⟨p, hp⟩ := exists_getElem?_of_getElem? hlen hb
          dsimp only
          rw [if_pos (Nat.succ_lt_succ (List.getElem?_eq_some_iff.mp hp).1)]
          exact spelledAt_call (i := 2 * k + 2) (getElem?_alternate_snd hp) rfl
            (houtputs k p b hp hb)
        · rw [List.length_map, hlen]
          dsimp only
          rw [if_neg (by omega), show pairs.length + 1 + pairs.length + 1 = 2 * pairs.length + 1 + 1
            by omega]
          exact spelledAt_call (i := 2 * pairs.length + 1) getElem?_alternate_last rfl hotherwise
  | @curve _ pairs stops rawKind rawInput _ input _ _ hlen _ hinput _ _ houtputs =>
    refine ⟨fun k => 2 * k + 2, fun a b hab => by dsimp only; omega, fun k d hd => ?_⟩
    cases k with
    | zero =>
      cases hd
      exact spelledAt_call (i := 1) rfl rfl hinput
    | succ k =>
      rw [Expr.children, List.getElem?_cons_succ, List.getElem?_map, Option.map_eq_some_iff] at hd
      obtain ⟨s, hs, rfl⟩ := hd
      obtain ⟨p, hp⟩ := exists_getElem?_of_getElem? hlen hs
      have hsub : (alternate pairs)[2 * k + 1]? = some p.2 := by
        rw [← List.append_nil (alternate pairs)]
        exact getElem?_alternate_snd hp
      exact spelledAt_call (i := 2 * k + 3) hsub rfl (houtputs k p s hp hs)
  | @arrayOf _ raws _ _ rawInput input _ hinput =>
    refine ⟨(· + (raws.length + 1)), fun a b hab => Nat.add_lt_add_right hab _, fun k d hd => ?_⟩
    cases k with
    | succ => cases hd
    | zero =>
      cases hd
      dsimp only
      rw [Nat.zero_add]
      exact spelledAt_call (getElem?_concat_eq_some.mpr (.inr ⟨rfl, rfl⟩)) rfl hinput
  | @apply _ op raws args _ hlen hargs =>
    refine ⟨(· + 1), fun a b hab => Nat.succ_lt_succ hab, fun k d hd => ?_⟩
    obtain ⟨sub, hsub⟩ := exists_getElem?_of_getElem? hlen hd
    exact spelledAt_call hsub rfl (hargs k sub d hsub hd)

theorem Spells.exists_place_of_mem {c : Context} {raw : Json N} {e d : Expr N} (h : Spells c raw e)
    (hd : d ∈ e.children) : ∃ i, SpelledAt c raw i d := by
  obtain ⟨place, -, hplace⟩ := h.exists_places
  obtain ⟨k, hk⟩ := List.mem_iff_getElem?.mp hd
  exact ⟨place k, hplace k d hk⟩

/-! ## Nodes -/

/-- Every node is spelled by what stands at its key. -/
theorem Spells.exists_place {c : Context} {raw : Json N} {e d : Expr N} (h : Spells c raw e)
    (hd : d ∈ e.nodes) :
    ∃ path inner sub, inner.key = c.key ++ path ∧ raw.at? path = some sub ∧ Spells inner sub d := by
  induction e using Expr.induction_on_children generalizing c raw with
  | h e ih =>
    rcases Expr.mem_nodes.mp hd with rfl | ⟨child, hchild, hd⟩
    · exact ⟨[], c, raw, (List.append_nil _).symm, rfl, h⟩
    · obtain ⟨i, below, item, hkey, hitem, hbelow⟩ := h.exists_place_of_mem hchild
      obtain ⟨path, inner, sub, hinner, hsub, hspells⟩ := ih child hchild hbelow hd
      refine ⟨i :: path, inner, sub, ?_, ?_, hspells⟩
      · rw [hinner, hkey, List.append_assoc]
        rfl
      · rw [Json.at?_cons, hitem]
        exact hsub

/-- The key of a node below begins with the key of the node above. -/
theorem Spells.exists_key_eq {c : Context} {raw : Json N} {e d : Expr N} (h : Spells c raw e)
    (hd : d ∈ e.nodes) : ∃ path, d.key = c.key ++ path := by
  obtain ⟨path, inner, sub, hinner, -, hspells⟩ := h.exists_place hd
  exact ⟨path, hspells.key_eq.trans hinner⟩

/-- The keys of the nodes of a tree are distinct. -/
theorem Spells.nodup_keys {c : Context} {raw : Json N} {e : Expr N} (h : Spells c raw e) :
    (e.nodes.map Expr.key).Nodup := by
  induction e using Expr.induction_on_children generalizing c raw with
  | h e ih =>
    obtain ⟨place, hmono, hplace⟩ := h.exists_places
    have hbelow : ∀ (k : Nat) d x, e.children[k]? = some d → x ∈ d.nodes.map Expr.key →
        ∃ path, x = c.key ++ place k :: path := by
      intro k d x hk hx
      obtain ⟨n, hn, rfl⟩ := List.mem_map.mp hx
      obtain ⟨inner, sub, hinner, -, hspells⟩ := hplace k d hk
      obtain ⟨path, hpath⟩ := hspells.exists_key_eq hn
      exact ⟨path, by rw [hpath, hinner, List.append_assoc]; rfl⟩
    rw [Expr.nodes_eq, List.map_cons, List.map_flatMap, List.nodup_cons, List.nodup_flatMap]
    refine ⟨fun hmem => ?_, fun d hd => ?_, ?_⟩
    · obtain ⟨d, hd, hx⟩ := List.mem_flatMap.mp hmem
      obtain ⟨k, hk⟩ := List.mem_iff_getElem?.mp hd
      obtain ⟨path, hpath⟩ := hbelow k d _ hk hx
      rw [h.key_eq] at hpath
      exact List.cons_ne_nil _ _ (List.self_eq_append_right.mp hpath)
    · obtain ⟨k, inner, sub, -, -, hspells⟩ := h.exists_place_of_mem hd
      exact ih d hd hspells
    · rw [List.pairwise_iff_getElem]
      intro i j hi hj hij x hxi hxj
      obtain ⟨path, hpath⟩ := hbelow i _ x (List.getElem?_eq_getElem hi) hxi
      obtain ⟨path', hpath'⟩ := hbelow j _ x (List.getElem?_eq_getElem hj) hxj
      have hplaces := (List.cons.inj (List.append_cancel_left (hpath.symm.trans hpath'))).1
      exact absurd hplaces (Nat.ne_of_lt (hmono hij))

end Parse

namespace Expr

open Parse

variable [Scalar N]

/-- Keys are places in the expression as written. All errors stand at one. Every node is what is
parsed from the value at its key, the key of a child goes one step on from that of its parent, and no
two nodes have one key, not even as written. -/
theorem places_of_parse (raw : Json N) (expected : Option Ty) :
    match parse raw expected with
    | .error errors => ∀ err ∈ errors, ∃ sub, raw.at? err.key = some sub
    | .ok e =>
      (∀ d ∈ e.nodes, ∃ c sub, c.key = d.key ∧ raw.at? d.key = some sub ∧
        (parser sub c).result = some d) ∧
      (∀ d ∈ e.nodes, ∀ child ∈ d.children, ∃ i, child.key = d.key ++ [i]) ∧
      (e.nodes.map fun d => d.key.text).Nodup := by
  split
  · next errors h =>
    intro err herr
    obtain ⟨-, rfl⟩ := parse_eq_error_iff.mp h
    obtain ⟨⟨path, sub, hkey, hsub⟩, -⟩ := (parser_reports raw (.root expected)).kind err herr
    obtain rfl : err.key = path := hkey
    exact ⟨sub, hsub⟩
  · next e h =>
    have hspells := parse_eq_ok_iff.mp h
    refine ⟨fun d hd => ?_, fun d hd child hchild => ?_, ?_⟩
    · obtain ⟨path, inner, sub, hkey, hsub, hd⟩ := hspells.exists_place hd
      obtain rfl : inner.key = path := hkey
      rw [← hd.key_eq] at hsub
      exact ⟨inner, sub, hd.key_eq.symm, hsub, parser_result_iff.mpr hd⟩
    · obtain ⟨path, inner, sub, hkey, -, hd⟩ := hspells.exists_place hd
      obtain ⟨i, below, item, hbelow, -, hitem⟩ := hd.exists_place_of_mem hchild
      exact ⟨i, by rw [hitem.key_eq, hbelow, hd.key_eq]⟩
    · rw [show (fun d : Expr N => d.key.text) = Path.text ∘ Expr.key from rfl, ← List.map_map]
      exact hspells.nodup_keys.map Path.text_injective

end Expr

end MapStyle
