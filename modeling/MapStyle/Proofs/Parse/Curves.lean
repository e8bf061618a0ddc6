import MapStyle.Proofs.Parse.Arguments

/-!
# What a curve makes of its arguments

`curve_shape` gives the arguments that a curve can come from, and `curve_result_iff` the curve that
comes from arguments of that shape. The inputs of stops ascend exactly when each step of the parser
finds its input above the one before (`ascending_iff`).
-/

namespace MapStyle

variable {N : Type}

namespace Parse

section

variable [Scalar N] {c : Context} {e : Expr N}

theorem curve_shape {args : List (Argument N)} (h : (curve c args).result = some e) :
    ∃ kind input pairs, pairs ≠ [] ∧ args = kind :: input :: alternate pairs := by
  unfold curve at h
  split at h
  · cases h
  · split at h
    · cases h
    · cases args with
      | nil => exact absurd (Nat.succ_pos 3) ‹_›
      | cons kind rest =>
        cases rest with
        | nil => exact absurd (Nat.succ_lt_succ (Nat.succ_pos 2)) ‹_›
        | cons input rest =>
          simp only [List.length_cons] at *
          obtain ⟨pairs, rfl⟩ := exists_alternate rest (by omega)
          refine ⟨kind, input, pairs, ?_, rfl⟩
          rintro rfl
          simp only [alternate, List.length_nil] at *
          omega

/-- What stops settle once one more has been parsed. -/
def afterStop (state : Option N × Option Ty) (s : N × Expr N) : Option N × Option Ty :=
  (some s.1, unifyOutput state.2 (some s.2))

theorem stopStep_result_iff {state : Option N × Option Ty} {i : Nat}
    {p : Argument N × Argument N} {s : N × Expr N} :
    (stopStep c state (i, p)).2.result = some s ↔ p.1.raw.number? = some s.1 ∧
      state.1.any (Scalar.atMost s.1) = false ∧
      (p.2.parse (c.child (i + 1) state.2)).result = some s.2 := by
  obtain ⟨previous, shared⟩ := state
  obtain ⟨x, output⟩ := s
  unfold stopStep
  dsimp only
  cases hx : p.1.raw.number? with
  | none => simp [Context.failAt]
  | some y =>
    dsimp only
    cases hprevious : previous.any (Scalar.atMost y) with
    | true =>
      rw [if_pos rfl]
      constructor
      · rintro ⟨⟩
      · rintro ⟨⟨⟩, h, -⟩
        rw [hprevious] at h
        cases h
    | false =>
      rw [if_neg (by decide)]
      dsimp only
      rw [Checked.map_result_eq_some]
      constructor
      · rintro ⟨_, houtput, ⟨⟩⟩
        exact ⟨rfl, hprevious, houtput⟩
      · rintro ⟨⟨⟩, -, houtput⟩
        exact ⟨output, houtput, rfl⟩

theorem stopStep_next (state : Option N × Option Ty) (a : Nat × Argument N × Argument N)
    (s : N × Expr N) (h : (stopStep c state a).2.result = some s) :
    (stopStep c state a).1 = afterStop state s := by
  obtain ⟨i, p⟩ := a
  obtain ⟨previous, shared⟩ := state
  obtain ⟨hx, hprevious, houtput⟩ := stopStep_result_iff.mp h
  unfold stopStep
  dsimp only at hprevious houtput ⊢
  rw [hx]
  dsimp only
  rw [if_neg (by rw [hprevious]; decide)]
  dsimp only
  rw [houtput]
  rfl

omit [Scalar N] in
theorem foldl_afterStop (state : Option N × Option Ty) (stops : List (N × Expr N)) :
    stops.foldl afterStop state = (stops.foldl (fun _ s => some s.1) state.1,
      settle state.2 (stops.map (·.2))) := by
  induction stops generalizing state with
  | nil => rfl
  | cons s rest ih =>
    rw [List.foldl_cons, ih]
    rfl

/-- Each input is checked against the one before it. -/
theorem ascending_iff (previous : Option N) (stops : List (N × Expr N)) :
    (∀ (i : Nat) s, stops[i]? = some s →
      ((stops.take i).foldl (fun _ s => some s.1) previous).any (Scalar.atMost s.1) = false) ↔
    (previous.toList ++ stops.map (·.1)).IsChain fun x y => Scalar.atMost y x = false := by
  induction stops generalizing previous with
  | nil => cases previous <;> simp
  | cons s rest ih =>
    have hchain : (previous.toList ++ (s :: rest).map (·.1)).IsChain
        (fun x y => Scalar.atMost y x = false) ↔ previous.any (Scalar.atMost s.1) = false ∧
          (s.1 :: rest.map (·.1)).IsChain fun x y => Scalar.atMost y x = false := by
      cases previous with
      | none => exact (and_iff_right rfl).symm
      | some x => exact List.isChain_cons_cons
    have hrest := ih (some s.1)
    rw [hchain]
    constructor
    · exact fun h => ⟨h 0 s rfl, hrest.mp fun i s' hs' => h (i + 1) s' hs'⟩
    · rintro ⟨hs, h⟩ i s' hs'
      cases i with
      | zero =>
        obtain rfl := Option.some.inj hs'
        exact hs
      | succ i => exact hrest.mpr h i s' hs'

theorem interpolation_result_iff {raw : Json N} {kind : Interpolation N} :
    (interpolation c raw).result = some kind ↔ readInterpolation raw = .ok kind := by
  unfold interpolation
  cases readInterpolation raw with
  | ok kind' => simp
  | error problem => simp [Context.failAt]

theorem curve_eq {kind input : Argument N} {pairs : List (Argument N × Argument N)}
    (hne : pairs ≠ []) :
    curve c (kind :: input :: alternate pairs) =
      let swept := Checked.sweep (stopStep c) (none, c.outputHint) (pairsFrom 3 (alternate pairs))
      let type := swept.1.2.getD .error
      ((interpolation c kind.raw).zip (input.parse (c.child 2 (some .number)))).zip swept.2 >>=
        fun ((kind, input), stops) =>
          if !kind.isStep && Curve.OutputKind.ofType type == .discrete then
            c.fail (.notInterpolatable type kind.name)
          else pure (.curve c.key type kind input stops) := by
  have hpos : 0 < pairs.length := List.length_pos_iff.mpr hne
  have hlen : (kind :: input :: alternate pairs).length = 2 * pairs.length + 2 := by
    rw [List.length_cons, List.length_cons, length_alternate]
  unfold curve
  rw [hlen, if_neg (by omega), if_neg (by omega)]

theorem curve_result_iff {kind input : Argument N} {pairs : List (Argument N × Argument N)}
    (hne : pairs ≠ []) :
    (curve c (kind :: input :: alternate pairs)).result = some e ↔
      ∃ kind' input' stops, stops.length = pairs.length ∧
        readInterpolation kind.raw = .ok kind' ∧
        (input.parse (c.child 2 (some .number))).result = some input' ∧
        (∀ (i : Nat) p s, pairs[i]? = some p → stops[i]? = some s →
          p.1.raw.number? = some s.1 ∧ (p.2.parse (c.child (2 * i + 4)
            (settle c.outputHint ((stops.take i).map (·.2))))).result = some s.2) ∧
        ((stops.map (·.1)).IsChain fun x y => Scalar.atMost y x = false) ∧
        (kind'.isStep = true ∨ Curve.OutputKind.ofType
          ((settle c.outputHint (stops.map (·.2))).getD .error) ≠ .discrete) ∧
        e = .curve c.key ((settle c.outputHint (stops.map (·.2))).getD .error) kind' input'
          stops := by
  have hsweep : ∀ stops : List (N × Expr N),
      (Checked.sweep (stopStep c) (none, c.outputHint) (pairsFrom 3 (alternate pairs))).2.result =
        some stops ↔
      stops.length = pairs.length ∧
        (∀ (i : Nat) p s, pairs[i]? = some p → stops[i]? = some s →
          p.1.raw.number? = some s.1 ∧ (p.2.parse (c.child (2 * i + 4)
            (settle c.outputHint ((stops.take i).map (·.2))))).result = some s.2) ∧
        (stops.map (·.1)).IsChain fun x y => Scalar.atMost y x = false := by
    intro stops
    rw [sweep_pairs_result_iff stopStep_next]
    refine and_congr_right fun hcount => ?_
    have hascending := ascending_iff none stops
    rw [Option.toList_none, List.nil_append] at hascending
    rw [← hascending]
    simp only [foldl_afterStop, stopStep_result_iff, Nat.add_comm 3, Nat.add_assoc]
    constructor
    · intro h
      refine ⟨fun i p s hp hs => ⟨(h i p s hp hs).1, (h i p s hp hs).2.2⟩, fun i s hs => ?_⟩
      have hi : i < pairs.length := hcount ▸ (List.getElem?_eq_some_iff.mp hs).1
      exact (h i _ s (List.getElem?_eq_getElem hi) hs).2.1
    · rintro ⟨hparts, horder⟩ i p s hp hs
      exact ⟨(hparts i p s hp hs).1, horder i s hs, (hparts i p s hp hs).2⟩
  have hblend : ∀ (kind : Interpolation N) (type : Ty),
      (!kind.isStep && Curve.OutputKind.ofType type == .discrete) = true ↔
        ¬(kind.isStep = true ∨ Curve.OutputKind.ofType type ≠ .discrete) := by
    intro kind type
    simp
  rw [curve_eq hne]
  simp only [Checked.bind_result_eq_some, Prod.exists, Checked.zip_result_eq_some,
    interpolation_result_iff, hsweep]
  constructor
  · rintro ⟨kind', input', stops, ⟨⟨hkind, hinput⟩, hstops⟩, he⟩
    have hstate := Checked.sweep_state stopStep_next ((hsweep stops).mpr hstops)
    rw [foldl_afterStop] at hstate
    rw [hstate] at he
    dsimp only at he
    split at he
    · cases he
    · next hkinds =>
      cases he
      exact ⟨kind', input', stops, hstops.1, hkind, hinput, hstops.2.1, hstops.2.2,
        not_not.mp (mt (hblend ..).mpr hkinds), rfl⟩
  · rintro ⟨kind', input', stops, hcount, hkind, hinput, hparts, hascending, hkinds, rfl⟩
    have hstate := Checked.sweep_state stopStep_next ((hsweep stops).mpr ⟨hcount, hparts, hascending⟩)
    rw [foldl_afterStop] at hstate
    refine ⟨kind', input', stops, ⟨⟨hkind, hinput⟩, hcount, hparts, hascending⟩, ?_⟩
    rw [hstate]
    dsimp only
    rw [if_neg fun h => (hblend ..).mp h hkinds]
    rfl

end

end Parse

end MapStyle
