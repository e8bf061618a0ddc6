import MapStyle.Curve.Evaluation
import MapStyle.Feature
import MapStyle.Proofs.Evaluation.Outcome
import MapStyle.Proofs.Value.Membership

/-!
# Curves stay within their stops and their type

* `findStop_lt`: the search ends at a stop, for stops in any order and any `x`.
* `select_lt`: the outputs that a curve asks for exist.
* `evaluate_yields`: where all outputs have a type, so has the curve, and it fails only because of
  the data.
-/

namespace MapStyle.Curve

variable {N : Type} [Scalar N]

/-! ## Indices -/

/-- The search looks at stops of the list only, and ends there. -/
theorem searchStops_lt {stops : List N} {x : N} {first width last : Nat}
    (hwidth : first + width ≤ stops.length) (hlast : last < stops.length) :
    searchStops stops x first width last < stops.length := by
  fun_induction searchStops stops x first width last with
  | case1 => omega
  | case2 => omega
  | case3 first width last hpos middle stop hstop belowNext heq hless ih =>
    exact ih (by omega) (by omega)
  | case4 first width last hpos middle stop hstop belowNext heq hless hless' ih =>
    exact ih (by omega) (by omega)
  | case5 => omega
  | case6 => omega

theorem findStop_lt {stops : List N} (x : N) (h : stops ≠ []) :
    findStop stops x < stops.length := by
  have hpos : 0 < stops.length := List.length_pos_iff.mpr h
  exact searchStops_lt (by omega) hpos

section

variable {interpolation : Interpolation N} {stops : List N} {x : N} {index : Nat} {factor : N}

omit [Scalar N] in
theorem isStep_of_ne (h : interpolation ≠ .step) : interpolation.isStep = false := by
  cases interpolation with
  | step => exact absurd rfl h
  | _ => rfl

theorem lt_of_select_only (hstops : stops ≠ [])
    (h : select interpolation stops x = .only index) : index < stops.length := by
  have hpos : 0 < stops.length := List.length_pos_iff.mpr hstops
  have hfind := findStop_lt x hstops
  unfold select at h
  dsimp only at h
  split at h
  · cases h
    exact hpos
  · split at h
    · cases h
      omega
    · split at h
      · cases h
        exact hfind
      · cases h
      · cases h
        exact hfind

/-- Two outputs are asked for only by a curve that blends, and both exist. -/
theorem lt_of_select_between (h : select interpolation stops x = .between index factor) :
    index + 1 < stops.length ∧ interpolation.isStep = false := by
  unfold select at h
  dsimp only at h
  split at h
  · cases h
  · split at h
    · cases h
    · split at h
      · cases h
      · next hstep _ hupper =>
        cases h
        exact ⟨(List.getElem?_eq_some_iff.mp hupper).1, isStep_of_ne hstep⟩
      · cases h

end

/-! ## Blending -/

theorem blendItems_yields (t : N) {lower upper : List (Value N)}
    (hlower : ∀ v ∈ lower, v.Belongs .number) (hupper : ∀ v ∈ upper, v.Belongs .number)
    (hlength : lower.length = upper.length) :
    Yields (fun vs => vs.length = lower.length ∧ ∀ v ∈ vs, v.Belongs .number)
      (blendItems t lower upper) := by
  induction lower generalizing upper with
  | nil =>
    obtain rfl := List.eq_nil_of_length_eq_zero hlength.symm
    exact ⟨rfl, fun v hv => absurd hv List.not_mem_nil⟩
  | cons a lower ih =>
    cases upper with
    | nil => cases hlength
    | cons b upper =>
      rw [List.forall_mem_cons] at hlower hupper
      obtain ⟨x, rfl⟩ := hlower.1
      obtain ⟨y, rfl⟩ := hupper.1
      refine (ih hlower.2 hupper.2 (Nat.succ.inj hlength)).bind fun vs hvs => ?_
      refine ⟨congrArg Nat.succ hvs.1, ?_⟩
      rw [List.forall_mem_cons]
      exact ⟨⟨_, rfl⟩, hvs.2⟩

/-- Outputs of a type that can be blended blend to a value of the type, unless they are arrays of
different lengths. -/
theorem blend_yields {t : Ty} (ht : OutputKind.ofType t ≠ .discrete) {lower upper : Value N}
    (hlower : lower.Belongs t) (hupper : upper.Belongs t) (factor : N) :
    Yields (fun v => v.Belongs t) (blend (.ofType t) lower upper factor) := by
  cases t with
  | number =>
    obtain ⟨a, rfl⟩ := hlower
    obtain ⟨b, rfl⟩ := hupper
    exact ⟨_, rfl⟩
  | color =>
    obtain ⟨a, rfl⟩ := hlower
    obtain ⟨b, rfl⟩ := hupper
    exact ⟨_, rfl⟩
  | array item length =>
    cases item with
    | number =>
      obtain ⟨a, rfl, ha, halength⟩ := hlower
      obtain ⟨b, rfl, hb, -⟩ := hupper
      show Yields _ (blendArray a b factor >>= fun vs => .ok (Value.array vs))
      unfold blendArray
      split
      · next heq =>
        refine (blendItems_yields factor ha hb heq).bind fun vs hvs => ?_
        exact ⟨vs, rfl, hvs.2, fun n hn => hvs.1.trans (halength n hn)⟩
      · trivial
    | _ => exact absurd rfl ht
  | _ => exact absurd rfl ht

/-! ## Evaluation -/

section

variable {env : Env N} {t : Ty} {outputs : List (Eval N (Value N))}

omit [Scalar N] in
theorem output_yields (h : ∀ o ∈ outputs, Yields (fun v => v.Belongs t) (o env)) {index : Nat}
    (hindex : index < outputs.length) :
    Yields (fun v => v.Belongs t) (output outputs index env) := by
  unfold output
  rw [List.getElem?_eq_getElem hindex]
  exact h _ (List.getElem_mem hindex)

/-- A curve over outputs of its type has values of the type, if it only chooses among them or if they
can be blended. -/
theorem evaluate_yields {interpolation : Interpolation N}
    (hkind : interpolation.isStep = true ∨ OutputKind.ofType t ≠ .discrete) {stops : List N}
    (hstops : stops ≠ []) (hlength : stops.length = outputs.length)
    (h : ∀ o ∈ outputs, Yields (fun v => v.Belongs t) (o env)) {input : Value N}
    (hinput : input.Belongs .number) :
    Yields (fun v => v.Belongs t) (evaluate interpolation (.ofType t) stops outputs input env) := by
  obtain ⟨x, rfl⟩ := hinput
  have hshape : ¬(stops.length = 0 ∨ stops.length ≠ outputs.length) := by
    rintro (hnil | hne)
    · exact hstops (List.eq_nil_of_length_eq_zero hnil)
    · exact hne hlength
  unfold evaluate
  dsimp only
  rw [if_neg hshape]
  cases hselect : select interpolation stops x with
  | only index =>
    have hindex := lt_of_select_only hstops hselect
    exact output_yields h (hlength ▸ hindex)
  | between index factor =>
    obtain ⟨hindex, hstep⟩ := lt_of_select_between hselect
    have hblend : OutputKind.ofType t ≠ .discrete := by
      rcases hkind with hkind | hkind
      · rw [hstep] at hkind
        cases hkind
      · exact hkind
    refine Yields.bind_eval (output_yields h (by omega)) fun lower hlower => ?_
    refine Yields.bind_eval (output_yields h (by omega)) fun upper hupper => ?_
    have hresult := blend_yields hblend hlower hupper factor
    cases hb : blend (.ofType t) lower upper factor with
    | ok v => exact hresult.of_ok hb
    | error failure => exact hresult.of_error hb

end

end MapStyle.Curve
