import MapStyle.Binary64.Scalar
import MapStyle.Proofs.Decimal.Grammar
import MapStyle.Value.Coercion

/-!
# Texts that are numbers

`Value.SpellsNumber` is the grammar of texts that convert to a number: no text at all, the word `Infinity`
in this letter case, or a decimal, the last two with an optional sign.

The words for infinities that numerals have beyond that are excluded by name, which leaves those with a
sign: `numberOfText?_eq_some_iff` has them as a case of its own.
-/

namespace MapStyle.Value

open Text Numeral

variable {N : Type} [Scalar N]

/-- The number that a text without blanks around it spells. -/
inductive SpellsNumber : List Char → N → Prop
  | blank : SpellsNumber [] (Scalar.ofInt 0)
  | infinity {sign : List Char} {negative : Bool} (hsign : SpellsSign sign negative) :
    SpellsNumber (sign ++ "Infinity".toList) (if negative then -Scalar.infinity else Scalar.infinity)
  | decimal {sign body : List Char} {negative : Bool} {digits : Nat} {exponent : Int}
    (hsign : SpellsSign sign negative) (hbody : SpellsDecimal body digits exponent) :
    SpellsNumber (sign ++ body)
      (if negative then -Scalar.ofDecimal digits exponent else Scalar.ofDecimal digits exponent)

/-- A word for an infinity behind a sign, in any spelling that numerals have. -/
inductive SpellsSignedInfinity : List Char → N → Prop
  | mk {sign word : List Char} {negative : Bool} (hsign : SpellsSign sign negative) (hne : sign ≠ [])
    (hword : IsInfinity word) :
    SpellsSignedInfinity (sign ++ word) (if negative then -Scalar.infinity else Scalar.infinity)

/-! ## Words -/

theorem mem_reservedWords_iff {text : List Char} :
    String.ofList (lowerBasic text) ∈ reservedWords ↔ IsWord text := by
  unfold reservedWords IsWord IsInfinity
  simp only [List.mem_cons, List.not_mem_nil, or_false, String.ofList_eq, or_assoc]

theorem not_isWord_of_sign {sign : List Char} {negative : Bool} (hsign : SpellsSign sign negative)
    (hne : sign ≠ []) (rest : List Char) : ¬IsWord (sign ++ rest) := by
  intro hword
  cases hsign with
  | absent => exact hne rfl
  | plus => exact (hword.startsNoSign '+' rfl).1 rfl
  | minus => exact (hword.startsNoSign '-' rfl).2 rfl

/-! ## The text by what it is read as -/

section

variable {text : String}

theorem numberOfText?_blank (hblank : trim text.toList = []) :
    numberOfText? text = some (Scalar.ofInt 0 : N) :=
  if_pos hblank

theorem numberOfText?_word (hword : IsWord (trim text.toList)) : (numberOfText? text : Option N) =
    if trim text.toList = "Infinity".toList then some Scalar.infinity else none := by
  obtain ⟨hplus, hminus⟩ : trim text.toList ≠ "+Infinity".toList ∧ trim text.toList ≠ "-Infinity".toList :=
    ⟨fun h => not_isWord_of_sign .plus nofun _ (h ▸ hword),
      fun h => not_isWord_of_sign .minus nofun _ (h ▸ hword)⟩
  have hne : trim text.toList ≠ [] := by
    obtain ⟨c, rest, heq, -⟩ := hword.exists_head
    rw [heq]
    nofun
  unfold numberOfText?
  dsimp only
  rw [if_neg hne, if_neg hminus, if_pos (mem_reservedWords_iff.mpr hword)]
  simp only [hplus, or_false]

/-- Any other text is a number when it is a numeral. This holds of the two words with a sign too, which
are read before numerals. -/
theorem numberOfText?_numeral (hne : trim text.toList ≠ []) (hword : ¬IsWord (trim text.toList)) :
    (numberOfText? text : Option N) = (read? (trim text.toList)).bind Scalar.ofNumeral? := by
  unfold numberOfText?
  dsimp only
  rw [if_neg hne, if_neg (mt mem_reservedWords_iff.mp hword)]
  split
  · next h =>
    rcases h with h | h
    · rw [h] at hword
      exact absurd (.inl (.inr rfl)) hword
    · rw [h]
      rfl
  · split
    · next h =>
      rw [h]
      rfl
    · rfl

end

theorem spells_of_numberOfText? {text : String} {x : N} (h : numberOfText? text = some x) :
    SpellsNumber (trim text.toList) x ∨ SpellsSignedInfinity (trim text.toList) x := by
  by_cases hblank : trim text.toList = []
  · rw [numberOfText?_blank hblank] at h
    obtain rfl := Option.some.inj h
    rw [hblank]
    exact .inl .blank
  by_cases hword : IsWord (trim text.toList)
  · rw [numberOfText?_word hword] at h
    split at h
    · next hinfinity =>
      obtain rfl := Option.some.inj h
      rw [hinfinity]
      exact .inl (.infinity .absent)
    · cases h
  · rw [numberOfText?_numeral hblank hword] at h
    obtain ⟨numeral, hread, hvalue⟩ := Option.bind_eq_some_iff.mp h
    have hspells := read?_eq_some_iff.mp hread
    generalize trim text.toList = body at hspells hword
    cases hspells with
    | nan => cases hvalue
    | @infinite sign word negative hsign hinfinity =>
      obtain rfl := Option.some.inj hvalue
      have hne : sign ≠ [] := by
        rintro rfl
        exact hword (.inl hinfinity)
      exact .inr (.mk hsign hne hinfinity)
    | finite hsign hbody =>
      obtain rfl := Option.some.inj hvalue
      exact .inl (.decimal hsign hbody)

/-- A numeral whose sign or whose body keeps it from being a word. -/
theorem numberOfText?_of_read? {text : String} {sign body : List Char} {negative : Bool}
    {numeral : Numeral} (htext : trim text.toList = sign ++ body) (hsign : SpellsSign sign negative)
    (hword : sign ≠ [] ∨ ¬IsWord body) (hread : Spells (sign ++ body) numeral) :
    (numberOfText? text : Option N) = Scalar.ofNumeral? numeral := by
  have hnot : ¬IsWord (sign ++ body) := by
    by_cases hne : sign = []
    · rw [hne, List.nil_append]
      exact hword.resolve_left (not_not_intro hne)
    · exact not_isWord_of_sign hsign hne body
  have hblank : sign ++ body ≠ [] := by
    intro h
    rw [h] at hread
    cases read?_eq_some_iff.mpr hread
  rw [numberOfText?_numeral (htext ▸ hblank) (htext ▸ hnot), htext, read?_eq_some_iff.mpr hread]
  rfl

theorem numberOfText?_of_spells {text : String} {x : N} (h : SpellsNumber (trim text.toList) x) :
    numberOfText? text = some x := by
  generalize htext : trim text.toList = body at h
  cases h with
  | blank => exact numberOfText?_blank htext
  | @infinity sign negative hsign =>
    by_cases hne : sign = []
    · subst hne
      cases hsign
      rw [numberOfText?_word (htext ▸ .inl (.inr rfl)), htext]
      rfl
    · exact numberOfText?_of_read? htext hsign (.inl hne) (.infinite hsign (.inr rfl))
  | decimal hsign hdecimal =>
    exact numberOfText?_of_read? htext hsign (.inr hdecimal.not_isWord) (.finite hsign hdecimal)

theorem numberOfText?_of_signedInfinity {text : String} {x : N}
    (h : SpellsSignedInfinity (trim text.toList) x) : numberOfText? text = some x := by
  generalize htext : trim text.toList = body at h
  obtain ⟨hsign, hne, hword⟩ := h
  exact numberOfText?_of_read? htext hsign (.inl hne) (.infinite hsign hword)

/-- A text converts to a number exactly when, blanks around it aside, it spells one, or an infinity behind
a sign; any other text converts to none. -/
theorem numberOfText?_eq_some_iff {text : String} {x : N} : numberOfText? text = some x ↔
    SpellsNumber (trim text.toList) x ∨ SpellsSignedInfinity (trim text.toList) x :=
  ⟨spells_of_numberOfText?, fun h => h.elim numberOfText?_of_spells numberOfText?_of_signedInfinity⟩

/-- A sign lets a word through that is excluded without one. -/
theorem signed_word_is_number : (numberOfText? "+inf" : Option Float).isSome = true ∧
    ∀ x : Float, ¬SpellsNumber (trim "+inf".toList) x := by
  refine ⟨by decide +kernel, fun x h => ?_⟩
  have htrim : trim "+inf".toList = ['+', 'i', 'n', 'f'] := by decide +kernel
  rw [htrim] at h
  generalize htext : ['+', 'i', 'n', 'f'] = text at h
  cases h with
  | blank => cases htext
  | infinity hsign => cases hsign <;> cases htext
  | decimal hsign hbody =>
    obtain ⟨c, rest, rfl, hc⟩ := hbody.exists_head
    cases hsign with
    | absent | plus =>
      cases htext
      exact absurd hc (by decide)
    | minus => cases htext

end MapStyle.Value
