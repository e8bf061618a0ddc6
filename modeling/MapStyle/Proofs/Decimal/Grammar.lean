import Mathlib.Data.List.TakeWhile
import Mathlib.Data.String.Basic
import MapStyle.Decimal.Reading
import MapStyle.Proofs.Lists

/-!
# The grammar of numerals

`Numeral.Spells` says which texts are numerals and which numeral each of them is. `Numeral.read?` reads
exactly these (`Numeral.read?_eq_some_iff`).

A reader of digits takes all that it finds, so that a text is read as the grammar has it where what follows
the digits starts with no digit (`Numeral.span_digits`). An exponent starts with a letter, and what follows
a sign with a digit, a point or a letter.
-/

namespace MapStyle.Numeral

open Text

/-! ## The grammar -/

/-- Whether a text is made of decimal digits. -/
def AllDigits (ds : List Char) : Prop := ∀ c ∈ ds, c.isDigit = true

/-- An optional sign, and whether it is a minus. -/
inductive SpellsSign : List Char → Bool → Prop
  | absent : SpellsSign [] false
  | plus : SpellsSign ['+'] false
  | minus : SpellsSign ['-'] true

/-- An optional exponent: a letter `e`, an optional sign and digits. -/
inductive SpellsExponent : List Char → Int → Prop
  | absent : SpellsExponent [] 0
  | present {letter : Char} {sign ds : List Char} {negative : Bool} (hletter : letter = 'e' ∨ letter = 'E')
    (hsign : SpellsSign sign negative) (hne : ds ≠ []) (hds : AllDigits ds) :
    SpellsExponent (letter :: (sign ++ ds))
      (if negative then -(digitsValue ds : Int) else digitsValue ds)

/-- Digits with an optional point: the value of all digits, and the number of those behind the point.
Digits may be missing on one side of it. -/
inductive SpellsMantissa : List Char → Nat → Nat → Prop
  | whole {ds : List Char} (hne : ds ≠ []) (hds : AllDigits ds) : SpellsMantissa ds (digitsValue ds) 0
  | point {ds fraction : List Char} (hne : ds ≠ []) (hds : AllDigits ds) (hfraction : AllDigits fraction) :
    SpellsMantissa (ds ++ '.' :: fraction) (digitsValue (ds ++ fraction)) fraction.length
  | fraction {fraction : List Char} (hne : fraction ≠ []) (hfraction : AllDigits fraction) :
    SpellsMantissa ('.' :: fraction) (digitsValue fraction) fraction.length

/-- A decimal without a sign, `digits · 10 ^ exponent`. -/
inductive SpellsDecimal : List Char → Nat → Int → Prop
  | mk {mantissa power : List Char} {digits places : Nat} {exponent : Int}
    (hmantissa : SpellsMantissa mantissa digits places) (hpower : SpellsExponent power exponent) :
    SpellsDecimal (mantissa ++ power) digits (exponent - places)

/-- A word for an infinity, in any letter case. -/
def IsInfinity (word : List Char) : Prop :=
  lowerBasic word = "inf".toList ∨ lowerBasic word = "infinity".toList

instance (word : List Char) : Decidable (IsInfinity word) := inferInstanceAs (Decidable (_ ∨ _))

/-- A numeral: an optional sign before a word or a decimal. -/
inductive Spells : List Char → Numeral → Prop
  | nan {sign word : List Char} {negative : Bool} (hsign : SpellsSign sign negative)
    (hword : lowerBasic word = "nan".toList) : Spells (sign ++ word) .nan
  | infinite {sign word : List Char} {negative : Bool} (hsign : SpellsSign sign negative)
    (hword : IsInfinity word) : Spells (sign ++ word) (.infinite negative)
  | finite {sign body : List Char} {negative : Bool} {digits : Nat} {exponent : Int}
    (hsign : SpellsSign sign negative) (hbody : SpellsDecimal body digits exponent) :
    Spells (sign ++ body) (.finite negative digits exponent)

/-! ## Runs of digits -/

/-- Whether a text starts with no digit. -/
def StartsNoDigit (text : List Char) : Prop := ∀ c ∈ text.head?, c.isDigit = false

theorem span_digits {ds rest : List Char} (hds : AllDigits ds) (hrest : StartsNoDigit rest) :
    (ds ++ rest).span Char.isDigit = (ds, rest) :=
  span_append hds hrest

/-- Every text is a run of digits and a rest that starts with none. -/
theorem exists_digits (text : List Char) : ∃ ds rest, AllDigits ds ∧ StartsNoDigit rest ∧
    text = ds ++ rest := by
  refine ⟨text.takeWhile Char.isDigit, text.dropWhile Char.isDigit, ?_, ?_, ?_⟩
  · exact fun c hc => List.mem_takeWhile_imp hc
  · intro c hc
    have h := List.head?_dropWhile_not Char.isDigit text
    rw [Option.mem_def.mp hc] at h
    exact h
  · exact List.takeWhile_append_dropWhile.symm

theorem startsNoDigit_of_head {c : Char} (h : c.isDigit = false) (rest : List Char) :
    StartsNoDigit (c :: rest) := by
  rintro d hd
  obtain rfl := Option.some.inj hd
  exact h

theorem not_isDigit_of_isAlpha {c : Char} (h : c.isAlpha = true) : c.isDigit = false := by
  have hletter : 'A'.val ≤ c.val := by
    rcases Bool.or_eq_true_iff.mp h with hupper | hlower
    · exact (of_decide_eq_true hupper).1
    · exact UInt32.le_trans (by decide) (of_decide_eq_true (Bool.and_eq_true_iff.mp hlower).1)
  refine Bool.eq_false_iff.mpr fun hdigit => ?_
  have hnine : c.val ≤ '9'.val := of_decide_eq_true (Bool.and_eq_true_iff.mp hdigit).2
  exact absurd (UInt32.le_trans hletter hnine) (by decide)

/-! ## Signs -/

/-- Whether a text does not start with a sign. -/
def StartsNoSign (text : List Char) : Prop := ∀ c ∈ text.head?, c ≠ '+' ∧ c ≠ '-'

theorem readSign_append {sign body : List Char} {negative : Bool} (hsign : SpellsSign sign negative)
    (hbody : StartsNoSign body) : readSign (sign ++ body) = (negative, body) := by
  cases hsign with
  | absent =>
    cases body with
    | nil => rfl
    | cons c rest =>
      obtain ⟨hplus, hminus⟩ := hbody c rfl
      rw [List.nil_append, readSign]
      · exact fun _ h => hplus (List.cons.inj h).1
      · exact fun _ h => hminus (List.cons.inj h).1
  | plus => rfl
  | minus => rfl

theorem exists_sign (text : List Char) : ∃ sign negative body, SpellsSign sign negative ∧
    text = sign ++ body ∧ readSign text = (negative, body) := by
  fun_cases readSign text with
  | case1 rest => exact ⟨_, _, rest, .plus, rfl, rfl⟩
  | case2 rest => exact ⟨_, _, rest, .minus, rfl, rfl⟩
  | case3 => exact ⟨_, _, text, .absent, rfl, rfl⟩

theorem startsNoSign_of_head {c : Char} (hplus : c ≠ '+') (hminus : c ≠ '-') (rest : List Char) :
    StartsNoSign (c :: rest) := by
  rintro d hd
  obtain rfl := Option.some.inj hd
  exact ⟨hplus, hminus⟩

theorem startsNoSign_of_isDigit {c : Char} (h : c.isDigit = true) (rest : List Char) :
    StartsNoSign (c :: rest) := by
  refine startsNoSign_of_head ?_ ?_ rest
  · rintro rfl
    cases h
  · rintro rfl
    cases h

theorem AllDigits.exists_head {ds : List Char} (hds : AllDigits ds) (hne : ds ≠ []) :
    ∃ d rest, ds = d :: rest ∧ d.isDigit = true := by
  obtain ⟨d, rest, rfl⟩ := List.exists_cons_of_ne_nil hne
  exact ⟨d, rest, rfl, hds d List.mem_cons_self⟩

theorem AllDigits.startsNoSign {ds : List Char} (hds : AllDigits ds) (hne : ds ≠ []) :
    StartsNoSign ds := by
  obtain ⟨d, rest, rfl, hdigit⟩ := hds.exists_head hne
  exact startsNoSign_of_isDigit hdigit rest

/-! ## Exponents -/

theorem readExponent?_iff {text : List Char} {exponent : Int} :
    readExponent? text = some exponent ↔ SpellsExponent text exponent := by
  constructor
  · intro h
    unfold readExponent? at h
    split at h
    · obtain rfl := Option.some.inj h
      exact .absent
    · next letter rest =>
      split at h
      · next hletter =>
        obtain ⟨sign, negative, ds, hsign, rfl, hread⟩ := exists_sign rest
        rw [hread] at h
        dsimp only at h
        split at h
        · cases h
        · next hdigits =>
          rw [Bool.or_eq_true, not_or, Bool.not_eq_true', Bool.not_eq_false, List.isEmpty_iff,
            List.all_eq_true] at hdigits
          obtain rfl := Option.some.inj h
          exact .present hletter hsign hdigits.1 hdigits.2
      · cases h
  · intro h
    cases h with
    | absent => rfl
    | @present letter sign ds negative hletter hsign hne hds =>
      have hread := readSign_append hsign (hds.startsNoSign hne)
      have hdigits : (ds.isEmpty || !ds.all Char.isDigit) = false := by
        rw [Bool.or_eq_false_iff, List.isEmpty_eq_false_iff, Bool.not_eq_false', List.all_eq_true]
        exact ⟨hne, hds⟩
      rw [readExponent?, if_pos hletter, hread]
      dsimp only
      rw [hdigits]
      rfl

theorem SpellsExponent.startsNoDigit {text : List Char} {exponent : Int}
    (h : SpellsExponent text exponent) : StartsNoDigit text := by
  cases h with
  | absent => exact fun c hc => nomatch hc
  | present hletter =>
    refine startsNoDigit_of_head ?_ _
    rcases hletter with rfl | rfl <;> rfl

theorem SpellsExponent.head?_ne_point {text : List Char} {exponent : Int}
    (h : SpellsExponent text exponent) : text.head? ≠ some '.' := by
  cases h with
  | absent => nofun
  | present hletter => rcases hletter with rfl | rfl <;> nofun

/-! ## Decimals -/

theorem readDecimal?_whole {whole rest : List Char} (hwhole : AllDigits whole)
    (hrest : StartsNoDigit rest) (hpoint : rest.head? ≠ some '.') : readDecimal? (whole ++ rest) =
      if whole = [] then none else (readExponent? rest).map (digitsValue whole, ·) := by
  unfold readDecimal?
  rw [span_digits hwhole hrest]
  cases rest with
  | nil => simp
  | cons c rest =>
    have hc : c ≠ '.' := fun h => hpoint (congrArg some h)
    simp [hc]

theorem readDecimal?_point {whole fraction rest : List Char} (hwhole : AllDigits whole)
    (hfraction : AllDigits fraction) (hrest : StartsNoDigit rest) :
    readDecimal? (whole ++ '.' :: (fraction ++ rest)) =
      if whole = [] ∧ fraction = [] then none
      else (readExponent? rest).map fun exponent =>
        (digitsValue (whole ++ fraction), exponent - (fraction.length : Int)) := by
  have hparts := span_digits hfraction hrest
  rw [List.span_eq_takeWhile_dropWhile, Prod.mk.injEq] at hparts
  unfold readDecimal?
  rw [span_digits hwhole (startsNoDigit_of_head rfl _)]
  simp only [List.span_eq_takeWhile_dropWhile, hparts.1, hparts.2, Bool.and_eq_true,
    List.isEmpty_iff]

/-- A text is read as a decimal by what stands at its first character that is no digit: a point, or
something else or nothing. -/
theorem readDecimal?_iff {text : List Char} {digits : Nat} {exponent : Int} :
    readDecimal? text = some (digits, exponent) ↔ SpellsDecimal text digits exponent := by
  constructor
  · intro h
    obtain ⟨whole, rest, hwhole, hrest, rfl⟩ := exists_digits text
    by_cases hpoint : rest.head? = some '.'
    · obtain ⟨rest, rfl⟩ := List.head?_eq_some_iff.mp hpoint
      obtain ⟨fraction, rest, hfraction, htail, rfl⟩ := exists_digits rest
      rw [readDecimal?_point hwhole hfraction htail] at h
      split at h
      · cases h
      · next hne =>
        obtain ⟨power, hpower, heq⟩ := Option.map_eq_some_iff.mp h
        obtain ⟨rfl, rfl⟩ := Prod.mk.inj heq
        have hmantissa : SpellsMantissa (whole ++ '.' :: fraction) (digitsValue (whole ++ fraction))
            fraction.length := by
          by_cases hempty : whole = []
          · subst hempty
            exact .fraction (fun hnil => hne ⟨rfl, hnil⟩) hfraction
          · exact .point hempty hwhole hfraction
        have hdecimal := SpellsDecimal.mk hmantissa (readExponent?_iff.mp hpower)
        rwa [List.append_assoc, List.cons_append] at hdecimal
    · rw [readDecimal?_whole hwhole hrest hpoint] at h
      split at h
      · cases h
      · next hne =>
        obtain ⟨power, hpower, heq⟩ := Option.map_eq_some_iff.mp h
        obtain ⟨rfl, rfl⟩ := Prod.mk.inj heq
        have hdecimal := SpellsDecimal.mk (.whole hne hwhole) (readExponent?_iff.mp hpower)
        rwa [Int.ofNat_zero, Int.sub_zero] at hdecimal
  · rintro ⟨hmantissa, hpower⟩
    have hread := readExponent?_iff.mpr hpower
    have hrest := hpower.startsNoDigit
    cases hmantissa with
    | whole hne hds =>
      rw [readDecimal?_whole hds hrest hpower.head?_ne_point, if_neg hne, hread]
      simp
    | point hne hds hfraction =>
      rw [List.append_assoc, List.cons_append, readDecimal?_point hds hfraction hrest,
        if_neg (fun h => hne h.1), hread]
      rfl
    | fraction hne hfraction =>
      have hempty : AllDigits [] := List.forall_mem_nil _
      have hpoint := readDecimal?_point hempty hfraction hrest
      rw [if_neg (fun h => hne h.2), hread] at hpoint
      exact hpoint

/-! ## Numerals -/

theorem SpellsDecimal.exists_head {text : List Char} {digits : Nat} {exponent : Int}
    (h : SpellsDecimal text digits exponent) :
    ∃ c rest, text = c :: rest ∧ (c.isDigit = true ∨ c = '.') := by
  obtain ⟨hmantissa, -⟩ := h
  cases hmantissa with
  | whole hne hds | point hne hds =>
    obtain ⟨d, rest, rfl, hdigit⟩ := hds.exists_head hne
    exact ⟨d, _, rfl, .inl hdigit⟩
  | fraction => exact ⟨'.', _, rfl, .inr rfl⟩

theorem SpellsDecimal.startsNoSign {text : List Char} {digits : Nat} {exponent : Int}
    (h : SpellsDecimal text digits exponent) : StartsNoSign text := by
  obtain ⟨c, rest, rfl, hdigit | rfl⟩ := h.exists_head
  · exact startsNoSign_of_isDigit hdigit rest
  · exact startsNoSign_of_head (by decide) (by decide) rest

/-- The characters that decimals are made of. -/
def IsNumeralChar (c : Char) : Prop := c.isDigit = true ∨ c ∈ ['+', '-', '.', 'e', 'E']

instance (c : Char) : Decidable (IsNumeralChar c) := inferInstanceAs (Decidable (_ ∨ _))

theorem AllDigits.isNumeralChar {ds : List Char} (hds : AllDigits ds) : ∀ c ∈ ds, IsNumeralChar c :=
  fun c hc => .inl (hds c hc)

theorem SpellsSign.isNumeralChar {sign : List Char} {negative : Bool} (h : SpellsSign sign negative) :
    ∀ c ∈ sign, IsNumeralChar c := by
  cases h with
  | absent => exact List.forall_mem_nil _
  | plus | minus => exact List.forall_mem_singleton.mpr (by decide)

theorem SpellsExponent.isNumeralChar {text : List Char} {exponent : Int}
    (h : SpellsExponent text exponent) : ∀ c ∈ text, IsNumeralChar c := by
  cases h with
  | absent => exact List.forall_mem_nil _
  | present hletter hsign hne hds =>
    refine List.forall_mem_cons.mpr ⟨?_, List.forall_mem_append.mpr
      ⟨hsign.isNumeralChar, hds.isNumeralChar⟩⟩
    rcases hletter with rfl | rfl <;> decide

theorem SpellsDecimal.isNumeralChar {text : List Char} {digits : Nat} {exponent : Int}
    (h : SpellsDecimal text digits exponent) : ∀ c ∈ text, IsNumeralChar c := by
  have hpoint : IsNumeralChar '.' := by decide
  obtain ⟨hmantissa, hpower⟩ := h
  refine List.forall_mem_append.mpr ⟨?_, hpower.isNumeralChar⟩
  cases hmantissa with
  | whole hne hds => exact hds.isNumeralChar
  | point hne hds hfraction =>
    exact List.forall_mem_append.mpr ⟨hds.isNumeralChar,
      List.forall_mem_cons.mpr ⟨hpoint, hfraction.isNumeralChar⟩⟩
  | fraction hne hfraction => exact List.forall_mem_cons.mpr ⟨hpoint, hfraction.isNumeralChar⟩

theorem isAlpha_of_toLower {c : Char} (h : c.toLower.isAlpha = true) : c.isAlpha = true := by
  unfold Char.toLower at h
  split at h
  · next hupper =>
    have hcase : c.isUpper = true := decide_eq_true hupper
    exact Bool.or_eq_true_iff.mpr (.inl hcase)
  · exact h

/-- A text that is a word of letters but for its case starts with a letter. -/
theorem exists_head_of_lowerBasic {text : List Char} {letter : Char} {word : List Char}
    (h : lowerBasic text = letter :: word) (hletter : letter.isAlpha = true) :
    ∃ c rest, text = c :: rest ∧ c.isAlpha = true := by
  cases text with
  | nil => cases h
  | cons c rest =>
    refine ⟨c, rest, rfl, isAlpha_of_toLower ?_⟩
    rw [(List.cons.inj h).1]
    exact hletter

/-- Whether a text is one of the words for a number without digits, in any letter case. -/
def IsWord (text : List Char) : Prop :=
  IsInfinity text ∨ lowerBasic text = "nan".toList

theorem IsWord.exists_head {text : List Char} (h : IsWord text) :
    ∃ c rest, text = c :: rest ∧ c.isAlpha = true := by
  rcases h with (h | h) | h
  · exact exists_head_of_lowerBasic h rfl
  · exact exists_head_of_lowerBasic h rfl
  · exact exists_head_of_lowerBasic h rfl

theorem IsWord.startsNoSign {text : List Char} (h : IsWord text) : StartsNoSign text := by
  obtain ⟨c, rest, rfl, halpha⟩ := h.exists_head
  refine startsNoSign_of_head ?_ ?_ rest
  · rintro rfl
    cases halpha
  · rintro rfl
    cases halpha

/-- A decimal is none of the words: they start with a letter. -/
theorem SpellsDecimal.not_isWord {text : List Char} {digits : Nat} {exponent : Int}
    (h : SpellsDecimal text digits exponent) : ¬IsWord text := by
  intro hword
  obtain ⟨c, rest, rfl, halpha⟩ := hword.exists_head
  obtain ⟨d, rest', heq, hd⟩ := h.exists_head
  obtain ⟨rfl, -⟩ := List.cons.inj heq
  rcases hd with hdigit | rfl
  · rw [not_isDigit_of_isAlpha halpha] at hdigit
    cases hdigit
  · cases halpha

/-- What is read after the sign. -/
theorem read?_append {sign body : List Char} {negative : Bool} (hsign : SpellsSign sign negative)
    (hbody : StartsNoSign body) : read? (sign ++ body) =
      if IsInfinity body then some (.infinite negative)
      else if lowerBasic body = "nan".toList then some .nan
      else (readDecimal? body).map fun (digits, exponent) => .finite negative digits exponent := by
  unfold read?
  rw [readSign_append hsign hbody]
  simp only [String.ofList_eq]
  rfl

/-- The numerals that are read are those of the grammar. -/
theorem read?_eq_some_iff {text : List Char} {x : Numeral} :
    read? text = some x ↔ Spells text x := by
  constructor
  · intro h
    obtain ⟨sign, negative, body, hsign, rfl, hread⟩ := exists_sign text
    unfold read? at h
    rw [hread] at h
    simp only [String.ofList_eq] at h
    split at h
    · next hword =>
      obtain rfl := Option.some.inj h
      exact .infinite hsign hword
    · split at h
      · next hword =>
        obtain rfl := Option.some.inj h
        exact .nan hsign hword
      · obtain ⟨⟨digits, exponent⟩, hdecimal, rfl⟩ := Option.map_eq_some_iff.mp h
        exact .finite hsign (readDecimal?_iff.mp hdecimal)
  · intro h
    cases h with
    | infinite hsign hword =>
      rw [read?_append hsign (IsWord.startsNoSign (.inl hword)), if_pos hword]
    | nan hsign hword =>
      have hnot : ¬IsInfinity _ := fun hinf => by
        unfold IsInfinity at hinf
        rw [hword] at hinf
        exact absurd hinf (by decide)
      rw [read?_append hsign (IsWord.startsNoSign (.inr hword)), if_neg hnot, if_pos hword]
    | finite hsign hbody =>
      have hword := not_or.mp hbody.not_isWord
      rw [read?_append hsign hbody.startsNoSign, if_neg hword.1, if_neg hword.2,
        readDecimal?_iff.mpr hbody]
      rfl

end MapStyle.Numeral
