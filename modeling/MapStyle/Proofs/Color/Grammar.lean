import MapStyle.Color.Css
import MapStyle.Proofs.Binary64.Decimal
import MapStyle.Proofs.Decimal.Grammar
import MapStyle.Proofs.Lists

/-!
# The grammar of colors in CSS notation

`Color.IsColor` says which texts are colors, trimmed and in lower case as they are: `transparent`, the
names, digits behind `#`, and calls of `rgb`, `rgba`, `hsl` and `hsla` with their arguments. The numbers of
arguments are those of `Color.IsNumber`: decimals below the least one that is rounded to an infinity.

`Color.ofCss?` reads a color from exactly these texts (`ofCss?_isSome_iff`).
-/

namespace MapStyle.Color

open Text Numeral

/-! ## The grammar -/

/-- A decimal whose nearest double is finite. -/
inductive IsNumber : List Char → Prop
  | mk {sign body : List Char} {negative : Bool} {digits : Nat} {exponent : Int}
    (hsign : SpellsSign sign negative) (hbody : SpellsDecimal body digits exponent)
    (hfinite : (digits * 10 ^ exponent : ℚ) < Binary64.overflow) : IsNumber (sign ++ body)

/-- A number before a percent sign. -/
inductive IsPercentage : List Char → Prop
  | mk {number : List Char} (hnumber : IsNumber number) : IsPercentage (number ++ ['%'])

/-- A channel of red, green or blue, or an alpha. -/
def IsChannel (text : List Char) : Prop := IsNumber text ∨ IsPercentage text

/-- A function of colors and the arguments that it takes. -/
inductive Takes : List Char → List (List Char) → Prop
  | rgb {r g b : List Char} (hr : IsChannel r) (hg : IsChannel g) (hb : IsChannel b) :
    Takes "rgb".toList [r, g, b]
  | rgba {r g b a : List Char} (hr : IsChannel r) (hg : IsChannel g) (hb : IsChannel b)
    (ha : IsChannel a) : Takes "rgba".toList [r, g, b, a]
  | hsl {h s l : List Char} (hh : IsNumber h) (hs : IsPercentage s) (hl : IsPercentage l) :
    Takes "hsl".toList [h, s, l]
  | hsla {h s l a : List Char} (hh : IsNumber h) (hs : IsPercentage s) (hl : IsPercentage l)
    (ha : IsChannel a) : Takes "hsla".toList [h, s, l, a]

/-- A hexadecimal digit, in either letter case. -/
def IsHexDigit (c : Char) : Prop :=
  '0' ≤ c ∧ c ≤ '9' ∨ 'a' ≤ c ∧ c ≤ 'f' ∨ 'A' ≤ c ∧ c ≤ 'F'

/-- A color, without blanks around it. -/
inductive IsColor : List Char → Prop
  | transparent : IsColor "transparent".toList
  | named {entry : String × Nat × Nat × Nat} (hentry : entry ∈ names) : IsColor entry.1.toList
  | hex {digits : List Char} (hdigits : ∀ c ∈ digits, IsHexDigit c)
    (hlength : digits.length ∈ [3, 4, 6, 8]) : IsColor ('#' :: digits)
  | call {name : List Char} {args : List (List Char)} (htakes : Takes (trim name) (args.map trim)) :
    IsColor (name ++ '(' :: ([','].intercalate args ++ [')']))

/-! ## Hexadecimal notation -/

section

variable {N : Type} [Scalar N]

theorem hexDigit?_isSome_iff {c : Char} : (hexDigit? c).isSome = true ↔ IsHexDigit c := by
  unfold hexDigit? IsHexDigit
  split
  · simp [*]
  · split
    · simp [*]
    · split <;> simp [*]

theorem ofHexDigits?_isSome_iff {digits : List Nat} :
    (ofHexDigits? digits : Option (Color N)).isSome = true ↔ digits.length ∈ [3, 4, 6, 8] := by
  rcases digits with
    _ | ⟨a, _ | ⟨b, _ | ⟨c, _ | ⟨d, _ | ⟨e, _ | ⟨f, _ | ⟨g, _ | ⟨h, _ | ⟨i, rest⟩⟩⟩⟩⟩⟩⟩⟩⟩
  all_goals simp [ofHexDigits?]

theorem ofHex?_isSome_iff {text : List Char} : (ofHex? text : Option (Color N)).isSome = true ↔
    (∀ c ∈ text, IsHexDigit c) ∧ text.length ∈ [3, 4, 6, 8] := by
  have hdigits : (text.mapM hexDigit?).isSome = true ↔ ∀ c ∈ text, IsHexDigit c :=
    mapM_isSome_iff.trans (forall₂_congr fun _ _ => hexDigit?_isSome_iff)
  rw [← hdigits]
  unfold ofHex?
  cases h : text.mapM hexDigit? with
  | none => simp
  | some digits =>
    rw [(mapM_eq_some_iff.mp h).length_eq]
    simpa using ofHexDigits?_isSome_iff

end

/-! ## Arguments -/

theorem isFinite_signed (negative : Bool) (x : Float) :
    (if negative then -x else x).isFinite = x.isFinite := by
  cases negative with
  | false => rfl
  | true => exact Binary64.isFinite_neg x

theorem number?_isSome_iff {text : List Char} :
    (number? text : Option Float).isSome = true ↔ IsNumber text := by
  constructor
  · intro h
    obtain ⟨x, hx⟩ := Option.isSome_iff_exists.mp h
    obtain ⟨hvalue, hfinite⟩ := Option.filter_eq_some_iff.mp hx
    obtain ⟨numeral, hread, hvalue⟩ := Option.bind_eq_some_iff.mp hvalue
    cases read?_eq_some_iff.mp hread with
    | nan => cases hvalue
    | @infinite sign word negative =>
      obtain rfl := Option.some.inj hvalue
      have hinfinite : (1 / 0 : Float).isFinite = false := by decide +kernel
      exact absurd ((isFinite_signed negative _).symm.trans hfinite) (hinfinite ▸ nofun)
    | @finite sign body negative digits exponent hsign hbody =>
      obtain rfl := Option.some.inj hvalue
      exact .mk hsign hbody ((Binary64.isFinite_ofDecimal_iff digits exponent).mp
        ((isFinite_signed negative _).symm.trans hfinite))
  · rintro ⟨hsign, hbody, hfinite⟩
    refine Option.isSome_iff_exists.mpr ⟨_, Option.filter_eq_some_iff.mpr
      ⟨Option.bind_eq_some_iff.mpr ⟨_, read?_eq_some_iff.mpr (.finite hsign hbody), rfl⟩, ?_⟩⟩
    exact (isFinite_signed _ _).trans ((Binary64.isFinite_ofDecimal_iff _ _).mpr hfinite)

theorem percent?_eq_some_iff {text number : List Char} :
    percent? text = some number ↔ text = number ++ ['%'] := by
  unfold percent?
  constructor
  · intro h
    split at h
    · next hlast =>
      cases h
      exact (List.dropLast_append_getLast? '%' hlast).symm
    · cases h
  · rintro rfl
    simp

theorem IsNumber.isNumeralChar {text : List Char} (h : IsNumber text) : ∀ c ∈ text, IsNumeralChar c := by
  obtain ⟨hsign, hbody, -⟩ := h
  exact List.forall_mem_append.mpr ⟨hsign.isNumeralChar, hbody.isNumeralChar⟩

theorem isPercentage_iff {text : List Char} :
    IsPercentage text ↔ ∃ number, percent? text = some number ∧ IsNumber number := by
  constructor
  · rintro ⟨hnumber⟩
    exact ⟨_, percent?_eq_some_iff.mpr rfl, hnumber⟩
  · rintro ⟨number, hpercent, hnumber⟩
    rw [percent?_eq_some_iff.mp hpercent]
    exact .mk hnumber

/-- A number or a percentage is read by whether a percent sign stands at the end: no number has one. -/
theorem isChannel_iff {text : List Char} : IsChannel text ↔
    match percent? text with
    | some number => IsNumber number
    | none => IsNumber text := by
  unfold IsChannel
  rw [isPercentage_iff]
  cases h : percent? text with
  | none => simp
  | some number =>
    have hnot : ¬IsNumber text := fun hnumber => by
      rw [percent?_eq_some_iff.mp h] at hnumber
      exact absurd (hnumber.isNumeralChar '%' (by simp)) (by decide)
    simp [hnot]

/-- A number and what is made of one before a percent sign are read from the same texts, whatever that
is. -/
theorem level?_isSome_iff {text : List Char} (share limit : Float → Float) :
    (match percent? text with
      | some number => (number? number).map share >>= fun level => some (limit level)
      | none => number? text >>= fun level => some (limit level)).isSome = true ↔
      IsChannel text := by
  rw [isChannel_iff]
  cases percent? text with
  | none => simp [← number?_isSome_iff, Option.isSome_bind]
  | some number => simp [← number?_isSome_iff, Option.isSome_bind]

theorem channel?_isSome_iff {text : List Char} :
    (channel? text : Option Float).isSome = true ↔ IsChannel text := level?_isSome_iff _ _

theorem alpha?_isSome_iff {text : List Char} :
    (alpha? text : Option Float).isSome = true ↔ IsChannel text := level?_isSome_iff _ _

theorem share?_isSome_iff {text : List Char} :
    (share? text : Option Float).isSome = true ↔ IsPercentage text := by
  rw [isPercentage_iff]
  unfold share?
  cases percent? text with
  | none => simp
  | some number => simp [← number?_isSome_iff, Option.isSome_bind]

/-! ## Functions -/

theorem rgb?_isSome_iff {r g b : List Char} {alpha : Float} :
    (rgb? r g b alpha).isSome = true ↔ IsChannel r ∧ IsChannel g ∧ IsChannel b := by
  simp only [← channel?_isSome_iff]
  unfold rgb?
  cases (channel? r : Option Float) with
  | none => simp
  | some red =>
    cases (channel? g : Option Float) with
    | none => simp
    | some green => cases (channel? b : Option Float) <;> simp

theorem hsl?_isSome_iff {h s l : List Char} {alpha : Float} :
    (hsl? h s l alpha).isSome = true ↔ IsNumber h ∧ IsPercentage s ∧ IsPercentage l := by
  simp only [← number?_isSome_iff, ← share?_isSome_iff]
  unfold hsl?
  cases (number? h : Option Float) with
  | none => simp
  | some hue =>
    cases (share? s : Option Float) with
    | none => simp
    | some saturation => cases (share? l : Option Float) <;> simp

theorem bind_alpha?_isSome_iff {a : List Char} {f : Float → Option (Color Float)} {p : Prop}
    (hf : ∀ alpha, (f alpha).isSome = true ↔ p) :
    ((alpha? a).bind f).isSome = true ↔ p ∧ IsChannel a := by
  rw [← alpha?_isSome_iff]
  cases (alpha? a : Option Float) with
  | none => simp
  | some alpha => simpa using hf alpha

theorem call?_isSome_iff {name : List Char} {args : List (List Char)} :
    (call? (String.ofList name) args : Option (Color Float)).isSome = true ↔ Takes name args := by
  constructor
  · intro h
    generalize hname : String.ofList name = word at h
    obtain rfl : name = word.toList := by rw [← hname, String.toList_ofList]
    unfold call? at h
    split at h
    · obtain ⟨hr, hg, hb⟩ := rgb?_isSome_iff.mp h
      exact .rgb hr hg hb
    · obtain ⟨⟨hr, hg, hb⟩, ha⟩ := (bind_alpha?_isSome_iff fun _ => rgb?_isSome_iff).mp h
      exact .rgba hr hg hb ha
    · obtain ⟨hh, hs, hl⟩ := hsl?_isSome_iff.mp h
      exact .hsl hh hs hl
    · obtain ⟨⟨hh, hs, hl⟩, ha⟩ := (bind_alpha?_isSome_iff fun _ => hsl?_isSome_iff).mp h
      exact .hsla hh hs hl ha
    · cases h
  · intro h
    cases h with
    | rgb hr hg hb => exact rgb?_isSome_iff.mpr ⟨hr, hg, hb⟩
    | rgba hr hg hb ha =>
      exact (bind_alpha?_isSome_iff fun _ => rgb?_isSome_iff).mpr ⟨⟨hr, hg, hb⟩, ha⟩
    | hsl hh hs hl => exact hsl?_isSome_iff.mpr ⟨hh, hs, hl⟩
    | hsla hh hs hl ha =>
      exact (bind_alpha?_isSome_iff fun _ => hsl?_isSome_iff).mpr ⟨⟨hh, hs, hl⟩, ha⟩

theorem Takes.not_mem_name {name : List Char} {args : List (List Char)} (h : Takes name args) :
    '(' ∉ name ∧ '#' ∉ name := by
  cases h <;> decide

theorem Takes.args_ne_nil {name : List Char} {args : List (List Char)} (h : Takes name args) :
    args ≠ [] := by
  cases h <;> nofun

theorem IsChannel.not_mem {text : List Char} (h : IsChannel text) : ',' ∉ text := by
  have hnumber {number : List Char} (h : IsNumber number) : ',' ∉ number := fun hmem =>
    absurd (h.isNumeralChar ',' hmem) (by decide)
  rcases h with h | h
  · exact hnumber h
  · obtain ⟨h⟩ := h
    simpa using hnumber h

theorem Takes.not_mem_args {name : List Char} {args : List (List Char)} (h : Takes name args) :
    ∀ arg ∈ args, ',' ∉ arg := by
  cases h with
  | rgb hr hg hb => simp [hr.not_mem, hg.not_mem, hb.not_mem]
  | rgba hr hg hb ha => simp [hr.not_mem, hg.not_mem, hb.not_mem, ha.not_mem]
  | hsl hh hs hl =>
    have hhue : IsChannel _ := .inl hh
    have hsaturation : IsChannel _ := .inr hs
    have hlightness : IsChannel _ := .inr hl
    simp [hhue.not_mem, hsaturation.not_mem, hlightness.not_mem]
  | hsla hh hs hl ha =>
    have hhue : IsChannel _ := .inl hh
    have hsaturation : IsChannel _ := .inr hs
    have hlightness : IsChannel _ := .inr hl
    simp [hhue.not_mem, hsaturation.not_mem, hlightness.not_mem, ha.not_mem]

/-! ## Calls -/

theorem splitAt_eq_splitOn (separator : Char) (text : List Char) :
    splitAt separator text = text.splitOn separator := by
  induction text with
  | nil => rfl
  | cons c rest ih =>
    rw [splitAt, List.splitOn_cons_eq_if_modifyHead, ih]
    by_cases hc : c = separator
    · simp [hc]
    · rw [if_neg hc, if_neg (by simpa using hc)]
      cases h : rest.splitOn separator with
      | nil => exact absurd h (List.splitOn_ne_nil separator rest)
      | cons part parts => rfl

theorem mem_trimLeft {text : List Char} {c : Char} (hc : c ∈ text) (hblank : isBlank c = false) :
    c ∈ trimLeft text := by
  rw [← List.takeWhile_append_dropWhile (p := isBlank) (l := text)] at hc
  refine (List.mem_append.mp hc).resolve_left fun h => ?_
  rw [List.mem_takeWhile_imp h] at hblank
  cases hblank

/-- Trimming takes no character that is not blank. -/
theorem mem_trim {text : List Char} {c : Char} (hc : c ∈ text) (hblank : isBlank c = false) :
    c ∈ trim text :=
  List.mem_reverse.mpr (mem_trimLeft (List.mem_reverse.mpr (mem_trimLeft hc hblank)) hblank)

section

variable {N : Type} [Scalar N]

theorem ne_of_not_mem {c : Char} {text : List Char} (h : c ∉ text) : ∀ d ∈ text, (d != c) = true := by
  intro d hd
  rw [bne_iff_ne]
  rintro rfl
  exact h hd

/-- Before the first occurrence of a character. -/
theorem span_of_not_mem {c : Char} {text : List Char} (h : c ∉ text) (rest : List Char) :
    (text ++ c :: rest).span (· != c) = (text, c :: rest) :=
  span_append (ne_of_not_mem h) (by simp)

theorem ofCall?_of_not_mem {text : List Char} (h : '(' ∉ text) :
    (ofCall? text : Option (Color N)) = none := by
  unfold ofCall?
  rw [List.span_eq_takeWhile_dropWhile, List.dropWhile_eq_nil_iff.mpr (ne_of_not_mem h)]

theorem ofCall?_append {name : List Char} (hname : '(' ∉ name) (inside : List Char) :
    (ofCall? (name ++ '(' :: inside) : Option (Color N)) =
      if inside.getLast? = some ')' then
        call? (String.ofList (trim name)) ((inside.dropLast.splitOn ',').map trim)
      else none := by
  unfold ofCall?
  rw [span_of_not_mem hname, ← splitAt_eq_splitOn]

end

theorem ofCall?_isSome_iff {text : List Char} : (ofCall? text : Option (Color Float)).isSome = true ↔
    ∃ name args, text = name ++ '(' :: ([','].intercalate args ++ [')']) ∧
      Takes (trim name) (args.map trim) := by
  constructor
  · intro h
    by_cases hopen : '(' ∈ text
    · obtain ⟨name, inside, rfl, hname⟩ := List.eq_append_cons_of_mem hopen
      rw [ofCall?_append hname] at h
      split at h
      · next hclose =>
        refine ⟨name, inside.dropLast.splitOn ',', ?_, call?_isSome_iff.mp h⟩
        rw [List.intercalate_splitOn, List.dropLast_append_getLast? ')' hclose]
      · cases h
    · rw [ofCall?_of_not_mem hopen] at h
      cases h
  · rintro ⟨name, args, rfl, htakes⟩
    have hname : '(' ∉ name := fun hmem => htakes.not_mem_name.1 (mem_trim hmem (by decide))
    have hargs : ∀ arg ∈ args, ',' ∉ arg := fun arg harg hmem =>
      htakes.not_mem_args _ (List.mem_map_of_mem harg) (mem_trim hmem (by decide))
    have hne : args ≠ [] := fun hnil => htakes.args_ne_nil (by rw [hnil, List.map_nil])
    rw [ofCall?_append hname, if_pos (by simp), List.dropLast_concat,
      List.splitOn_intercalate ',' hargs hne]
    exact call?_isSome_iff.mpr htakes

theorem isColor_of_named? {text : List Char} {r g b : Nat}
    (h : named? (String.ofList text) = some (r, g, b)) : IsColor text := by
  have hnamed := IsColor.named (mem_of_lookup_eq_some h)
  rwa [String.toList_ofList] at hnamed

theorem named?_isSome_of_mem {entry : String × Nat × Nat × Nat} (h : entry ∈ names) :
    (named? entry.1).isSome = true := by
  cases hlookup : named? entry.1 with
  | some _ => rfl
  | none => exact absurd (List.lookup_eq_none_iff.mp hlookup entry h) (by simp)

/-- The texts that are read as colors are those of the grammar. -/
theorem ofCss?_isSome_iff {text : String} : (ofCss? text : Option (Color Float)).isSome = true ↔
    IsColor (lowerBasic (trim text.toList)) := by
  unfold ofCss?
  dsimp only
  generalize lowerBasic (trim text.toList) = text
  constructor
  · intro h
    split at h
    · next hword =>
      rw [String.ofList_eq.mp hword]
      exact .transparent
    · split at h
      · next hname => exact isColor_of_named? hname
      · split at h
        · obtain ⟨hdigits, hlength⟩ := ofHex?_isSome_iff.mp h
          exact .hex hdigits hlength
        · obtain ⟨name, args, rfl, htakes⟩ := ofCall?_isSome_iff.mp h
          exact .call htakes
  · intro h
    split
    · rfl
    · next hword =>
      split
      · rfl
      · next hname =>
        cases h with
        | transparent => exact absurd rfl hword
        | @named entry hentry =>
          have hsome := named?_isSome_of_mem hentry
          rw [String.ofList_toList] at hname
          rw [hname] at hsome
          cases hsome
        | hex hdigits hlength => exact ofHex?_isSome_iff.mpr ⟨hdigits, hlength⟩
        | @call name args htakes =>
          split
          · next digits heq =>
            cases name with
            | nil => exact absurd (List.cons.inj heq).1 (by decide)
            | cons c rest =>
              obtain ⟨rfl, -⟩ := List.cons.inj heq
              exact absurd (mem_trim List.mem_cons_self (by decide)) htakes.not_mem_name.2
          · exact ofCall?_isSome_iff.mpr ⟨_, _, rfl, htakes⟩

end MapStyle.Color
