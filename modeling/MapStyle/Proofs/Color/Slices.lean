import Mathlib.Data.Nat.PSub
import MapStyle.Proofs.Color.Grammar

/-!
# Colors are read from slices that exist

Texts are sliced by byte offsets, and a slice exists only between two boundaries of characters in order
(`Text.slice?`). `Color.cssSliced` reads colors with slices and arguments that have to exist, and leaves
without an answer where one does not. It always has the answer of `Color.ofCss?` (`cssSliced_eq`).
`ofCss?_exact` adds which answers are colors.
-/

namespace MapStyle.Text

/-! ## Slices by byte offsets -/

/-- The length of a text in bytes. -/
def byteLength (text : List Char) : Nat := (text.map Char.utf8Size).sum

/-- The text before and after a byte offset, where that is a boundary of characters. -/
def splitBytes? : List Char → Nat → Option (List Char × List Char)
  | text, 0 => some ([], text)
  | [], _ + 1 => none
  | c :: rest, offset + 1 =>
    if c.utf8Size ≤ offset + 1 then
      (splitBytes? rest (offset + 1 - c.utf8Size)).map fun (before, after) => (c :: before, after)
    else none

/-- The text between two byte offsets, where these are boundaries of characters in order. -/
def slice? (text : List Char) (first last : Nat) : Option (List Char) := do
  let (_, after) ← splitBytes? text first
  if first ≤ last then
    let (middle, _) ← splitBytes? after (last - first)
    return middle
  else none

/-- The byte offset at which a character first occurs. -/
def find? (c : Char) (text : List Char) : Option Nat :=
  if c ∈ text then some (byteLength (text.takeWhile (· != c))) else none

theorem byteLength_nil : byteLength [] = 0 := rfl

theorem byteLength_cons (c : Char) (text : List Char) :
    byteLength (c :: text) = c.utf8Size + byteLength text :=
  List.sum_cons

theorem byteLength_append (before after : List Char) :
    byteLength (before ++ after) = byteLength before + byteLength after := by
  rw [byteLength, List.map_append, List.sum_append]
  rfl

theorem splitBytes?_append (before after : List Char) :
    splitBytes? (before ++ after) (byteLength before) = some (before, after) := by
  induction before with
  | nil => cases after <;> rfl
  | cons c before ih =>
    have hpos := c.utf8Size_pos
    obtain ⟨n, hn⟩ := Nat.exists_eq_add_one.mpr hpos
    rw [List.cons_append, byteLength_cons, hn, Nat.add_right_comm, splitBytes?,
      if_pos (by omega), show n + byteLength before + 1 - c.utf8Size = byteLength before by omega, ih]
    rfl

theorem slice?_append (before middle after : List Char) :
    slice? (before ++ (middle ++ after)) (byteLength before) (byteLength before + byteLength middle) =
      some middle := by
  unfold slice?
  rw [splitBytes?_append]
  simp [splitBytes?_append]

theorem byteLength_eq_length {text : List Char} (h : ∀ c ∈ text, c.utf8Size = 1) :
    byteLength text = text.length := by
  induction text with
  | nil => rfl
  | cons c rest ih =>
    rw [List.forall_mem_cons] at h
    rw [byteLength_cons, h.1, ih h.2, List.length_cons, Nat.add_comm]

/-- In a text of characters of one byte, offsets are indices. -/
theorem slice?_of_oneByte {text : List Char} (h : ∀ c ∈ text, c.utf8Size = 1) {first count : Nat}
    (hlen : first + count ≤ text.length) :
    slice? text first (first + count) = some ((text.drop first).take count) := by
  have htext : text.take first ++
      ((text.drop first).take count ++ (text.drop first).drop count) = text := by
    rw [List.take_append_drop, List.take_append_drop]
  have hfirst : byteLength (text.take first) = first := by
    rw [byteLength_eq_length fun c hc => h c (List.mem_of_mem_take hc), List.length_take]
    omega
  have hcount : byteLength ((text.drop first).take count) = count := by
    rw [byteLength_eq_length fun c hc => h c (List.mem_of_mem_drop (List.mem_of_mem_take hc)),
      List.length_take, List.length_drop]
    omega
  have hslice := slice?_append (text.take first) ((text.drop first).take count)
    ((text.drop first).drop count)
  rwa [htext, hfirst, hcount] at hslice

theorem find?_append {c : Char} {before : List Char} (h : c ∉ before) (after : List Char) :
    find? c (before ++ c :: after) = some (byteLength before) := by
  have hspan := Color.span_of_not_mem h after
  rw [List.span_eq_takeWhile_dropWhile, Prod.mk.injEq] at hspan
  unfold find?
  rw [if_pos (by simp), hspan.1]

end MapStyle.Text

namespace MapStyle.Color

open Text

variable {N : Type} [Scalar N]

/-! ## Reading with slices -/

/-- A reading that may leave without an answer. The answer is a result or none. -/
abbrev Sliced := OptionT Option

/-- What has to exist. -/
def look {α : Type} (x : Option α) : Sliced α := OptionT.lift x

/-- An answer: a result or none. -/
def answer {α : Type} (x : Option α) : Sliced α := OptionT.mk (some x)

/-- The number that hexadecimal digits spell. -/
def hexValue? (digits : List Char) : Option Nat :=
  (digits.mapM hexDigit?).map (·.foldl (16 * · + ·) 0)

/-- The byte of one digit, doubled. -/
def shortByte (text : List Char) (offset : Nat) : Sliced Nat := do
  let digit ← look (slice? text offset (offset + 1))
  answer (hexValue? (digit ++ digit))

/-- The byte of two digits. -/
def longByte (text : List Char) (offset : Nat) : Sliced Nat := do
  answer (hexValue? (← look (slice? text offset (offset + 2))))

def hexSliced (text : List Char) : Sliced (Color N) :=
  if text.all fun c => (hexDigit? c).isSome then
    match byteLength text with
    | 3 => return ofBytes (← shortByte text 0) (← shortByte text 1) (← shortByte text 2) 255
    | 4 =>
      return ofBytes (← shortByte text 0) (← shortByte text 1) (← shortByte text 2)
        (← shortByte text 3)
    | 6 => return ofBytes (← longByte text 0) (← longByte text 2) (← longByte text 4) 255
    | 8 =>
      return ofBytes (← longByte text 0) (← longByte text 2) (← longByte text 4)
        (← longByte text 6)
    | _ => answer none
  else answer none

/-- The fourth argument as an alpha, one where there is none. -/
def alphaSliced (args : List (List Char)) : Sliced N :=
  match args[3]? with
  | some text => answer (alpha? text)
  | none => return Scalar.ofInt 1

def rgbSliced (args : List (List Char)) : Sliced (Color N) := do
  let alpha ← alphaSliced args
  let red ← answer (channel? (← look args[0]?))
  let green ← answer (channel? (← look args[1]?))
  let blue ← answer (channel? (← look args[2]?))
  return ⟨red, green, blue, alpha⟩

def hslSliced (args : List (List Char)) : Sliced (Color N) := do
  let hue ← answer (number? (← look args[0]?))
  let saturation ← answer (share? (← look args[1]?))
  let lightness ← answer (share? (← look args[2]?))
  let alpha ← alphaSliced args
  return ofHsl (turn hue) saturation lightness alpha

/-- The color of a function, told by the number of its arguments. -/
def argsSliced (name : String) (args : List (List Char)) : Sliced (Color N) :=
  match name, args.length with
  | "rgb", 3 => rgbSliced args
  | "rgba", 4 => rgbSliced args
  | "hsl", 3 => hslSliced args
  | "hsla", 4 => hslSliced args
  | _, _ => answer none

def callSliced (text : List Char) : Sliced (Color N) := do
  let first ← answer (find? '(' text)
  if text.getLast? = some ')' then
    let name ← look (slice? text 0 first)
    let last ← look (byteLength text).ppred
    let inside ← look (slice? text (first + 1) last)
    argsSliced (String.ofList (trim name)) ((splitAt ',' inside).map trim)
  else answer none

/-- The color that a text spells in CSS notation. -/
def cssSliced (text : String) : Sliced (Color N) :=
  let text := lowerBasic (trim text.toList)
  let word := String.ofList text
  if word = "transparent" then return transparent
  else match named? word with
    | some (r, g, b) => return ofBytes r g b 255
    | none =>
      if text.head? = some '#' then do
        hexSliced (← look (slice? text 1 (byteLength text)))
      else callSliced text

/-! ## Nothing is looked for in vain -/

section

variable {α β : Type}

theorem look_bind (x : α) (f : α → Sliced β) : (look (some x) >>= f) = f x := rfl

theorem answer_some_bind (x : α) (f : α → Sliced β) : (answer (some x) >>= f) = f x := rfl

theorem answer_bind (x : Option α) (f : α → Option β) :
    (answer x >>= fun a => answer (f a)) = answer (x.bind f) := by
  cases x <;> rfl

theorem pure_eq_answer (x : α) : (pure x : Sliced α) = answer (some x) := rfl

end

/-- The order in which hue and alpha are read does not tell. -/
theorem bind_alpha?_hsl? (h s l a : List Char) :
    ((number? h).bind fun hue => (share? s).bind fun saturation => (share? l).bind fun lightness =>
      (alpha? a).bind fun alpha => some (ofHsl (turn hue) saturation lightness alpha)) =
    ((alpha? a).bind (hsl? h s l) : Option (Color N)) := by
  unfold hsl?
  cases (alpha? a : Option N) with
  | some alpha => rfl
  | none =>
    cases (number? h : Option N) with
    | none => rfl
    | some hue =>
      cases (share? s : Option N) with
      | none => rfl
      | some saturation => cases (share? l : Option N) <;> rfl

theorem argsSliced_eq (name : String) (args : List (List Char)) :
    (argsSliced name args : Sliced (Color N)) = answer (call? name args) := by
  unfold argsSliced
  split
  · next hlen =>
    obtain ⟨r, g, b, rfl⟩ := List.length_eq_three.mp hlen
    simp only [rgbSliced, alphaSliced, List.getElem?_cons_zero, List.getElem?_cons_succ,
      List.getElem?_nil, pure_eq_answer, look_bind, answer_bind]
    rfl
  · next hlen =>
    obtain ⟨r, g, b, a, rfl⟩ := List.length_eq_four.mp hlen
    simp only [rgbSliced, alphaSliced, List.getElem?_cons_zero, List.getElem?_cons_succ,
      pure_eq_answer, look_bind, answer_bind]
    rfl
  · next hlen =>
    obtain ⟨h, s, l, rfl⟩ := List.length_eq_three.mp hlen
    simp only [hslSliced, alphaSliced, List.getElem?_cons_zero, List.getElem?_cons_succ,
      List.getElem?_nil, pure_eq_answer, look_bind, answer_bind]
    rfl
  · next hlen =>
    obtain ⟨h, s, l, a, rfl⟩ := List.length_eq_four.mp hlen
    simp only [hslSliced, alphaSliced, List.getElem?_cons_zero, List.getElem?_cons_succ,
      pure_eq_answer, look_bind, answer_bind]
    exact congrArg answer (bind_alpha?_hsl? h s l a)
  · next hrgb hrgba hhsl hhsla =>
    unfold call?
    split
    · exact absurd rfl fun hlen => hrgb rfl hlen
    · exact absurd rfl fun hlen => hrgba rfl hlen
    · exact absurd rfl fun hlen => hhsl rfl hlen
    · exact absurd rfl fun hlen => hhsla rfl hlen
    · rfl

/-- The parenthesis stands before the last character, which is another one, so that what is between them
is a slice. -/
theorem callSliced_eq (text : List Char) :
    (callSliced text : Sliced (Color N)) = answer (ofCall? text) := by
  by_cases hopen : '(' ∈ text
  · obtain ⟨name, inside, rfl, hname⟩ := List.eq_append_cons_of_mem hopen
    rw [ofCall?_append hname]
    unfold callSliced
    rw [find?_append hname, answer_some_bind]
    rcases List.eq_nil_or_concat' inside with rfl | ⟨body, c, rfl⟩
    · rw [List.getLast?_concat, if_neg (by decide)]
      rfl
    · have hlast : (name ++ '(' :: (body ++ [c])).getLast? = some c := by
        rw [← List.cons_append, ← List.append_assoc, List.getLast?_concat]
      rw [hlast, List.getLast?_concat, List.dropLast_concat, ← splitAt_eq_splitOn]
      by_cases hclose : c = ')'
      · subst hclose
        have hopenSize : '('.utf8Size = 1 := by decide
        have hcloseSize : ')'.utf8Size = 1 := by decide
        have hfirst : byteLength (name ++ ['(']) = byteLength name + 1 := by
          rw [byteLength_append, byteLength_cons, hopenSize]
          rfl
        have hlength : (byteLength (name ++ '(' :: (body ++ [')']))).ppred =
            some (byteLength name + 1 + byteLength body) := by
          refine Nat.ppred_eq_some.mpr ?_
          simp only [byteLength_append, byteLength_cons, byteLength_nil, hopenSize, hcloseSize]
          omega
        have hname' : slice? (name ++ '(' :: (body ++ [')'])) 0 (byteLength name) = some name := by
          have hslice := slice?_append [] name ('(' :: (body ++ [')']))
          rwa [List.nil_append, byteLength_nil, Nat.zero_add] at hslice
        have hbody : slice? (name ++ '(' :: (body ++ [')'])) (byteLength name + 1)
            (byteLength name + 1 + byteLength body) = some body := by
          have hslice := slice?_append (name ++ ['(']) body [')']
          rwa [hfirst, List.append_assoc] at hslice
        rw [if_pos rfl, if_pos rfl, hname', look_bind, hlength, look_bind, hbody, look_bind, argsSliced_eq]
      · rw [if_neg (by simpa using hclose), if_neg (by simpa using hclose)]
  · have hfind : find? '(' text = none := if_neg hopen
    unfold callSliced
    rw [ofCall?_of_not_mem hopen, hfind]
    rfl

theorem utf8Size_of_isHexDigit {c : Char} (h : IsHexDigit c) : c.utf8Size = 1 := by
  rw [Char.utf8Size_eq_one_iff]
  have hle : c ≤ 'f' := by
    rcases h with ⟨-, h⟩ | ⟨-, h⟩ | ⟨-, h⟩
    · exact h.trans (by decide)
    · exact h
    · exact h.trans (by decide)
  exact UInt32.le_trans (Char.le_def.mp hle) (by decide)

section

variable {text : List Char} {digits : List Nat}

theorem utf8Size_of_digits (h : text.mapM hexDigit? = some digits) : ∀ c ∈ text, c.utf8Size = 1 :=
  fun c hc => utf8Size_of_isHexDigit (hexDigit?_isSome_iff.mp
    (mapM_isSome_iff.mp (Option.isSome_of_eq_some h) c hc))

theorem exists_getElem?_of_digits (h : text.mapM hexDigit? = some digits) {i d : Nat}
    (hd : digits[i]? = some d) :
    ∃ c, text.drop i = c :: text.drop (i + 1) ∧ hexDigit? c = some d ∧ i + 1 ≤ text.length := by
  obtain ⟨hlen, hat⟩ := forall₂_iff_getElem?.mp (mapM_eq_some_iff.mp h)
  obtain ⟨c, hc⟩ := exists_getElem?_of_getElem? hlen hd
  obtain ⟨hi, rfl⟩ := List.getElem?_eq_some_iff.mp hc
  exact ⟨text[i], List.drop_eq_getElem_cons hi, hat i _ d hc hd, hi⟩

theorem shortByte_eq (h : text.mapM hexDigit? = some digits) {i d : Nat} (hd : digits[i]? = some d) :
    shortByte text i = answer (some (17 * d)) := by
  obtain ⟨c, hdrop, hdigit, hi⟩ := exists_getElem?_of_digits h hd
  have hvalue : hexValue? ([c] ++ [c]) = some (17 * d) := by
    simp [hexValue?, hdigit]
    omega
  unfold shortByte
  rw [slice?_of_oneByte (utf8Size_of_digits h) hi, look_bind, hdrop]
  exact congrArg answer hvalue

theorem longByte_eq (h : text.mapM hexDigit? = some digits) {i d e : Nat} (hd : digits[i]? = some d)
    (he : digits[i + 1]? = some e) : longByte text i = answer (some (16 * d + e)) := by
  obtain ⟨c, hdrop, hdigit, -⟩ := exists_getElem?_of_digits h hd
  obtain ⟨c', hdrop', hdigit', hi⟩ := exists_getElem?_of_digits h he
  have hvalue : hexValue? [c, c'] = some (16 * d + e) := by
    simp [hexValue?, hdigit, hdigit']
  have hslice : slice? text i (i + 2) = some ((text.drop i).take 2) :=
    slice?_of_oneByte (utf8Size_of_digits h) hi
  unfold longByte
  rw [hslice, look_bind, hdrop, hdrop']
  exact congrArg answer hvalue

end

theorem hexSliced_eq (text : List Char) :
    (hexSliced text : Sliced (Color N)) = answer (ofHex? text) := by
  unfold hexSliced ofHex?
  cases h : text.mapM hexDigit? with
  | none =>
    rw [if_neg]
    · rfl
    · rw [List.all_eq_true, ← mapM_isSome_iff, h]
      nofun
  | some digits =>
    have hall : (text.all fun c => (hexDigit? c).isSome) = true := by
      rw [List.all_eq_true, ← mapM_isSome_iff, h]
      rfl
    have hlength : byteLength text = digits.length := by
      rw [byteLength_eq_length (utf8Size_of_digits h), (mapM_eq_some_iff.mp h).length_eq]
    rw [if_pos hall, hlength, Option.bind_some]
    split
    · next hlen =>
      obtain ⟨r, g, b, rfl⟩ := List.length_eq_three.mp hlen
      rw [shortByte_eq h (i := 0) rfl, shortByte_eq h (i := 1) rfl, shortByte_eq h (i := 2) rfl]
      rfl
    · next hlen =>
      obtain ⟨r, g, b, a, rfl⟩ := List.length_eq_four.mp hlen
      rw [shortByte_eq h (i := 0) rfl, shortByte_eq h (i := 1) rfl, shortByte_eq h (i := 2) rfl,
        shortByte_eq h (i := 3) rfl]
      rfl
    · next hlen =>
      match digits, h, hlen with
      | [r, r', g, g', b, b'], h, _ =>
        rw [longByte_eq h (i := 0) rfl rfl, longByte_eq h (i := 2) rfl rfl,
          longByte_eq h (i := 4) rfl rfl]
        rfl
    · next hlen =>
      match digits, h, hlen with
      | [r, r', g, g', b, b', a, a'], h, _ =>
        rw [longByte_eq h (i := 0) rfl rfl, longByte_eq h (i := 2) rfl rfl,
          longByte_eq h (i := 4) rfl rfl, longByte_eq h (i := 6) rfl rfl]
        rfl
    · next hthree hfour hsix height =>
      have hnone : (ofHexDigits? digits : Option (Color N)) = none := by
        rw [← Option.not_isSome_iff_eq_none, ofHexDigits?_isSome_iff]
        simp only [List.mem_cons, List.not_mem_nil, or_false, not_or]
        exact ⟨hthree, hfour, hsix, height⟩
      rw [hnone]

theorem cssSliced_eq (text : String) : (cssSliced text : Sliced (Color N)) = answer (ofCss? text) := by
  unfold cssSliced ofCss?
  dsimp only
  generalize lowerBasic (trim text.toList) = text
  split
  · rfl
  · cases named? (String.ofList text) with
    | some rgb => rfl
    | none =>
      dsimp only
      split
      · next hhead =>
        obtain ⟨digits, rfl⟩ := List.head?_eq_some_iff.mp hhead
        have hlength : byteLength ('#' :: digits) = byteLength ['#'] + byteLength digits :=
          byteLength_append ['#'] digits
        have hslice := slice?_append ['#'] digits []
        rw [List.append_nil, ← hlength] at hslice
        exact (congrArg (look · >>= hexSliced) hslice).trans (hexSliced_eq digits)
      · next hhead =>
        rw [callSliced_eq]
        split
        · exact absurd rfl hhead
        · rfl

/-- Every text has an answer, which is a color exactly where the text, trimmed and in lower case, is one of
the grammar. -/
theorem ofCss?_exact (text : String) :
    (cssSliced text : Sliced (Color Float)).run = some (ofCss? text) ∧
      ((ofCss? text : Option (Color Float)).isSome = true ↔ IsColor (lowerBasic (trim text.toList))) :=
  ⟨cssSliced_eq text, ofCss?_isSome_iff⟩

end MapStyle.Color
