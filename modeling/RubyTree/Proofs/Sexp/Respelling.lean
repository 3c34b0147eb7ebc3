import Mathlib.Data.List.Forall2
import RubyTree.Proofs.Sexp.Refusal
import RubyTree.Proofs.Text.NumeralGrammar

/-!
# Spellings of one text

Between double quotes the characters of a text may be written in several ways: as
they are, behind a backslash, or by their code points in base sixteen.  Each
character, or run of characters in braces, may be written in its own way; what is
read depends on the text alone.

Main results:

- `SpellsCode` relates a word to the character whose code point it is, and
  `codePoint_of_spellsCode` says that the word is read as this character.
- `SpellsText` relates a spelling to its text, one way of writing after the other.
- `scanString_of_spellsText`: behind its opening quote a spelling is scanned as its
  text, whatever stands behind the closing quote.
- `spellsText_encodeBody`: what is printed is one of the spellings.
- `spellings_read_alike` puts this together for strings and for symbols.
-/

namespace RubyTree.Sexp

open RubyTree.Text

/-! ## Digits of base sixteen -/

/-- The character is the digit of a number below sixteen, in either case. -/
def SpellsDigit (c : Char) (n : Nat) : Prop :=
  n < 16 ∧ (c = n.digitChar ∨ c = n.digitChar.toUpper)

instance (c : Char) (n : Nat) : Decidable (SpellsDigit c n) :=
  inferInstanceAs (Decidable (_ ∧ _))

/-- A digit has its value, and is neither blank nor one of the marks in and around numbers. -/
theorem SpellsDigit.facts {c : Char} {n : Nat} (h : SpellsDigit c n) :
    hexValue? c = some n ∧ isHexDigit c = true ∧ isBlank c = false ∧
      c ∉ ['+', '-', 'x', 'X', '_', '\x7b', '\x7d'] := by
  have htable : ((List.range 16).all fun n => [n.digitChar, n.digitChar.toUpper].all fun c =>
      hexValue? c == some n && isHexDigit c && !isBlank c &&
        !(['+', '-', 'x', 'X', '_', '\x7b', '\x7d'].contains c)) = true := by decide
  have hboth := List.all_eq_true.1 htable n (List.mem_range.2 h.1)
  have hc := List.all_eq_true.1 hboth c (by simpa using h.2)
  simp only [Bool.and_eq_true, beq_iff_eq, Bool.not_eq_true', List.contains_eq_mem,
    decide_eq_false_iff_not] at hc
  exact ⟨hc.1.1.1, hc.1.1.2, hc.1.2, hc.2⟩

/-- The word is the code point of the character in base sixteen, with zeros in front or without. -/
def SpellsCode (word : List Char) (c : Char) : Prop :=
  ∃ digits, digits ≠ [] ∧ List.Forall₂ SpellsDigit word digits ∧
    Nat.ofDigits 16 digits.reverse = c.toNat

section Digits

variable {word : List Char} {digits : List Nat}

/-- Digits are read as their values. -/
theorem filterMap_hexValue? (h : List.Forall₂ SpellsDigit word digits) :
    word.filterMap hexValue? = digits := by
  induction h with
  | nil => rfl
  | cons hdigit _ ih => rw [List.filterMap_cons_some hdigit.facts.1, ih]

/-- Behind a digit the others are read as their values. -/
theorem hexRest_of_spellsDigit (h : List.Forall₂ SpellsDigit word digits) :
    hexRest word = some digits := by
  induction h with
  | nil => rfl
  | cons hdigit _ ih =>
    rcases hdigit.facts with ⟨hvalue, -, -, hmark⟩
    rw [hexRest, hvalue]
    · simp [ih]
    · rintro _ _ rfl
      simp at hmark

/-- All characters of digits are digits. -/
theorem exists_digit_of_mem {d : Char} (h : List.Forall₂ SpellsDigit word digits) (hd : d ∈ word) :
    ∃ n, SpellsDigit d n := by
  induction h with
  | nil => cases hd
  | cons hdigit _ ih =>
    rcases List.mem_cons.1 hd with rfl | hd
    · exact ⟨_, hdigit⟩
    · exact ih hd

/-- One digit and those behind it are a number without sign and mark. -/
theorem hexNumber?_of_spellsDigit (hne : digits ≠ []) (h : List.Forall₂ SpellsDigit word digits) :
    hexNumber? word = some ((ofHexDigits digits : Nat) : Int) := by
  cases h with
  | nil => exact absurd rfl hne
  | @cons c n word digits hdigit hrest =>
    rcases hdigit.facts with ⟨hvalue, -, -, hmark⟩
    have hsign : takeSign (c :: word) = (false, c :: word) := by
      unfold takeSign
      split
      · next h => simp [(List.cons.inj h).1] at hmark
      · next h => simp [(List.cons.inj h).1] at hmark
      · rfl
    have hdrop : dropHexMark (c :: word) = c :: word := by
      unfold dropHexMark
      split
      · next zero x rest htext =>
        rcases List.cons.inj htext with ⟨rfl, rfl⟩
        rcases exists_digit_of_mem hrest List.mem_cons_self with ⟨m, hsecond⟩
        have hx := hsecond.facts.2.2.2
        rw [if_neg]
        rintro ⟨-, rfl | rfl⟩ <;> simp at hx
      · rfl
    simp only [hexNumber?, hsign, hdrop, hexDigitsOf, hvalue, hexRest_of_spellsDigit hrest]
    rfl

end Digits

namespace SpellsCode

variable {word : List Char} {c : Char}

theorem facts (h : SpellsCode word c) :
    word ≠ [] ∧ ∀ d ∈ word, isHexDigit d = true ∧ isBlank d = false ∧
      d ≠ '\x7b' ∧ d ≠ '\x7d' := by
  rcases h with ⟨digits, hne, hword, -⟩
  refine ⟨?_, fun d hd => ?_⟩
  · rintro rfl
    cases hword
    exact hne rfl
  · rcases exists_digit_of_mem hword hd with ⟨n, hdigit⟩
    rcases hdigit.facts with ⟨-, hhex, hblank, hmark⟩
    simp only [List.mem_cons, List.not_mem_nil, or_false, not_or] at hmark
    exact ⟨hhex, hblank, hmark.2.2.2.2.2.1, hmark.2.2.2.2.2.2⟩

/-- The digits give the code point of the character. -/
theorem ofHexDigits_word (h : SpellsCode word c) :
    ofHexDigits (word.filterMap hexValue?) = c.toNat := by
  rcases h with ⟨digits, -, hword, hvalue⟩
  rw [filterMap_hexValue? hword, ofHexDigits, foldl_digits, hvalue]

end SpellsCode

/-- A word in braces is read as the code point of the character that it spells. -/
theorem codePoint_of_spellsCode {word : List Char} {c : Char} (h : SpellsCode word c) :
    codePoint word = .ok c.toNat := by
  rcases h with ⟨digits, hne, hword, hvalue⟩
  have hlast : c.toNat ≤ 0x10FFFF := by
    have hvalid : c.toNat < 0xD800 ∨ 0xDFFF < c.toNat ∧ c.toNat < 0x110000 := c.valid
    omega
  rw [codePoint, hexNumber?_of_spellsDigit hne hword, ofHexDigits, foldl_digits, hvalue]
  simp only
  rw [if_neg (by omega), if_neg (by omega), Int.toNat_natCast]

/-! ## Code points in braces -/

/-- The words inside of braces are the code points of the characters, with blanks between them. -/
inductive SpellsCodes : List Char → List Char → Prop
  /-- There is no further word. -/
  | nil : SpellsCodes [] []
  /-- A blank in front. -/
  | blank {b : Char} {inside run : List Char} (hb : isBlank b = true)
      (h : SpellsCodes inside run) : SpellsCodes (b :: inside) run
  /-- A word, which the text ends or a blank. -/
  | code {word inside run : List Char} {c : Char} (hword : SpellsCode word c)
      (hends : ∀ b ∈ inside.head?, isBlank b = true) (h : SpellsCodes inside run) :
      SpellsCodes (word ++ inside) (c :: run)

/-- Characters that are no blanks go on with the current word. -/
theorem words_go_append {word : List Char} (h : ∀ c ∈ word, isBlank c = false)
    (rest current : List Char) :
    words.go (word ++ rest) current = words.go rest (word.reverse ++ current) := by
  induction word generalizing current with
  | nil => rfl
  | cons c word ih =>
    rcases List.forall_mem_cons.1 h with ⟨hc, hword⟩
    rw [List.cons_append, words.go, if_neg (by simp [hc]), ih hword]
    simp

/-- A word that the text ends or a blank is the first one. -/
theorem words_append {word inside : List Char} (hne : word ≠ [])
    (hword : ∀ c ∈ word, isBlank c = false) (hends : ∀ b ∈ inside.head?, isBlank b = true) :
    words (word ++ inside) = word :: words inside := by
  rw [words, words_go_append hword, List.append_nil]
  cases inside with
  | nil => simp [words, words.go, hne]
  | cons b inside => simp [words, words.go, hends b rfl, hne]

/-- The words in braces are read as the code points of the characters, and no brace is among
them. -/
theorem codePoints_of_spellsCodes {inside run : List Char} (h : SpellsCodes inside run) :
    codePoints (words inside) = .ok (run.map Char.toNat) ∧ '\x7d' ∉ inside := by
  induction h with
  | nil => exact ⟨rfl, List.not_mem_nil⟩
  | @blank b inside run hb h ih =>
    have hwords : words (b :: inside) = words inside := by simp [words, words.go, hb]
    rw [hwords]
    refine ⟨ih.1, fun hmem => ?_⟩
    rcases List.mem_cons.1 hmem with rfl | hmem
    · exact absurd hb (by decide)
    · exact ih.2 hmem
  | code hword hends _ ih =>
    rcases hword.facts with ⟨hne, hmem⟩
    rw [words_append hne (fun d hd => (hmem d hd).2.1) hends, codePoints,
      codePoint_of_spellsCode hword, ih.1]
    refine ⟨rfl, fun hbrace => ?_⟩
    rcases List.mem_append.1 hbrace with hbrace | hbrace
    · exact (hmem _ hbrace).2.2.2 rfl
    · exact ih.2 hbrace

/-! ## Spellings -/

/-- The characters between the quotes spell the text, each character of it in one of five ways, or
as one of several in braces. -/
inductive SpellsText : List Char → List Char → Prop
  /-- Nothing spells the empty text. -/
  | nil : SpellsText [] []
  /-- A character as it is. -/
  | raw {c : Char} {spelling text : List Char} (hquote : c ≠ '"') (hslash : c ≠ '\\')
      (h : SpellsText spelling text) : SpellsText (c :: spelling) (c :: text)
  /-- A backslash and the letter of the character. -/
  | letter {letter c : Char} {spelling text : List Char} (hentry : (letter, c) ∈ escapeTable)
      (h : SpellsText spelling text) : SpellsText ('\\' :: letter :: spelling) (c :: text)
  /-- A backslash and the character itself, which is none of the letters. -/
  | itself {c : Char} {spelling text : List Char} (hletter : c ∉ escapeTable.map Prod.fst)
      (hu : c ≠ 'u') (h : SpellsText spelling text) : SpellsText ('\\' :: c :: spelling) (c :: text)
  /-- The code point of the character in four digits. -/
  | code {digits spelling text : List Char} {c : Char} (hlength : digits.length = 4)
      (hcode : SpellsCode digits c) (h : SpellsText spelling text) :
      SpellsText ('\\' :: 'u' :: (digits ++ spelling)) (c :: text)
  /-- The code points of a run of characters in braces. -/
  | braces {inside run spelling text : List Char} (hinside : SpellsCodes inside run)
      (h : SpellsText spelling text) :
      SpellsText ('\\' :: 'u' :: '\x7b' :: (inside ++ '\x7d' :: spelling)) (run ++ text)

/-- What is no letter stands for itself behind a backslash. -/
theorem unescape_itself {c : Char} (h : c ∉ escapeTable.map Prod.fst) : unescape c = c := by
  have hlookup : escapeTable.lookup c = none := by
    rw [List.lookup_eq_none_iff]
    intro entry hentry
    have hne : c ≠ entry.1 := fun heq => h (heq ▸ List.mem_map_of_mem hentry)
    simpa using hne
  rw [unescape, hlookup, Option.getD_none]

/-- Behind the letter `u`, four digits are read as the code point of the character. -/
theorem readUnicode_digits {digits : List Char} {c : Char} (hlength : digits.length = 4)
    (h : SpellsCode digits c) (rest : List Char) :
    readUnicode (digits ++ rest) = (.ok [c.toNat], 4) := by
  have hcode := h.ofHexDigits_word
  rcases h.facts with ⟨-, hmem⟩
  match digits, hlength with
  | [a, b, d, e], _ =>
    have hall : [a, b, d, e].all isHexDigit = true :=
      List.all_eq_true.2 fun x hx => (hmem x hx).1
    have hbrace : a ≠ '\x7b' := (hmem a List.mem_cons_self).2.2.1
    simp only [List.cons_append, List.nil_append]
    rw [readUnicode]
    · simp only [hall, hcode, if_true]
    · exact hbrace

/-- What is in front of a closed string adds its size. -/
theorem StringScan.prepend_closed {front value : List Char} {size n total : Nat}
    (h : total = size + n) :
    (StringScan.closed value n).prepend front size = .closed (front ++ value) total := by
  rw [h, prepend]

/-- Behind its opening quote a spelling is scanned as its text, up to the closing quote and with
it, whatever stands behind. -/
theorem scanString_of_spellsText {spelling text : List Char} (h : SpellsText spelling text)
    (rest : List Char) :
    scanString (spelling ++ '"' :: rest) = .closed text (spelling.length + 1) := by
  induction h with
  | nil => exact scanString_quote rest
  | raw hquote hslash _ ih =>
    rw [List.cons_append, scanString_plain hquote hslash, ih]
    exact StringScan.prepend_closed (by rw [List.length_cons]; omega)
  | letter hentry _ ih =>
    rcases unescape_letter hentry with ⟨hback, hu⟩
    rw [List.cons_append, List.cons_append, scanString_escape hu, hback, ih]
    exact StringScan.prepend_closed (by simp only [List.length_cons]; omega)
  | itself hletter hu _ ih =>
    rw [List.cons_append, List.cons_append, scanString_escape hu, unescape_itself hletter, ih]
    exact StringScan.prepend_closed (by simp only [List.length_cons]; omega)
  | @code digits spelling text c hlength hcode _ ih =>
    have hread : readEscape 'u' (digits ++ (spelling ++ '"' :: rest)) = (.ok [c], 4) :=
      readEscape_of_codes (readUnicode_digits hlength hcode _)
    simp only [List.cons_append, List.append_assoc]
    rw [scanString_escape_ok (by rw [hread]), hread, List.drop_left' hlength, ih]
    exact StringScan.prepend_closed (by simp only [List.length_cons, List.length_append]; omega)
  | @braces inside run spelling text hinside _ ih =>
    rcases codePoints_of_spellsCodes hinside with ⟨hpoints, hbrace⟩
    have hread : readEscape 'u' ('\x7b' :: (inside ++ '\x7d' :: (spelling ++ '"' :: rest))) =
        (.ok run, inside.length + 2) := by
      apply readEscape_of_codes
      rw [← hpoints]
      exact readUnicode_closed hbrace _
    have hdrop : ('\x7b' :: (inside ++ '\x7d' :: (spelling ++ '"' :: rest))).drop
        (inside.length + 2) = spelling ++ '"' :: rest := by
      rw [List.drop_succ_cons, ← List.drop_drop, List.drop_left, List.drop_one, List.tail_cons]
    simp only [List.cons_append, List.append_assoc]
    rw [scanString_escape_ok (by rw [hread]), hread, hdrop, ih]
    exact StringScan.prepend_closed (by simp only [List.length_cons, List.length_append]; omega)

/-- A character is written with its letter, or as itself if it has none. -/
theorem SpellsText.of_escapeLetter {c letter : Char} {spelling text : List Char}
    (hletter : escapeLetter? c = some letter) (h : SpellsText spelling text) :
    SpellsText ('\\' :: letter :: spelling) (c :: text) := by
  unfold escapeLetter? at hletter
  split at hletter
  · next hself =>
    cases hletter
    rcases hself with rfl | rfl
    · exact .itself (by decide) (by decide) h
    · exact .itself (by decide) (by decide) h
  · split at hletter
    · cases hletter
    · rcases Option.map_eq_some_iff.1 hletter with ⟨⟨front, back⟩, hfind, rfl⟩
      obtain rfl : back = c := by simpa using List.find?_some hfind
      exact .letter (List.mem_of_find?_eq_some hfind) h

/-- What is printed between quotes is one of the spellings. -/
theorem spellsText_encodeBody (text : List Char) : SpellsText (encodeBody text) text := by
  fun_induction encodeBody text with
  | case1 => exact .nil
  | case2 rest ih => exact .itself (by decide) (by decide) (.raw (by decide) (by decide) ih)
  | case3 c rest _ ih =>
    unfold escaped
    split
    · next letter hletter => exact .of_escapeLetter hletter ih
    · next hnone =>
      rcases ne_of_escapeLetter?_eq_none hnone with ⟨hslash, hquote⟩
      exact .raw hquote hslash ih

/-! ## Strings and symbols -/

/-- A text that starts with the front is scanned as one sound token of the lexeme over the front,
and then as the rest. -/
structure ReadsFirst (front rest : List Char) (lexeme : Lexeme) : Prop where
  /-- The first step reads the front. -/
  next_eq : (Cursor.ofText (String.ofList (front ++ rest))).next =
    .token (.over 0 front lexeme) ⟨front.length, rest⟩
  /-- The token stands in front of the others, if the rest can be scanned to its end. -/
  ofText_eq : Tokens.ofText (String.ofList (front ++ rest)) =
    (Tokens.scanFrom ⟨front.length, rest⟩).map fun tokens =>
      ⟨.over 0 front lexeme :: tokens.toList, tokens.size⟩
  /-- Nothing is reported on it. -/
  sound : (Token.over 0 front lexeme).diagnostic? = none

/-- A front is read first if the first step emits it. -/
theorem ReadsFirst.of_next {front rest : List Char} {lexeme : Lexeme}
    (hsound : ∀ fault, lexeme ≠ .faulty fault)
    (h : Cursor.next ⟨0, front ++ rest⟩ = Cursor.emit ⟨0, front ++ rest⟩ lexeme front.length) :
    ReadsFirst front rest lexeme := by
  have hnext : (Cursor.ofText (String.ofList (front ++ rest))).next =
      .token (.over 0 front lexeme) ⟨front.length, rest⟩ := by
    rw [Cursor.ofText, String.toList_ofList, h, Cursor.emit_append, Nat.zero_add]
  refine ⟨hnext, Tokens.scanFrom_of_token hnext, ?_⟩
  unfold Token.diagnostic?
  split
  · next fault hfault => exact absurd hfault (hsound fault)
  · rfl

/-- Whatever stands behind it, the quoted text is read as a string with the text for its value, and
behind a colon as the symbol of that name. -/
def ReadsAs (quoted text : List Char) : Prop :=
  ∀ rest, ReadsFirst quoted rest (.string (String.ofList text)) ∧
    ReadsFirst (':' :: quoted) rest (.symbol ⟨String.ofList text⟩)

/-- A spelling between quotes is read as its text. -/
theorem SpellsText.readsAs {spelling text : List Char} (h : SpellsText spelling text) :
    ReadsAs ('"' :: (spelling ++ ['"'])) text := by
  intro rest
  have hscan := scanString_of_spellsText h rest
  have hstring : ∀ (start : Cursor) (lead : Nat) (lexeme : String → Lexeme),
      start.string lead lexeme (spelling ++ '"' :: rest) =
        start.emit (lexeme (String.ofList text)) (lead + 1 + (spelling.length + 1)) := by
    intro start lead lexeme
    rw [Cursor.string, hscan]
  have hlength : ('"' :: (spelling ++ ['"'])).length = 0 + 1 + (spelling.length + 1) := by
    simp only [List.length_cons, List.length_append, List.length_nil]
    omega
  have hsymbol : (':' :: '"' :: (spelling ++ ['"'])).length = 1 + 1 + (spelling.length + 1) := by
    rw [List.length_cons, hlength]
    omega
  have hrest : '"' :: (spelling ++ ['"']) ++ rest = '"' :: (spelling ++ '"' :: rest) := by simp
  constructor
  · apply ReadsFirst.of_next (by simp)
    rw [hlength, hrest]
    exact hstring _ 0 .string
  · apply ReadsFirst.of_next (by simp)
    rw [hsymbol, List.cons_append, hrest]
    exact hstring _ 1 (.symbol ⟨·⟩)

/-- Every spelling between quotes is read as its text, and what is printed for a text is one of its
spellings. -/
theorem spellings_read_alike :
    (∀ {spelling text : List Char}, SpellsText spelling text →
      ReadsAs ('"' :: (spelling ++ ['"'])) text) ∧
    ∀ text, SpellsText (encodeBody text) text ∧ ReadsAs (encode text) text := by
  constructor
  · intro spelling text h
    exact h.readsAs
  · intro text
    have hprinted : SpellsText (encodeBody text) text := spellsText_encodeBody text
    exact ⟨hprinted, hprinted.readsAs⟩

/-- A bare letter, a letter behind a backslash, a quote, four digits, and two words in braces: the
text is the same as if it stood between the quotes as it is printed. -/
theorem spellings_read_alike_mixed :
    ReadsAs
      ('"' :: (['a', '\\', 'n', '\\', '"', '\\', 'u', '0', '0', 'E', '9', '\\', 'u', '\x7b', ' ',
        '6', '1', ' ', ' ', '1', 'f', '6', '0', '0', '\x7d'] ++ ['"']))
      ['a', '\n', '"', 'é', 'a', '😀'] := by
  have hfour : SpellsCode ['0', '0', 'E', '9'] 'é' :=
    ⟨[0, 0, 14, 9], by decide, by simp [List.forall₂_cons]; decide, by decide⟩
  have hshort : SpellsCode ['6', '1'] 'a' :=
    ⟨[6, 1], by decide, by simp [List.forall₂_cons]; decide, by decide⟩
  have hlong : SpellsCode ['1', 'f', '6', '0', '0'] '😀' :=
    ⟨[1, 15, 6, 0, 0], by decide, by simp [List.forall₂_cons]; decide, by decide⟩
  have hspace : isBlank ' ' = true := by decide
  have hrun : SpellsCodes [' ', '6', '1', ' ', ' ', '1', 'f', '6', '0', '0'] ['a', '😀'] :=
    .blank hspace (.code hshort (by simpa using hspace)
      (.blank hspace (.blank hspace (.code hlong (by simp) .nil))))
  exact spellings_read_alike.1 (.raw (by decide) (by decide) (.letter (by decide)
    (.itself (by decide) (by decide) (.code (by decide) hfour (.braces hrun .nil)))))

end RubyTree.Sexp
