import RubyTree.Proofs.Sexp.SecondReading
import RubyTree.Proofs.Text.NumeralGrammar

/-!
# What words are read as

Behind the blanks, and apart from parentheses and quotes, a step of the scanner
reads the longest run of characters that can stand in a word, as a whole.  The word
and whether a quote stands behind it decide what is read: digits that go on with
something else than a numeral are no numeral at all, but fall under the rules for
names.

Main results:

- `Cursor.next_eq_over`: a step reads the longest run, in one token.
- `WordIs` is the rule for words, with one case for each thing that a word can be.
- `wordIs_iff`: the scanner follows the rule, and the rule is unambiguous.
- `next_of_word` puts this together for all places of all texts.
-/

namespace RubyTree.Sexp

open RubyTree.Text

/-! ## The longest run -/

namespace Cursor

variable {cursor : Cursor} {c : Char} {rest word behind : List Char}

/-- A step reads the longest run of characters of words, in one token. -/
theorem next_eq_over (hstart : cursor.skipBlanks.rest = c :: rest)
    (hc : c ≠ '(' ∧ c ≠ ')' ∧ c ≠ '"') (hword : word = (c :: rest).takeWhile isWordChar)
    (hbehind : behind = (c :: rest).dropWhile isWordChar)
    (hquoted : ¬ (word = [':'] ∧ behind.head? = some '"')) :
    ∃ tail, word = c :: tail ∧
      cursor.next = .token
        (.over cursor.skipBlanks.offset word (.ofWord c tail (behind.head? = some '"')))
        ⟨cursor.skipBlanks.offset + word.length, behind⟩ := by
  have hfirst : isWordChar c = true := isWordChar_iff.2 ⟨isBlank_of_skipBlanks hstart, hc⟩
  rw [List.takeWhile_cons_of_pos hfirst] at hword
  rw [List.dropWhile_cons_of_pos hfirst] at hbehind
  have hcolon : ¬ (c = ':' ∧ rest.head? = some '"') := by
    rintro ⟨rfl, hquote⟩
    apply hquoted
    cases rest with
    | nil => cases hquote
    | cons d rest =>
      obtain rfl : d = '"' := Option.some.inj hquote
      have hends : ¬ isWordChar '"' = true := by decide
      rw [hword, hbehind, List.takeWhile_cons_of_neg hends, List.dropWhile_cons_of_neg hends]
      exact ⟨rfl, rfl⟩
  refine ⟨rest.takeWhile isWordChar, hword, ?_⟩
  have hcursor : cursor.skipBlanks = ⟨cursor.skipBlanks.offset, word ++ behind⟩ := by
    rw [hword, hbehind, List.cons_append, List.takeWhile_append_dropWhile, ← hstart]
  have hlength : word.length = (rest.takeWhile isWordChar).length + 1 := by
    rw [hword, List.length_cons]
  calc cursor.next
      = cursor.skipBlanks.word c rest := next_eq_word hstart hc hcolon
    _ = cursor.skipBlanks.emit
          (.ofWord c (rest.takeWhile isWordChar) (behind.head? = some '"')) word.length := by
        rw [Cursor.word, drop_takeWhile, ← hbehind, hlength]
    _ = .token (.over cursor.skipBlanks.offset word
          (.ofWord c (rest.takeWhile isWordChar) (behind.head? = some '"')))
          ⟨cursor.skipBlanks.offset + word.length, behind⟩ := by
        rw [hcursor, emit_append]

end Cursor

/-! ## The rule for words -/

/-- The word is a numeral from end to end. -/
def IsNumber (word : List Char) : Prop :=
  ∃ sign whole fraction exponent, IsNumeral word sign whole fraction exponent

/-- What a word is, with a quote behind it or without. -/
inductive WordIs (quoted : Bool) : List Char → Lexeme → Prop
  /-- A colon and more is a symbol. -/
  | symbol {name : List Char} (hname : name ≠ []) :
      WordIs quoted (':' :: name) (.symbol ⟨String.ofList name⟩)
  /-- A colon alone is nothing. -/
  | loneColon : WordIs quoted [':'] (.faulty .loneColon)
  /-- A numeral without a fraction and without an exponent is a whole number. -/
  | int {word sign whole : List Char} (hquoted : quoted = false)
      (h : IsNumeral word sign whole [] []) : WordIs quoted word (.int (signedNumber sign whole))
  /-- A numeral with one of them is a binary number. -/
  | float {word sign whole fraction exponent : List Char} (hquoted : quoted = false)
      (h : IsNumeral word sign whole fraction exponent) (hpart : fraction ≠ [] ∨ exponent ≠ []) :
      WordIs quoted word (.float (Numeral.ofParts sign whole fraction exponent).toBinary64)
  /-- Any other word that starts with a letter or an underscore is a name. -/
  | identifier {c : Char} {tail : List Char} (hnumber : quoted = true ∨ ¬ IsNumber (c :: tail))
      (hfirst : isLetter c = true ∨ c = '_') :
      WordIs quoted (c :: tail) (.identifier (String.ofList (c :: tail)))
  /-- No word starts with another character. -/
  | unexpected {c : Char} {tail : List Char} (hcolon : c ≠ ':')
      (hnumber : quoted = true ∨ ¬ IsNumber (c :: tail))
      (hfirst : ¬ (isLetter c = true ∨ c = '_')) :
      WordIs quoted (c :: tail) (.faulty (.unexpectedCharacter c))

/-- Numerals do not start with a colon. -/
theorem ne_colon_of_isNumeral {c : Char} {tail sign whole fraction exponent : List Char}
    (h : IsNumeral (c :: tail) sign whole fraction exponent) : c ≠ ':' := by
  rcases h.whole.exists_cons with ⟨d, rest, rfl, hd⟩
  have hword := h.word_eq
  rcases h.sign with rfl | rfl | rfl
  · rw [(List.cons.inj hword).1]
    exact ne_of_isDecimal hd (by decide)
  · rw [(List.cons.inj hword).1]
    decide
  · rw [(List.cons.inj hword).1]
    decide

/-- A word is a numeral exactly when it is read as one. -/
theorem ofWord?_eq_none_iff {word : List Char} : Numeral.ofWord? word = none ↔ ¬ IsNumber word := by
  rw [IsNumber, ← isSome_ofWord?_iff, Option.not_isSome_iff_eq_none]

/-- A word that is no numeral, or has a quote behind it, is a name or nothing. -/
theorem ofWord_of_not_isNumber {c : Char} {tail : List Char} {quoted : Bool} (hcolon : c ≠ ':')
    (hnumber : quoted = true ∨ ¬ IsNumber (c :: tail)) :
    Lexeme.ofWord c tail quoted =
      if isLetter c ∨ c = '_' then .identifier (String.ofList (c :: tail))
      else .faulty (.unexpectedCharacter c) := by
  rw [Lexeme.ofWord, if_neg hcolon]
  rcases hnumber with rfl | hnumber
  · cases Numeral.ofWord? (c :: tail) with
    | none => rfl
    | some numeral => rfl
  · rw [ofWord?_eq_none_iff.2 hnumber]

/-- What the rule says is what is read. -/
theorem WordIs.ofWord_eq {c : Char} {tail : List Char} {quoted : Bool} {lexeme : Lexeme}
    (h : WordIs quoted (c :: tail) lexeme) : Lexeme.ofWord c tail quoted = lexeme := by
  cases h with
  | symbol hname => simp [Lexeme.ofWord, hname]
  | loneColon => rfl
  | int hquoted h =>
    have hcolon : c ≠ ':' := ne_colon_of_isNumeral h
    subst hquoted
    rw [ofWord_numeral hcolon (ofWord?_of_isNumeral h), if_pos (isWhole_ofParts.2 ⟨rfl, rfl⟩),
      toInt_ofParts]
  | float hquoted h hpart =>
    have hcolon : c ≠ ':' := ne_colon_of_isNumeral h
    subst hquoted
    rw [ofWord_numeral hcolon (ofWord?_of_isNumeral h), if_neg]
    intro hwhole
    rcases isWhole_ofParts.1 hwhole with ⟨hfraction, hexponent⟩
    rcases hpart with hpart | hpart
    · exact hpart hfraction
    · exact hpart hexponent
  | identifier hnumber hfirst =>
    have hcolon : c ≠ ':' := by
      rintro rfl
      rcases hfirst with hletter | hline
      · rw [not_isLetter_mark (by simp)] at hletter
        cases hletter
      · exact absurd hline (by decide)
    rw [ofWord_of_not_isNumber hcolon hnumber, if_pos hfirst]
  | unexpected hcolon hnumber hfirst => rw [ofWord_of_not_isNumber hcolon hnumber, if_neg hfirst]

/-- What is read is what the rule says. -/
theorem wordIs_ofWord (c : Char) (tail : List Char) (quoted : Bool) :
    WordIs quoted (c :: tail) (Lexeme.ofWord c tail quoted) := by
  by_cases hcolon : c = ':'
  · subst hcolon
    by_cases htail : tail = []
    · subst htail
      exact .loneColon
    · have hsymbol : Lexeme.ofWord ':' tail quoted = .symbol ⟨String.ofList tail⟩ := by
        simp [Lexeme.ofWord, htail]
      rw [hsymbol]
      exact .symbol htail
  · by_cases hnumber : quoted = true ∨ ¬ IsNumber (c :: tail)
    · rw [ofWord_of_not_isNumber hcolon hnumber]
      split
      · next hfirst => exact .identifier hnumber hfirst
      · next hfirst => exact .unexpected hcolon hnumber hfirst
    · rw [not_or, not_not, Bool.not_eq_true] at hnumber
      rcases hnumber with ⟨rfl, sign, whole, fraction, exponent, h⟩
      by_cases hwhole : fraction = [] ∧ exponent = []
      · rcases hwhole with ⟨rfl, rfl⟩
        have hint : WordIs false (c :: tail) (.int (signedNumber sign whole)) := .int rfl h
        rw [hint.ofWord_eq]
        exact hint
      · have hfloat : WordIs false (c :: tail)
            (.float (Numeral.ofParts sign whole fraction exponent).toBinary64) :=
          .float rfl h (not_and_or.1 hwhole)
        rw [hfloat.ofWord_eq]
        exact hfloat

/-- A word is one thing, and is read as that. -/
theorem wordIs_iff {c : Char} {tail : List Char} {quoted : Bool} {lexeme : Lexeme} :
    WordIs quoted (c :: tail) lexeme ↔ lexeme = Lexeme.ofWord c tail quoted := by
  constructor
  · intro h
    exact h.ofWord_eq.symm
  · rintro rfl
    exact wordIs_ofWord c tail quoted

/-! ## Words in a text -/

/-- A word that is nothing is reported as a character that no word starts with. -/
theorem WordIs.diagnostic? {quoted : Bool} {word : List Char} {fault : Fault}
    (h : WordIs quoted word (.faulty fault)) (offset : Nat) :
    (Token.over offset word (.faulty fault)).diagnostic? =
      some (.error .unexpectedCharacter (.ofLength ⟨offset⟩ ⟨word.length⟩) fault.detail?) := by
  cases h with
  | loneColon => rfl
  | unexpected _ _ _ => rfl

/-- At any place of any text, behind the blanks, and not at a parenthesis or a quote: a step reads
the longest run of characters of words as the one thing that the rule makes of it.  A run that is
nothing is reported once.  A colon in front of a quote is left to the quoted symbol. -/
theorem next_of_word {cursor : Cursor} {c : Char} {rest word behind : List Char}
    (hstart : cursor.skipBlanks.rest = c :: rest) (hc : c ≠ '(' ∧ c ≠ ')' ∧ c ≠ '"')
    (hword : word = (c :: rest).takeWhile isWordChar)
    (hbehind : behind = (c :: rest).dropWhile isWordChar)
    (hquoted : ¬ (word = [':'] ∧ behind.head? = some '"')) :
    ∃ lexeme,
      cursor.next = .token (.over cursor.skipBlanks.offset word lexeme)
        ⟨cursor.skipBlanks.offset + word.length, behind⟩ ∧
      (∀ other, WordIs (behind.head? = some '"') word other ↔ other = lexeme) ∧
      ∀ fault, lexeme = .faulty fault →
        (Token.over cursor.skipBlanks.offset word lexeme).diagnostic? =
          some (.error .unexpectedCharacter
            (.ofLength ⟨cursor.skipBlanks.offset⟩ ⟨word.length⟩) fault.detail?) := by
  rcases Cursor.next_eq_over hstart hc hword hbehind hquoted with ⟨tail, rfl, hnext⟩
  refine ⟨_, hnext, fun other => wordIs_iff, ?_⟩
  intro fault hfault
  have hrule : WordIs (behind.head? = some '"') (c :: tail) (.faulty fault) :=
    wordIs_iff.2 hfault.symm
  rw [hfault]
  exact hrule.diagnostic? cursor.skipBlanks.offset

/-- Digits in groups behind a minus are a whole number, in front of a parenthesis. -/
theorem next_of_word_groups :
    Cursor.next ⟨0, [' ', '-', '1', '_', '2', ')']⟩ =
      .token (.over 1 ['-', '1', '_', '2'] (.int (-12))) ⟨5, [')']⟩ := by
  have hgroups : IsGroups ['1', '_', '2'] := (IsGroups.digit (by decide)).join (by decide)
  have hnumeral : IsNumeral ['-', '1', '_', '2'] ['-'] ['1', '_', '2'] [] [] :=
    ⟨rfl, .inr (.inr rfl), hgroups, .inl rfl, .inl rfl⟩
  have hint : WordIs false ['-', '1', '_', '2'] (.int (-12)) := .int rfl hnumeral
  have hstep := @next_of_word ⟨0, [' ', '-', '1', '_', '2', ')']⟩ '-' ['1', '_', '2', ')']
    ['-', '1', '_', '2'] [')'] rfl (by decide) (by decide) (by decide) (by decide)
  rcases hstep with ⟨lexeme, hnext, hrule, -⟩
  rw [(hrule _).1 hint]
  exact hnext

end RubyTree.Sexp
