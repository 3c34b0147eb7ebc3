import RubyTree.Proofs.Text.Numerals
import RubyTree.Proofs.Text.Runs
import RubyTree.Sexp.Scanner
import RubyTree.Sexp.Spelling

/-!
# Words

What a word is follows from its first character and from whether it is a numeral
from end to end.  Every visible ASCII character apart from parentheses and double
quotes can stand in a word, so numerals and plain symbols are words.

Main results:

- `digitValue?_of_isLetter`: letters are no digits of any script, so a word that
  starts with a letter is a name (`ofWord_name`).
- `ofWord_numeral`: a numeral is a number.
- `writesSymbols` are the characters that symbols without quotes consist of
  (`writesSymbols_of_plainSymbol`), and so these symbols are words.
-/

namespace RubyTree.Sexp

open RubyTree.Text

/-! ## Characters of words -/

/-- Visible ASCII characters but parentheses and quotes can stand in a word. -/
theorem isWordChar_of_visible {c : Char} (hlow : 0x21 ≤ c.toNat) (hhigh : c.toNat ≤ 0x7E)
    (h : c ∉ ['(', ')', '"']) : isWordChar c = true := by
  have htable : ∀ interval ∈ blanks, interval.last < 0x21 ∨ 0x7E < interval.first := by decide
  have hblank : ¬ isBlank c = true := by
    intro hcovers
    rcases covers_iff.1 hcovers with ⟨interval, hmem, hfirst, hlast⟩
    have := htable interval hmem
    omega
  simp only [List.mem_cons, List.not_mem_nil, or_false, not_or] at h
  simp [isWordChar, hblank, h]

/-- The code points of ASCII letters and digits. -/
theorem toNat_of_isAlphanum {c : Char} (h : c.isAlphanum = true) :
    (0x41 ≤ c.toNat ∧ c.toNat ≤ 0x5A) ∨ (0x61 ≤ c.toNat ∧ c.toNat ≤ 0x7A) ∨
      (0x30 ≤ c.toNat ∧ c.toNat ≤ 0x39) := by
  rcases Bool.or_eq_true_iff.1 h with halpha | hdigit
  · rcases Bool.or_eq_true_iff.1 halpha with hupper | hlower
    · exact .inl (of_decide_eq_true hupper)
    · have hboth : (decide (c.val ≥ 'a'.val) && decide (c.val ≤ 'z'.val)) = true := hlower
      rcases Bool.and_eq_true_iff.1 hboth with ⟨hlow, hhigh⟩
      exact .inr (.inl ⟨of_decide_eq_true hlow, of_decide_eq_true hhigh⟩)
  · have hboth : (decide (c.val ≥ '0'.val) && decide (c.val ≤ '9'.val)) = true := hdigit
    rcases Bool.and_eq_true_iff.1 hboth with ⟨hlow, hhigh⟩
    exact .inr (.inr ⟨of_decide_eq_true hlow, of_decide_eq_true hhigh⟩)

/-- ASCII letters and digits can stand in a word. -/
theorem isWordChar_of_isAlphanum {c : Char} (h : c.isAlphanum = true) : isWordChar c = true := by
  have hrange := toNat_of_isAlphanum h
  apply isWordChar_of_visible (by omega) (by omega)
  intro hmem
  have hcode : c.toNat ∈ ['(', ')', '"'].map Char.toNat := List.mem_map_of_mem hmem
  simp only [List.map_cons, List.map_nil, List.mem_cons, List.not_mem_nil, or_false] at hcode
  revert hcode
  simp only [show '('.toNat = 0x28 from rfl, show ')'.toNat = 0x29 from rfl,
    show '"'.toNat = 0x22 from rfl]
  omega

/-- Written numerals are words, and start with no colon. -/
theorem isWordChar_of_writesNumerals {c : Char} (h : writesNumerals c = true) :
    isWordChar c = true ∧ c ≠ ':' := by
  rcases Bool.or_eq_true_iff.1 h with hdigit | hmark
  · refine ⟨isWordChar_of_isAlphanum (Bool.or_eq_true_iff.2 (.inr hdigit)), ?_⟩
    · rintro rfl
      exact absurd hdigit (by decide)
  · have hmarks : (['-', '+', '.', 'e'].all fun d => isWordChar d && d != ':') = true := by decide
    simpa using List.all_eq_true.1 hmarks c (by simpa using hmark)

/-! ## Letters -/

/-- A letter is no decimal digit. -/
theorem digitValue?_of_isLetter {c : Char} (h : isLetter c = true) : digitValue? c = none := by
  rcases covers_iff.1 h with ⟨interval, hinterval, hfirst, hlast⟩
  have htables : (letters.all fun interval => zeros.all fun z =>
      Nat.blt interval.last z || Nat.ble (z + 10) interval.first) = true := by decide +kernel
  rw [digitValue?, Option.map_eq_none_iff, List.find?_eq_none]
  intro z hz hholds
  have hdisjoint := List.all_eq_true.1 (List.all_eq_true.1 htables interval hinterval) z hz
  rw [Bool.or_eq_true, Nat.blt_eq, Nat.ble_eq] at hdisjoint
  simp only [Bool.and_eq_true, decide_eq_true_eq] at hholds
  omega

/-- The underscore and the marks that start other words are no letters. -/
theorem not_isLetter_mark {c : Char} (h : c ∈ ['_', ':', '+', '-']) : isLetter c = false := by
  have hmarks : (['_', ':', '+', '-'].all fun c => !isLetter c) = true := by decide +kernel
  simpa using List.all_eq_true.1 hmarks c h

/-- Digits and signs are all that a numeral starts with. -/
theorem ofWord?_eq_none {c : Char} (hsign : c ≠ '+' ∧ c ≠ '-') (hdigit : digitValue? c = none)
    (tail : List Char) : Numeral.ofWord? (c :: tail) = none := by
  have htake : takeSign (c :: tail) = (false, c :: tail) := by
    unfold takeSign
    split
    · next h => exact absurd (List.cons.inj h).1 hsign.1
    · next h => exact absurd (List.cons.inj h).1 hsign.2
    · rfl
  simp only [Numeral.ofWord?, htake, takeGroups, hdigit]

/-! ## What words are -/

/-- A word that starts with a letter or an underscore is a name. -/
theorem ofWord_name {c : Char} (h : isLetter c = true ∨ c = '_') (tail : List Char) :
    Lexeme.ofWord c tail false = .identifier (String.ofList (c :: tail)) := by
  have hmarks : c ≠ ':' ∧ c ≠ '+' ∧ c ≠ '-' ∧ digitValue? c = none := by
    rcases h with hletter | rfl
    · have hne : ∀ d ∈ ['_', ':', '+', '-'], c ≠ d := by
        rintro d hd rfl
        rw [not_isLetter_mark hd] at hletter
        cases hletter
      exact ⟨hne _ (by simp), hne _ (by simp), hne _ (by simp), digitValue?_of_isLetter hletter⟩
    · decide
  rcases hmarks with ⟨hcolon, hplus, hminus, hdigit⟩
  simp only [Lexeme.ofWord, if_neg hcolon, ofWord?_eq_none ⟨hplus, hminus⟩ hdigit, if_pos h]

/-- A colon and a name without quotes are a symbol. -/
theorem ofWord_symbol {name : List Char} (h : name ≠ []) :
    Lexeme.ofWord ':' name false = .symbol ⟨String.ofList name⟩ := by
  simp [Lexeme.ofWord, h]

/-- A numeral is a number: a whole one, or one with a fraction or an exponent. -/
theorem ofWord_numeral {c : Char} {tail : List Char} {numeral : Numeral} (hcolon : c ≠ ':')
    (h : Numeral.ofWord? (c :: tail) = some numeral) :
    Lexeme.ofWord c tail false =
      if numeral.isWhole then .int numeral.toInt else .float numeral.toBinary64 := by
  simp [Lexeme.ofWord, hcolon, h]

/-! ## Plain symbols -/

/-- The characters besides letters and digits that symbols without quotes are written with. -/
def symbolMarks : List Char :=
  ['_', '@', '$', '?', '!', '=', '[', ']'] ++ operatorChars

/-- A character that symbols without quotes are written with. -/
def writesSymbols (c : Char) : Bool :=
  c.isAlphanum || symbolMarks.contains c

/-- The characters of symbols without quotes can stand in a word. -/
theorem isWordChar_of_writesSymbols {c : Char} (h : writesSymbols c = true) :
    isWordChar c = true := by
  rcases Bool.or_eq_true_iff.1 h with halnum | hmark
  · exact isWordChar_of_isAlphanum halnum
  · have hmarks : symbolMarks.all isWordChar = true := by decide
    exact List.all_eq_true.1 hmarks c (by simpa using hmark)

/-- Names go on with characters of symbols. -/
theorem writesSymbols_of_continuesName {c : Char} (h : continuesName c = true) :
    writesSymbols c = true := by
  rcases Bool.or_eq_true_iff.1 h with halnum | hline
  · exact Bool.or_eq_true_iff.2 (.inl halnum)
  · obtain rfl := of_decide_eq_true hline
    decide

/-- A name with a mark is not empty and consists of characters of symbols. -/
theorem writesSymbols_of_isMarkedName {name : List Char} (h : isMarkedName name = true) :
    name ≠ [] ∧ ∀ c ∈ name, writesSymbols c = true := by
  cases name with
  | nil => cases h
  | cons c rest =>
    rcases Bool.and_eq_true_iff.1 h with ⟨hfirst, hmark⟩
    have hc : continuesName c = true := by
      rcases Bool.or_eq_true_iff.1 hfirst with halpha | hline
      · exact Bool.or_eq_true_iff.2 (.inl (Bool.or_eq_true_iff.2 (.inl halpha)))
      · exact Bool.or_eq_true_iff.2 (.inr hline)
    have hmarks : ([[], ['?'], ['!'], ['=']].all fun mark => mark.all writesSymbols) = true := by
      decide
    refine ⟨List.cons_ne_nil c rest,
      List.forall_mem_cons.2 ⟨writesSymbols_of_continuesName hc, ?_⟩⟩
    rw [← List.takeWhile_append_dropWhile (p := continuesName) (l := rest)]
    exact List.forall_mem_append.2
      ⟨fun d hd => writesSymbols_of_continuesName (List.mem_takeWhile_imp hd),
        List.all_eq_true.1 (List.all_eq_true.1 hmarks _ (by simpa using hmark))⟩

/-- A sigil is written with characters of symbols. -/
theorem writesSymbols_of_dropSigil {name : List Char}
    (h : dropSigil name ≠ [] ∧ ∀ c ∈ dropSigil name, writesSymbols c = true) :
    name ≠ [] ∧ ∀ c ∈ name, writesSymbols c = true := by
  have hsigil : writesSymbols '@' = true ∧ writesSymbols '$' = true := by decide
  unfold dropSigil at h
  split at h
  · exact ⟨List.cons_ne_nil _ _, List.forall_mem_cons.2
      ⟨hsigil.1, List.forall_mem_cons.2 ⟨hsigil.1, h.2⟩⟩⟩
  · exact ⟨List.cons_ne_nil _ _, List.forall_mem_cons.2 ⟨hsigil.1, h.2⟩⟩
  · exact ⟨List.cons_ne_nil _ _, List.forall_mem_cons.2 ⟨hsigil.2, h.2⟩⟩
  · exact h

/-- A symbol that needs no quotes is not empty and consists of characters of symbols. -/
theorem writesSymbols_of_plainSymbol {name : List Char} (h : isPlainSymbol name = true) :
    name ≠ [] ∧ ∀ c ∈ name, writesSymbols c = true := by
  simp only [isPlainSymbol, Bool.or_eq_true, Bool.and_eq_true, decide_eq_true_eq] at h
  rcases h with ((hname | rfl) | rfl) | ⟨hne, hoperator⟩
  · exact writesSymbols_of_dropSigil (writesSymbols_of_isMarkedName hname)
  · exact ⟨List.cons_ne_nil _ _, List.all_eq_true.1 (by decide)⟩
  · exact ⟨List.cons_ne_nil _ _, List.all_eq_true.1 (by decide)⟩
  · have hoperators : operatorChars.all writesSymbols = true := by decide
    refine ⟨by simpa using hne, fun c hc => List.all_eq_true.1 hoperators c ?_⟩
    simpa using List.all_eq_true.1 hoperator c hc

/-- A symbol that needs no quotes is not empty and is a word. -/
theorem isWordChar_of_plainSymbol {name : List Char} (h : isPlainSymbol name = true) :
    name ≠ [] ∧ ∀ c ∈ name, isWordChar c = true := by
  rcases writesSymbols_of_plainSymbol h with ⟨hne, hname⟩
  exact ⟨hne, fun c hc => isWordChar_of_writesSymbols (hname c hc)⟩

end RubyTree.Sexp
