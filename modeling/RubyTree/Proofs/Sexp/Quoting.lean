import RubyTree.Sexp.Scanner
import RubyTree.Sexp.Spelling

/-!
# Quoted texts read back

A text between quotes is encoded character by character, apart from the two
characters that start an interpolation.  Scanning undoes the encoding: behind a
backslash never stands the letter of a code point, and only the closing quote is
bare.

Main results:

- `unescape_of_escapeLetter`: an escaped character is the one that was written.
- `scanString_encodeBody`: behind its opening quote an encoded text is scanned as
  the text, up to its closing quote and with it.
- `encode_append_inj`: so the end of a quoted text is known from the text alone.
-/

namespace RubyTree.Sexp

open RubyTree.Text

/-! ## Escapes -/

/-- A letter of the table stands for its character behind a backslash, and is not the one of code
points. -/
theorem unescape_letter {letter c : Char} (h : (letter, c) ∈ escapeTable) :
    unescape letter = c ∧ letter ≠ 'u' := by
  have htable : ∀ entry ∈ escapeTable, unescape entry.1 = entry.2 ∧ entry.1 ≠ 'u' := by decide
  exact htable (letter, c) h

/-- The letter of an escape gives the character back, and is not the one of code points. -/
theorem unescape_of_escapeLetter {c letter : Char} (h : escapeLetter? c = some letter) :
    unescape letter = c ∧ letter ≠ 'u' := by
  unfold escapeLetter? at h
  split at h
  · next hself =>
    cases h
    rcases hself with rfl | rfl <;> decide
  · split at h
    · cases h
    · rcases Option.map_eq_some_iff.1 h with ⟨⟨front, back⟩, hfind, rfl⟩
      obtain rfl : back = c := by simpa using List.find?_some hfind
      exact unescape_letter (List.mem_of_find?_eq_some hfind)

/-- A character without an escape is neither a backslash nor a quote. -/
theorem ne_of_escapeLetter?_eq_none {c : Char} (h : escapeLetter? c = none) :
    c ≠ '\\' ∧ c ≠ '"' := by
  constructor <;> rintro rfl <;> exact absurd h (by decide)

/-! ## Scanning -/

/-- The closing quote ends a string. -/
theorem scanString_quote (rest : List Char) : scanString ('"' :: rest) = .closed [] 1 := by
  rw [scanString]

/-- A character that is neither a quote nor a backslash stands for itself. -/
theorem scanString_plain {c : Char} (hquote : c ≠ '"') (hslash : c ≠ '\\') (rest : List Char) :
    scanString (c :: rest) = (scanString rest).prepend [c] 1 := by
  rw [scanString]
  · exact fun h => hquote h
  · exact fun _ _ h => absurd h hslash

/-- Behind an escape that is read, the string goes on behind what the escape uses. -/
theorem scanString_escape_ok {c : Char} {rest chars : List Char}
    (h : (readEscape c rest).1 = .ok chars) :
    scanString ('\\' :: c :: rest) =
      (scanString (rest.drop (readEscape c rest).2)).prepend chars
        ((readEscape c rest).2 + 2) := by
  rw [scanString, h]

/-- A backslash and a character that is not the letter of code points stand for one character. -/
theorem scanString_escape {c : Char} (h : c ≠ 'u') (rest : List Char) :
    scanString ('\\' :: c :: rest) = (scanString rest).prepend [unescape c] 2 := by
  have hread := readEscape_of_ne h rest
  rw [scanString_escape_ok (by rw [hread]), hread]
  rfl

/-- An encoded character is scanned as the character. -/
theorem scanString_escaped (c : Char) (rest : List Char) :
    scanString (escaped c ++ rest) = (scanString rest).prepend [c] (escaped c).length := by
  unfold escaped
  split
  · next letter hletter =>
    rcases unescape_of_escapeLetter hletter with ⟨hback, hu⟩
    have hscan := scanString_escape hu rest
    rwa [hback] at hscan
  · next hnone =>
    rcases ne_of_escapeLetter?_eq_none hnone with ⟨hslash, hquote⟩
    exact scanString_plain hquote hslash rest

/-- An encoded text is scanned as the text, whatever stands behind its closing quote.  The
induction is on the encoding, which takes the start of an interpolation as a whole. -/
theorem scanString_encodeBody (text rest : List Char) :
    scanString (encodeBody text ++ '"' :: rest) =
      .closed text ((encodeBody text).length + 1) := by
  fun_induction encodeBody text with
  | case1 => exact scanString_quote rest
  | case2 text ih =>
    simp only [List.cons_append]
    rw [scanString_escape (by decide), scanString_plain (by decide) (by decide), ih]
    have hsize : 2 + (1 + ((encodeBody text).length + 1)) =
        (encodeBody text).length + 1 + 1 + 1 + 1 := by omega
    have hplain : unescape '#' = '#' := by decide
    simp [StringScan.prepend, hplain, hsize]
  | case3 c text _ ih =>
    rw [List.append_assoc, scanString_escaped, ih]
    simp only [StringScan.prepend, List.singleton_append, List.length_append, Nat.add_assoc]

/-- A text is cut in one way only into a quoted text and something behind it. -/
theorem encode_append_inj {text other rest more : List Char}
    (h : encode text ++ rest = encode other ++ more) : text = other ∧ rest = more := by
  have hbody : encodeBody text ++ '"' :: rest = encodeBody other ++ '"' :: more := by
    simpa [encode] using h
  have hscan := scanString_encodeBody text rest
  rw [hbody, scanString_encodeBody, StringScan.closed.injEq] at hscan
  obtain rfl : other = text := hscan.1
  exact ⟨rfl, List.append_cancel_left h⟩

end RubyTree.Sexp
