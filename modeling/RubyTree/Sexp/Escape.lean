import RubyTree.Text.CodePoint
import RubyTree.Text.Numeral

/-!
# Escapes in strings

Behind a backslash stands a letter of the escape table, the letter `u` with code
points in base sixteen, or a character that stands for itself.  Code points are
four digits, or any number of words in braces.

Main results:

- `escapeTable` relates letters and characters, for reading and for writing.
- `escapeCodes` reads the code points that stand behind a backslash, and
  `readEscape` their characters; no more is used than is there (`readEscape_le`).
- `codePoint` reads one word in braces; `EscapeError` says why it may fail.
-/

namespace RubyTree.Sexp

open RubyTree.Text

/-! ## The escape table -/

/-- Letters and the characters that they stand for behind a backslash. -/
def escapeTable : List (Char × Char) :=
  [('n', '\n'), ('t', '\t'), ('r', '\r'), ('s', ' '), ('e', '\x1b'), ('0', '\x00'),
   ('a', '\x07'), ('b', '\x08'), ('f', '\x0c'), ('v', '\x0b')]

/-- The character that an escaped character stands for. -/
def unescape (c : Char) : Char :=
  (escapeTable.lookup c).getD c

/-! ## Code points in base sixteen -/

/-- Why a word in braces is no code point. -/
inductive EscapeError where
  /-- The word is no number in base sixteen. -/
  | notHexadecimal (word : String)
  /-- The number is below zero or above the last code point. -/
  | outOfRange
  /-- The number does not fit into 32 bits with a sign. -/
  | tooLarge
deriving DecidableEq

/-- The text of the error.  The word is shown in 200 characters at most. -/
def EscapeError.message : EscapeError → String
  | .notHexadecimal word =>
    "invalid literal for int() with base 16: " ++ String.ofList ((quoted word.toList).take 200)
  | .outOfRange => "chr() arg not in range(0x110000)"
  | .tooLarge => "Python int too large to convert to C int"

/-- The number with the given digits in base sixteen. -/
def ofHexDigits (digits : List Nat) : Nat :=
  digits.foldl (fun n d => 16 * n + d) 0

/-- The digits of base sixteen behind a first one, with single underscores between them. -/
def hexRest : List Char → Option (List Nat)
  | [] => some []
  | '_' :: c :: rest =>
    match hexValue? c with
    | some d => (hexRest rest).map (d :: ·)
    | none => none
  | c :: rest =>
    match hexValue? c with
    | some d => (hexRest rest).map (d :: ·)
    | none => none

/-- One or more digits of base sixteen, with single underscores between them. -/
def hexDigitsOf : List Char → Option (List Nat)
  | [] => none
  | c :: rest =>
    match hexValue? c with
    | some d => (hexRest rest).map (d :: ·)
    | none => none

/-- The text without the mark of base sixteen, a zero and an `x`, and one underscore behind it. -/
def dropHexMark : List Char → List Char
  | zero :: x :: rest =>
    if digitValue? zero = some 0 ∧ (x = 'x' ∨ x = 'X') then
      match rest with
      | '_' :: digits => digits
      | digits => digits
    else zero :: x :: rest
  | text => text

/-- The whole number that a word is in base sixteen. -/
def hexNumber? (word : List Char) : Option Int :=
  let (negative, unsigned) := takeSign word
  (hexDigitsOf (dropHexMark unsigned)).map fun digits => signed negative (ofHexDigits digits)

/-- The code point that a word in braces gives. -/
def codePoint (word : List Char) : Except EscapeError Nat :=
  match hexNumber? word with
  | none => .error (.notHexadecimal (String.ofList word))
  | some n =>
    if n < -0x80000000 ∨ 0x80000000 ≤ n then .error .tooLarge
    else if n < 0 ∨ 0x10FFFF < n then .error .outOfRange
    else .ok n.toNat

/-! ## Reading behind the backslash -/

/-- A digit of base sixteen in ASCII. -/
def isHexDigit (c : Char) : Bool :=
  c.isDigit || ('a' ≤ c && c ≤ 'f') || ('A' ≤ c && c ≤ 'F')

/-- The code points that the words in braces give, or the first error. -/
def codePoints : List (List Char) → Except EscapeError (List Nat)
  | [] => .ok []
  | word :: rest =>
    match codePoint word with
    | .error cause => .error cause
    | .ok code =>
      match codePoints rest with
      | .error cause => .error cause
      | .ok codes => .ok (code :: codes)

/-- Reads the code points behind the letter `u`, and counts the characters that were used, also
where they are in error.  Where neither form of code points follows, the letter stands for
itself. -/
def readUnicode (text : List Char) : Except EscapeError (List Nat) × Nat :=
  match text with
  | '\x7b' :: rest =>
    let inside := rest.takeWhile (· ≠ '\x7d')
    if (rest.drop inside.length).isEmpty then (.ok ['u'.toNat], 0)
    else (codePoints (words inside), inside.length + 2)
  | a :: b :: c :: d :: _ =>
    if [a, b, c, d].all isHexDigit then
      (.ok [ofHexDigits ([a, b, c, d].filterMap hexValue?)], 4)
    else (.ok ['u'.toNat], 0)
  | _ => (.ok ['u'.toNat], 0)

/-- Reads the character `c` behind a backslash and what belongs to it: the code points that they
stand for, and the number of characters that were used behind `c`. -/
def escapeCodes (c : Char) (rest : List Char) : Except EscapeError (List Nat) × Nat :=
  if c = 'u' then readUnicode rest else (.ok [(unescape c).toNat], 0)

/-- Reads the character `c` behind a backslash and what belongs to it: the characters that they
stand for, and the number of characters that were used behind `c`. -/
def readEscape (c : Char) (rest : List Char) : Except EscapeError (List Char) × Nat :=
  ((escapeCodes c rest).1.map (List.map charAt), (escapeCodes c rest).2)

/-- Characters that are given by their code points are read. -/
theorem readEscape_of_codes {c : Char} {rest chars : List Char} {used : Nat}
    (h : escapeCodes c rest = (.ok (chars.map Char.toNat), used)) :
    readEscape c rest = (.ok chars, used) := by
  have hback : (chars.map Char.toNat).map charAt = chars := by
    rw [List.map_map]
    exact List.map_id'' charAt_toNat chars
  rw [readEscape, h]
  simp only [Except.map, hback]

/-- A character that is not the letter of code points stands for one character. -/
theorem readEscape_of_ne {c : Char} (h : c ≠ 'u') (rest : List Char) :
    readEscape c rest = (.ok [unescape c], 0) :=
  readEscape_of_codes (if_neg h)

/-- No more is used behind the letter `u` than there is. -/
theorem readUnicode_le (text : List Char) : (readUnicode text).2 ≤ text.length := by
  unfold readUnicode
  split
  · next rest =>
    simp only
    split
    · exact Nat.zero_le _
    · next h =>
      rw [List.isEmpty_iff, List.drop_eq_nil_iff] at h
      simp only [List.length_cons]
      omega
  · split
    · simp only [List.length_cons]
      omega
    · exact Nat.zero_le _
  · exact Nat.zero_le _

/-- No more is used behind a backslash than there is. -/
theorem readEscape_le (c : Char) (rest : List Char) : (readEscape c rest).2 ≤ rest.length := by
  rw [readEscape, escapeCodes]
  split
  · exact readUnicode_le rest
  · exact Nat.zero_le _

end RubyTree.Sexp
