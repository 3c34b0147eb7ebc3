import RubyTree.Text.Quoted

/-!
# Code points

A text is a row of code points.  Most of them are characters; the surrogates are
not, and a text that holds one cannot be encoded.  In a string of characters the
replacement character stands for every surrogate.  A marked string, in which a
character of a private plane stands for it, tells which one it is: the two
strings differ at the surrogates and nowhere else.

Main results:

- `charAt` and `markedCharAt` are the two characters for a code point, and `codeOf`
  is the code point that such a pair stands for (`codeOf_charAt`).
- `encodeCodes` gives the characters of a text, or an `EncodeError` at its first run of
  surrogates.
-/

namespace RubyTree.Text

/-! ## Characters of code points -/

/-- The character at a code point.  Where there is none, as for the surrogates, the replacement
character stands for it. -/
def charAt (code : Nat) : Char :=
  if h : code.isValidChar then Char.ofNatAux code h else '\uFFFD'

/-- The character at the code point of a character. -/
@[simp] theorem charAt_toNat (c : Char) : charAt c.toNat = c := by
  have hvalid : c.toNat.isValidChar := c.valid
  rw [charAt, dif_pos hvalid]
  rfl

/-- The first surrogate. -/
def firstSurrogate : Nat := 0xD800

/-- The last surrogate. -/
def lastSurrogate : Nat := 0xDFFF

/-- The code point is a surrogate: half of a pair that stands for a character elsewhere. -/
def isSurrogate (code : Nat) : Bool :=
  firstSurrogate ≤ code && code ≤ lastSurrogate

/-- The private code point that marks the first surrogate; the others follow in order. -/
def firstMark : Nat := 0xF0000

/-- The character that stands for a code point in a marked string. -/
def markedCharAt (code : Nat) : Char :=
  if isSurrogate code then charAt (firstMark + (code - firstSurrogate)) else charAt code

/-- The code point that two characters stand for, the second one in a marked string. -/
def codeOf (plain marked : Char) : Nat :=
  if plain = marked then plain.toNat else firstSurrogate + (marked.toNat - firstMark)

/-- The code points that two strings stand for, the second one of them marked. -/
def codesOf (plain marked : List Char) : List Nat :=
  List.zipWith codeOf plain marked

theorem isSurrogate_iff {code : Nat} :
    isSurrogate code = true ↔ 0xD800 ≤ code ∧ code ≤ 0xDFFF := by
  rw [isSurrogate, Bool.and_eq_true, decide_eq_true_eq, decide_eq_true_eq, firstSurrogate,
    lastSurrogate]

/-- No character is a surrogate. -/
theorem isSurrogate_toNat (c : Char) : isSurrogate c.toNat = false := by
  have hvalid : c.toNat < 0xD800 ∨ 0xDFFF < c.toNat ∧ c.toNat < 0x110000 := c.valid
  rw [Bool.eq_false_iff, Ne, isSurrogate_iff]
  omega

theorem toNat_charAt {code : Nat} (h : code.isValidChar) : (charAt code).toNat = code := by
  rw [charAt, dif_pos h]
  rfl

/-- The replacement character stands for a surrogate, and a private one in a marked string. -/
theorem charAt_of_isSurrogate {code : Nat} (h : isSurrogate code = true) :
    charAt code = '\uFFFD' ∧
      (markedCharAt code).toNat = firstMark + (code - firstSurrogate) := by
  have hrange := isSurrogate_iff.1 h
  have hnone : ¬ code.isValidChar := by
    rw [Nat.isValidChar]
    omega
  have hprivate : (firstMark + (code - firstSurrogate)).isValidChar := by
    rw [Nat.isValidChar, firstMark, firstSurrogate]
    omega
  rw [charAt, dif_neg hnone, markedCharAt, if_pos h, toNat_charAt hprivate]
  exact ⟨rfl, rfl⟩

/-- The two characters for a code point stand for this one. -/
theorem codeOf_charAt {code : Nat} (h : code < 0x110000) :
    codeOf (charAt code) (markedCharAt code) = code := by
  by_cases hsurrogate : isSurrogate code = true
  · rcases charAt_of_isSurrogate hsurrogate with ⟨hplain, hmarked⟩
    have hrange := isSurrogate_iff.1 hsurrogate
    have hne : charAt code ≠ markedCharAt code := by
      intro heq
      rw [← heq, hplain] at hmarked
      have hreplacement : (0xFFFD : Nat) = firstMark + (code - firstSurrogate) := hmarked
      simp only [firstMark] at hreplacement
      omega
    rw [codeOf, if_neg hne, hmarked]
    simp only [firstMark, firstSurrogate]
    omega
  · have hvalid : code.isValidChar := by
      rw [isSurrogate_iff] at hsurrogate
      rw [Nat.isValidChar]
      omega
    rw [codeOf, markedCharAt, if_neg hsurrogate, if_pos rfl, toNat_charAt hvalid]

/-! ## Encoded texts -/

/-- A run of surrogates in a text that is to be encoded. -/
structure EncodeError where
  /-- The number of code points before the run. -/
  start : Nat
  /-- The first surrogate of the run. -/
  code : Nat
  /-- The number of surrogates behind the first one. -/
  more : Nat
deriving DecidableEq

/-- The text of the error. -/
def EncodeError.message (cause : EncodeError) : String :=
  let place :=
    if cause.more = 0 then
      "character '\\u" ++ String.ofList (hexDigits 4 cause.code) ++ "' in position " ++
        toString cause.start
    else
      "characters in position " ++ toString cause.start ++ "-" ++ toString (cause.start + cause.more)
  "'utf-8' codec can't encode " ++ place ++ ": surrogates not allowed"

/-- The characters of a text.  The first run of surrogates is in error. -/
def encodeCodes (codes : List Nat) : Except EncodeError String :=
  let front := codes.takeWhile fun code => !isSurrogate code
  match (codes.drop front.length).takeWhile isSurrogate with
  | [] => .ok (String.ofList (codes.map charAt))
  | code :: more => .error ⟨front.length, code, more.length⟩

end RubyTree.Text
