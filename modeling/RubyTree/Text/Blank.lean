import RubyTree.Text.Interval

/-!
# Blank characters

Blanks separate tokens: the spaces, line ends and separators of Unicode
together with the information separators U+001C to U+001F.  The zero-width
space U+200B and the byte order mark U+FEFF are not among them.

Main results:

- `isBlank` decides the property and agrees with the ASCII blanks of the core
  library (`isBlank_of_isWhitespace`).
- `words` cuts a text at its blanks.
-/

namespace RubyTree.Text

/-! ## The table -/

/-- The code points of the blank characters. -/
def blanks : List Interval :=
  [⟨0x09, 0x0D⟩, ⟨0x1C, 0x20⟩, ⟨0x85, 0x85⟩, ⟨0xA0, 0xA0⟩, ⟨0x1680, 0x1680⟩,
   ⟨0x2000, 0x200A⟩, ⟨0x2028, 0x2029⟩, ⟨0x202F, 0x202F⟩, ⟨0x205F, 0x205F⟩,
   ⟨0x3000, 0x3000⟩]

/-- The character separates words. -/
def isBlank (c : Char) : Bool :=
  covers blanks c

/-- Every blank of the core library is a blank. -/
theorem isBlank_of_isWhitespace {c : Char} (h : c.isWhitespace = true) : isBlank c = true := by
  simp only [Char.isWhitespace, Bool.or_eq_true, decide_eq_true_eq] at h
  rcases h with ((h | h) | h) | h <;> subst h <;> decide

/-! ## Splitting -/

/-- The longest stretches without a blank, in order. -/
def words (text : List Char) : List (List Char) :=
  go text []
where
  /-- Reads on with the current word in reverse. -/
  go : List Char → List Char → List (List Char)
    | [], [] => []
    | [], word => [word.reverse]
    | c :: rest, word =>
      if isBlank c then
        if word.isEmpty then go rest [] else word.reverse :: go rest []
      else
        go rest (c :: word)

end RubyTree.Text
