import RubyTree.Binary64.Display
import RubyTree.Sexp.Escape
import RubyTree.Tree.Literal

/-!
# Spelling literals

Literals are spelled as Ruby inspects them.  A symbol stands without quotes when
it is a name, with an optional sigil and an optional mark at its end, an index
operator, or a run of operator characters.

Main results:

- `encode` puts a text between double quotes; line breaks never stand inside
  (`newline_not_mem_encode`).
- `isPlainSymbol` says which symbols need no quotes.
- `Literal.spelling` is the spelling of a literal.
-/

namespace RubyTree.Sexp

/-! ## Quoted text -/

/-- The character behind the backslash that a character is written with.  The space has an escape
but is not written with it. -/
def escapeLetter? (c : Char) : Option Char :=
  if c = '\\' ∨ c = '"' then some c
  else if c = ' ' then none
  else (escapeTable.find? (·.2 = c)).map (·.1)

/-- A character as it stands between quotes. -/
def escaped (c : Char) : List Char :=
  match escapeLetter? c with
  | some letter => ['\\', letter]
  | none => [c]

/-- A text as it stands between quotes.  The two characters that would start an interpolation are
kept apart from it by a backslash. -/
def encodeBody : List Char → List Char
  | [] => []
  | '#' :: '\x7b' :: rest => '\\' :: '#' :: '\x7b' :: encodeBody rest
  | c :: rest => escaped c ++ encodeBody rest

/-- A text between double quotes. -/
def encode (text : List Char) : List Char :=
  '"' :: encodeBody text ++ ['"']

/-! ## Symbols without quotes -/

/-- A character that names start with. -/
def startsName (c : Char) : Bool :=
  c.isAlpha || c = '_'

/-- A character that names go on with. -/
def continuesName (c : Char) : Bool :=
  c.isAlphanum || c = '_'

/-- The text without the sigil of a variable. -/
def dropSigil : List Char → List Char
  | '@' :: '@' :: rest => rest
  | '@' :: rest => rest
  | '$' :: rest => rest
  | rest => rest

/-- A name, with at most one mark at its end. -/
def isMarkedName : List Char → Bool
  | [] => false
  | c :: rest =>
    startsName c && [[], ['?'], ['!'], ['=']].contains (rest.dropWhile continuesName)

/-- The characters of operators. -/
def operatorChars : List Char :=
  ['-', '+', '*', '/', '%', '<', '>', '=', '!', '~', '^', '&', '|']

/-- A symbol of this name needs no quotes. -/
def isPlainSymbol (name : List Char) : Bool :=
  isMarkedName (dropSigil name) ||
    name = ['[', ']'] || name = ['[', ']', '='] ||
    (!name.isEmpty && name.all operatorChars.contains)

/-- The spelling of a symbol. -/
def symbolSpelling (name : List Char) : List Char :=
  if isPlainSymbol name then ':' :: name else ':' :: encode name

/-! ## Literals -/

/-- The decimal digits of a whole number, behind a minus if it is negative.  There may be any number
of digits: a limit of the platform on how many it writes (4300 where nothing else is set) is left
out. -/
def intSpelling (n : Int) : List Char :=
  Binary64.sign (n < 0) ++ Nat.toDigits 10 n.natAbs

/-- The spelling of a truth value. -/
def boolSpelling (b : Bool) : List Char :=
  if b then ['t', 'r', 'u', 'e'] else ['f', 'a', 'l', 's', 'e']

end RubyTree.Sexp

namespace RubyTree.Literal

open RubyTree.Sexp

/-- The spelling of a literal. -/
def spelling : Literal → List Char
  | .nil => ['n', 'i', 'l']
  | .bool value => boolSpelling value
  | .int value => intSpelling value
  | .float value => value.display
  | .str value => encode value.toList
  | .sym value => symbolSpelling value.name.toList

end RubyTree.Literal

namespace RubyTree.Sexp

/-! ## Line breaks -/

/-- No escaped character is a line break. -/
theorem newline_not_mem_escaped (c : Char) : '\n' ∉ escaped c := by
  unfold escaped
  split
  · next letter h =>
    unfold escapeLetter? at h
    split at h
    · next hc => cases h; rcases hc with rfl | rfl <;> decide
    · split at h
      · cases h
      · obtain ⟨entry, hmem, rfl⟩ := Option.map_eq_some_iff.1 h
        have := List.mem_of_find?_eq_some hmem
        simp only [escapeTable, List.mem_cons, List.not_mem_nil, or_false] at this
        rcases this with rfl | rfl | rfl | rfl | rfl | rfl | rfl | rfl | rfl | rfl <;> decide
  · next h =>
    simp only [List.mem_singleton]
    rintro rfl
    revert h
    decide

/-- A text between quotes stands on one line. -/
theorem newline_not_mem_encode (text : List Char) : '\n' ∉ encode text := by
  have hbody : '\n' ∉ encodeBody text := by
    fun_induction encodeBody text with
    | case1 => simp
    | case2 rest ih => simp [ih]
    | case3 c rest _ ih => simp [ih, newline_not_mem_escaped]
  simp [encode, hbody]

end RubyTree.Sexp
