import RubyTree.Text.Printable

/-!
# Quoted text in messages

A message shows a text between quotes, on one line, and with printable
characters only.  Apostrophes are the quotes unless the text holds an
apostrophe and no double quote.

Main results:

- `quoted` is the shown form; `shown` is the form of one character.
-/

namespace RubyTree.Text

/-- The apostrophe. -/
def apostrophe : Char := '\x27'

/-- The quotes around a text: double quotes only where they save an escape. -/
def quoteMark (text : List Char) : Char :=
  if apostrophe ∈ text ∧ '"' ∉ text then '"' else apostrophe

/-- A code point in at least `width` digits of base sixteen. -/
def hexDigits (width code : Nat) : List Char :=
  let digits := Nat.toDigits 16 code
  List.replicate (width - digits.length) '0' ++ digits

/-- The shown form of a character: itself, an escape by letter, or its number. -/
def shown (mark c : Char) : List Char :=
  if c = mark ∨ c = '\\' then ['\\', c]
  else if c = '\n' then ['\\', 'n']
  else if c = '\r' then ['\\', 'r']
  else if c = '\t' then ['\\', 't']
  else if isPrintable c then [c]
  else if c.toNat < 0x100 then '\\' :: 'x' :: hexDigits 2 c.toNat
  else if c.toNat < 0x10000 then '\\' :: 'u' :: hexDigits 4 c.toNat
  else '\\' :: 'U' :: hexDigits 8 c.toNat

/-- The shown form of a text. -/
def quoted (text : List Char) : List Char :=
  let mark := quoteMark text
  mark :: text.flatMap (shown mark) ++ [mark]

/-- The shown form of a string. -/
def quotedString (text : String) : String :=
  String.ofList (quoted text.toList)

end RubyTree.Text
