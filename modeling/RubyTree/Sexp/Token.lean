import RubyTree.Diagnostic
import RubyTree.Text.Quoted
import RubyTree.Tree.Literal

/-!
# Tokens

A token is a lexeme together with the range and the text that it was read from.
A stretch of text that is no lexeme is a token as well; it carries its fault, and
the diagnostic that reports it follows from the fault and the range.

Main results:

- `Lexeme` lists what a token can be, `Lexeme.literal?` is its value.
- `Token.diagnostic?` is the report of a faulty token.
-/

namespace RubyTree.Sexp

open RubyTree.Text

/-! ## Lexemes -/

/-- What is wrong with a stretch of text that is no lexeme. -/
inductive Fault where
  /-- A string without a closing quote. -/
  | unterminatedString
  /-- A word that starts with a character that no word may start with. -/
  | unexpectedCharacter (c : Char)
  /-- A colon without a name. -/
  | loneColon
deriving DecidableEq

namespace Fault

/-- The problem behind a fault. -/
def problem : Fault → Problem
  | .unterminatedString => .unterminatedString
  | .unexpectedCharacter _ => .unexpectedCharacter
  | .loneColon => .unexpectedCharacter

/-- What the text of the problem does not say. -/
def detail? : Fault → Option String
  | .unterminatedString => none
  | .unexpectedCharacter c => some (String.ofList (quoted [c]))
  | .loneColon => some "':' must start a symbol"

end Fault

/-- What a token is. -/
inductive Lexeme where
  /-- An opening parenthesis. -/
  | opening
  /-- A closing parenthesis. -/
  | closing
  /-- A name: a node type or a keyword.  It is the text of the token. -/
  | identifier (name : String)
  /-- A symbol. -/
  | symbol (value : Symbol)
  /-- A string. -/
  | string (value : String)
  /-- A whole number. -/
  | int (value : Int)
  /-- A number with a fraction or an exponent. -/
  | float (value : Binary64)
  /-- No lexeme. -/
  | faulty (fault : Fault)
deriving DecidableEq

/-- The literal that a lexeme writes, if it writes one. -/
def Lexeme.literal? : Lexeme → Option Literal
  | .symbol value => some (.sym value)
  | .string value => some (.str value)
  | .int value => some (.int value)
  | .float value => some (.float value)
  | _ => none

/-! ## Tokens -/

/-- A lexeme at its place in a text. -/
structure Token where
  /-- What the token is. -/
  lexeme : Lexeme
  /-- Where it stands. -/
  range : Range
  /-- The text that it was read from. -/
  text : String
deriving DecidableEq

/-- The token of a lexeme that is read from the stretch at the offset. -/
def Token.over (offset : Nat) (stretch : List Char) (lexeme : Lexeme) : Token :=
  ⟨lexeme, .ofLength ⟨offset⟩ ⟨stretch.length⟩, String.ofList stretch⟩

/-- The report of a faulty token. -/
def Token.diagnostic? (token : Token) : Option Diagnostic :=
  match token.lexeme with
  | .faulty fault => some (.error fault.problem token.range fault.detail?)
  | _ => none

/-- The tokens of a text and the size of the text, where the tokens end. -/
structure Tokens where
  /-- The tokens, in order. -/
  toList : List Token
  /-- The offset of the end. -/
  size : Nat

namespace Tokens

/-- The reports of the faulty tokens, in order. -/
def diagnostics (tokens : Tokens) : List Diagnostic :=
  tokens.toList.filterMap Token.diagnostic?

end Tokens

end RubyTree.Sexp
