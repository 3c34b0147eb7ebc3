import RubyTree.Text.Range

/-!
# Diagnostics

A diagnostic reports one problem at a range of a text.  The problems are a
closed list; each has a code, a text, a category and, for most, a hint.

Main results:

- `Problem` is the list, with `Problem.code` and `Problem.ofCode?`.
- `Diagnostic.message` is the text of the problem followed by the detail.
- `hasErrors` tells whether a report holds an error.
-/

namespace RubyTree

open RubyTree.Text

/-! ## Problems -/

/-- The problems that can be reported. -/
inductive Problem where
  /-- An accessor was asked of a node whose type does not declare it. -/
  | accessorNotSupported
  /-- A node without a parent was asked for its siblings. -/
  | noParent
  /-- A string has no closing quote. -/
  | unterminatedString
  /-- A word is neither a name nor a number. -/
  | unexpectedCharacter
  /-- A node does not start with its type. -/
  | expectedNodeType
  /-- A node is not closed. -/
  | unbalancedParen
  /-- There is more text behind the root. -/
  | expectedSingleRoot
  /-- A word stands where only a child can. -/
  | unexpectedToken
deriving DecidableEq

namespace Problem

/-- Every problem, in order of declaration. -/
def all : List Problem :=
  [.accessorNotSupported, .noParent, .unterminatedString, .unexpectedCharacter,
   .expectedNodeType, .unbalancedParen, .expectedSingleRoot, .unexpectedToken]

/-- The code of a problem. -/
def code : Problem → String
  | .accessorNotSupported => "ACCESSOR_NOT_SUPPORTED"
  | .noParent => "NODE_HAS_NO_PARENT"
  | .unterminatedString => "SEXP_UNTERMINATED_STRING"
  | .unexpectedCharacter => "SEXP_UNEXPECTED_CHARACTER"
  | .expectedNodeType => "SEXP_EXPECTED_NODE_TYPE"
  | .unbalancedParen => "SEXP_UNBALANCED_PAREN"
  | .expectedSingleRoot => "SEXP_EXPECTED_SINGLE_ROOT"
  | .unexpectedToken => "SEXP_UNEXPECTED_TOKEN"

/-- The problem with a code. -/
def ofCode? (code : String) : Option Problem :=
  all.find? (·.code == code)

/-- The text of a problem. -/
def text : Problem → String
  | .accessorNotSupported => "Accessor is not supported for this node type."
  | .noParent => "Node has no parent."
  | .unterminatedString => "Unterminated string literal."
  | .unexpectedCharacter => "Unexpected character."
  | .expectedNodeType => "Expected a node type after `(`."
  | .unbalancedParen => "Unbalanced parenthesis."
  | .expectedSingleRoot => "Expected exactly one root node."
  | .unexpectedToken => "Unexpected token."

/-- What to do about a problem. -/
def hint? : Problem → Option String
  | .accessorNotSupported => some "Check the node type before asking for a slot it does not declare."
  | .noParent => some "Siblings are only defined for nodes attached to a parent."
  | .unterminatedString => some "Close the string with a double quote."
  | .unexpectedCharacter => none
  | .expectedNodeType => some "Write nodes as `(type child ...)`, e.g. `(int 1)`."
  | .unbalancedParen => none
  | .expectedSingleRoot => none
  | .unexpectedToken =>
    some "Children are nodes or literals: nil, true, false, :sym, \"str\", 1, 1.5."

/-- The area that a problem belongs to. -/
def category : Problem → String
  | .accessorNotSupported => "accessor"
  | .noParent => "node"
  | _ => "sexp"

end Problem

/-! ## Diagnostics -/

/-- How grave a diagnostic is, by a name.  Only one name means that the text cannot be used. -/
structure Severity where
  /-- The name. -/
  name : String
deriving DecidableEq

/-- The severity of a problem that makes a text useless. -/
def Severity.error : Severity :=
  ⟨"error"⟩

/-- A report of one problem at one place. -/
structure Diagnostic where
  /-- What the matter is. -/
  problem : Problem
  /-- What the text of the problem does not say. -/
  detail : Option String
  /-- Where it is. -/
  range : Range
  /-- How grave it is. -/
  severity : Severity
deriving DecidableEq

namespace Diagnostic

/-- An error at a place. -/
def error (problem : Problem) (range : Range) (detail : Option String) : Diagnostic :=
  ⟨problem, detail, range, .error⟩

/-- The code of the problem. -/
def code (d : Diagnostic) : String :=
  d.problem.code

/-- The text of the problem, and the detail behind a space. -/
def message (d : Diagnostic) : String :=
  match d.detail with
  | none => d.problem.text
  | some detail => d.problem.text ++ " " ++ detail

/-- The diagnostic on one line: its code, its place and its message. -/
def summary (d : Diagnostic) : String :=
  d.code ++ " at " ++ toString d.range.start ++ ".." ++ toString d.range.stop ++ ": " ++ d.message

end Diagnostic

/-- One of the diagnostics is an error. -/
def hasErrors (report : List Diagnostic) : Bool :=
  report.any (·.severity = .error)

end RubyTree
