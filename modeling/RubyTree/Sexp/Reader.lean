import RubyTree.Sexp.Scanner
import RubyTree.Tree.Node

/-!
# Reading node trees

A node is written as its type and its children between parentheses.  The reader
keeps the nodes that are open on a stack of frames, innermost on top.  It reports
every problem and goes on: a node without a type reads as an absent child, a
word that is no child is dropped, and at the end of the text every open node is
closed.

Main results:

- `readItems` reads to the parenthesis that closes the lowest frame.
- `readNode` and `readRoot` start it, and `Node.ofText` reads a whole text.
- `Reading.diagnostics` are in the order in which the problems are met.
-/

namespace RubyTree.Sexp

open RubyTree.Text

/-! ## Words -/

/-- The literals that are written as words.  A word is told by the name of its identifier, which is
the text of the token that was scanned. -/
def keyword? (word : String) : Option Literal :=
  match word with
  | "nil" => some .nil
  | "true" => some (.bool true)
  | "false" => some (.bool false)
  | _ => none

/-- The node type that a word names: dashes stand for underscores. -/
def typeNamed (word : String) : NodeType :=
  .ofName (String.ofList (word.toList.map fun c => if c = '-' then '_' else c))

/-! ## Places -/

/-- The empty range at the end of a text. -/
def endRange (size : Nat) : Range :=
  ⟨size, size, Nat.le_refl size⟩

/-- The range of the first token, or the end of the text. -/
def firstRange (size : Nat) : List Token → Range
  | [] => endRange size
  | token :: _ => token.range

/-! ## Open nodes -/

/-- A node that is not closed yet. -/
structure Frame where
  /-- Where the node was opened. -/
  opening : Range
  /-- The type, if there is one. -/
  type : Option NodeType
  /-- The children so far, the last one first. -/
  reversed : List (Value Unit)

namespace Frame

/-- The frame with one more child. -/
def add (frame : Frame) (child : Value Unit) : Frame :=
  ⟨frame.opening, frame.type, child :: frame.reversed⟩

/-- The finished node; there is none without a type. -/
def close (frame : Frame) : Option (Node Unit) :=
  frame.type.map fun type => ⟨(), type, frame.reversed.reverse⟩

/-- The report of a frame that is open at the end of the text. -/
def unclosed (frame : Frame) : Diagnostic :=
  .error .unbalancedParen frame.opening (some "Missing `)`.")

/-- Closes a frame and all frames around it. -/
def closeAll (frame : Frame) : List Frame → Option (Node Unit)
  | [] => frame.close
  | parent :: outer => (parent.add (.ofNode? frame.close)).closeAll outer

end Frame

/-- The outcome of reading the type of a node. -/
structure Header where
  /-- The node, open and without children. -/
  frame : Frame
  /-- What is left to read. -/
  rest : List Token
  /-- The report of a missing type. -/
  diagnostics : List Diagnostic

/-- Reads the type of a node behind its parenthesis.  A token that is no name stays. -/
def Header.read (size : Nat) (opening : Range) (tokens : List Token) : Header :=
  match tokens with
  | [] => ⟨⟨opening, none, []⟩, [], [.error .expectedNodeType (endRange size) none]⟩
  | token :: rest =>
    match token.lexeme with
    | .identifier name => ⟨⟨opening, some (typeNamed name), []⟩, rest, []⟩
    | _ => ⟨⟨opening, none, []⟩, token :: rest, [.error .expectedNodeType token.range none]⟩

/-- Reading a type leaves no more tokens. -/
theorem Header.length_read_le (size : Nat) (opening : Range) (tokens : List Token) :
    (Header.read size opening tokens).rest.length ≤ tokens.length := by
  unfold Header.read
  split
  · exact Nat.le_refl _
  · split
    · simp
    · exact Nat.le_refl _

/-! ## Nodes -/

/-- The outcome of reading a node. -/
structure Reading where
  /-- The node; there is none without a type. -/
  node : Option (Node Unit)
  /-- What is left to read. -/
  rest : List Token
  /-- The problems, in the order in which they were met. -/
  diagnostics : List Diagnostic

namespace Reading

/-- The outcome with problems that were met before. -/
def after (diagnostics : List Diagnostic) (reading : Reading) : Reading :=
  ⟨reading.node, reading.rest, diagnostics ++ reading.diagnostics⟩

end Reading

/-- Reads children and the closing parenthesis of the innermost frame, and goes on until the
lowest frame is closed.  A keyword is told by the name of an identifier, and a report shows the text
of the token; scanning makes them the same. -/
def readItems (size : Nat) (frame : Frame) (outer : List Frame) : List Token → Reading
  | [] => ⟨frame.closeAll outer, [], (frame :: outer).map Frame.unclosed⟩
  | token :: rest =>
    match token.lexeme with
    | .closing =>
      match outer with
      | [] => ⟨frame.close, rest, []⟩
      | parent :: outer => readItems size (parent.add (.ofNode? frame.close)) outer rest
    | .opening =>
      let header := Header.read size token.range rest
      (readItems size header.frame (frame :: outer) header.rest).after header.diagnostics
    | .identifier name =>
      match keyword? name with
      | some literal => readItems size (frame.add (.lit literal)) outer rest
      | none =>
        (readItems size frame outer rest).after
          [.error .unexpectedToken token.range (some (quotedString token.text))]
    | .symbol value => readItems size (frame.add (.lit (.sym value))) outer rest
    | .string value => readItems size (frame.add (.lit (.str value))) outer rest
    | .int value => readItems size (frame.add (.lit (.int value))) outer rest
    | .float value => readItems size (frame.add (.lit (.float value))) outer rest
    | .faulty _ => readItems size frame outer rest
termination_by tokens => tokens.length
decreasing_by
  · simp
  · exact Nat.lt_succ_of_le (Header.length_read_le size token.range rest)
  all_goals simp

/-- Reads a node; the first token is taken for its opening parenthesis. -/
def readNode (size : Nat) (tokens : List Token) : Reading :=
  let header := Header.read size (firstRange size tokens) tokens.tail
  (readItems size header.frame [] header.rest).after header.diagnostics

/-- Reads the only node of a text.  Nothing is read where no parenthesis opens it. -/
def readRoot (size : Nat) (tokens : List Token) : Reading :=
  if tokens.head?.map Token.lexeme = some .opening then
    let reading := readNode size tokens
    match reading.rest with
    | [] => reading
    | extra :: _ =>
      ⟨reading.node, reading.rest,
        reading.diagnostics ++ [.error .expectedSingleRoot extra.range none]⟩
  else
    ⟨none, tokens, [.error .expectedNodeType (firstRange size tokens) none]⟩

/-! ## Whole texts -/

/-- Why a text is no node. -/
inductive ReadError where
  /-- A bad escape in a string. -/
  | escape (cause : EscapeError)
  /-- The problems of the text. -/
  | malformed (diagnostics : List Diagnostic)
deriving DecidableEq

/-- The text of the error: the first of the problems. -/
def ReadError.message : ReadError → String
  | .escape cause => cause.message
  | .malformed [] => "SexpSyntaxError requires at least one diagnostic"
  | .malformed (first :: _) => first.summary

end RubyTree.Sexp

namespace RubyTree.Node

open RubyTree.Sexp

/-- Reads the node that a text holds.  The problems of tokens are reported before those of their
order. -/
def ofText (text : String) : Except ReadError (Node Unit) :=
  match Tokens.ofText text with
  | .error cause => .error (.escape cause)
  | .ok tokens =>
    let reading := readRoot tokens.size tokens.toList
    match reading.node, tokens.diagnostics ++ reading.diagnostics with
    | some node, [] => .ok node
    | _, diagnostics => .error (.malformed diagnostics)

end RubyTree.Node
