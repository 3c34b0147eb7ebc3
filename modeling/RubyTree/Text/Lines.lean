/-!
# Lines

There are many characters that break a line, and the pair of a carriage return and
a line feed breaks it once.

Main results:

- `lines` cuts a text at its line breaks.
- `unifyBreaks` writes each carriage return, and each pair of it and a line feed,
  as a line feed.
-/

namespace RubyTree.Text

/-- The character breaks a line. -/
def isLineBreak (c : Char) : Bool :=
  ['\n', '\x0b', '\x0c', '\r', '\x1c', '\x1d', '\x1e', '\u0085', '\u2028', '\u2029'].contains c

/-- Cuts a text at its line breaks; the beginning of the current line is given in reverse.  A
break at the end opens no further line. -/
def linesFrom : List Char → List Char → List (List Char)
  | [], line => if line = [] then [] else [line.reverse]
  | '\r' :: '\n' :: rest, line => line.reverse :: linesFrom rest []
  | c :: rest, line =>
    if isLineBreak c then line.reverse :: linesFrom rest [] else linesFrom rest (c :: line)

/-- The lines of a text, without their breaks. -/
def lines (text : String) : List String :=
  (linesFrom text.toList []).map String.ofList

/-- The text with every carriage return, alone or before a line feed, as one line feed. -/
def unifyBreaks : List Char → List Char
  | [] => []
  | '\r' :: '\n' :: rest => '\n' :: unifyBreaks rest
  | '\r' :: rest => '\n' :: unifyBreaks rest
  | c :: rest => c :: unifyBreaks rest

end RubyTree.Text
