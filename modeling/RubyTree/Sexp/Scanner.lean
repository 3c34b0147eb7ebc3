import RubyTree.Sexp.Escape
import RubyTree.Sexp.Token
import RubyTree.Text.Letter

/-!
# Scanning tokens

A cursor stands at an offset of a text, before the characters that are still to
be read.  One step skips blanks and reads one token.  A step behind a bad escape
goes on where the escape ended.

Main results:

- `Cursor.next` is one step: a token, the end of the text, or a bad escape.
- `Cursor.next_after` says that every step but the one at the end moves forward, and none
  behind the end.
- `Tokens.ofText` repeats the step to the end of the text.
-/

namespace RubyTree.Sexp

open RubyTree.Text

/-! ## Cursors -/

/-- A place in a text. -/
structure Cursor where
  /-- The number of characters before the place. -/
  offset : Nat
  /-- The characters behind the place. -/
  rest : List Char
deriving DecidableEq

/-- The outcome of one step. -/
inductive Scan where
  /-- There is no further token. -/
  | finished (cursor : Cursor)
  /-- A token, and the place behind it. -/
  | token (token : Token) (after : Cursor)
  /-- A bad escape, and the place behind it. -/
  | failed (cause : EscapeError) (after : Cursor)
deriving DecidableEq

namespace Scan

/-- The place where the step ended. -/
def after : Scan → Cursor
  | .finished cursor => cursor
  | .token _ cursor => cursor
  | .failed _ cursor => cursor

end Scan

namespace Cursor

/-- The start of a text. -/
def ofText (text : String) : Cursor :=
  ⟨0, text.toList⟩

/-- There is nothing left to read. -/
def atEnd (cursor : Cursor) : Bool :=
  cursor.rest.isEmpty

/-- The place behind the next `size` characters. -/
def forward (cursor : Cursor) (size : Nat) : Cursor :=
  ⟨cursor.offset + size, cursor.rest.drop size⟩

/-- The place behind the blanks. -/
def skipBlanks (cursor : Cursor) : Cursor :=
  cursor.forward (cursor.rest.takeWhile isBlank).length

/-- The token of the next `size` characters. -/
def emit (cursor : Cursor) (lexeme : Lexeme) (size : Nat) : Scan :=
  .token
    ⟨lexeme, .ofLength ⟨cursor.offset⟩ ⟨size⟩, String.ofList (cursor.rest.take size)⟩
    (cursor.forward size)

end Cursor

/-! ## Strings -/

/-- The outcome of reading a string behind its opening quote. -/
inductive StringScan where
  /-- The characters of the string, and the number of characters up to its closing quote and with
  it. -/
  | closed (value : List Char) (size : Nat)
  /-- The text ends before the string does. -/
  | unclosed
  /-- A bad escape, and the number of characters up to its end. -/
  | failed (cause : EscapeError) (size : Nat)
deriving DecidableEq

/-- The outcome with `size` characters before the string that stand for those in front of it. -/
def StringScan.prepend (front : List Char) (size : Nat) : StringScan → StringScan
  | .closed value n => .closed (front ++ value) (size + n)
  | .unclosed => .unclosed
  | .failed cause n => .failed cause (size + n)

/-- Reads a string behind its opening quote.  A backslash at the end of the text stands for
itself. -/
def scanString : List Char → StringScan
  | [] => .unclosed
  | '"' :: _ => .closed [] 1
  | '\\' :: c :: rest =>
    match (readEscape c rest).1 with
    | .ok chars =>
      (scanString (rest.drop (readEscape c rest).2)).prepend chars ((readEscape c rest).2 + 2)
    | .error cause => .failed cause ((readEscape c rest).2 + 2)
  | c :: rest => (scanString rest).prepend [c] 1
termination_by text => text.length
decreasing_by
  · simp only [List.length_drop, List.length_cons]
    omega
  · simp

/-- The number of characters that a string takes, if it ends or fails within the text. -/
def StringScan.size? : StringScan → Option Nat
  | .closed _ size => some size
  | .unclosed => none
  | .failed _ size => some size

/-- What is put before a string adds to its size. -/
@[simp] theorem size?_prepend (front : List Char) (size : Nat) (scan : StringScan) :
    (scan.prepend front size).size? = scan.size?.map (size + ·) := by
  cases scan <;> rfl

/-- A string is closed if the rest behind what is put before it is. -/
theorem StringScan.eq_closed_of_prepend {front value : List Char} {size n : Nat}
    {scan : StringScan} (h : scan.prepend front size = .closed value n) :
    ∃ rest m, scan = .closed rest m ∧ value = front ++ rest ∧ n = size + m := by
  cases scan with
  | closed rest m =>
    cases h
    exact ⟨rest, m, rfl, rfl, rfl⟩
  | unclosed => cases h
  | failed cause m => cases h

/-- A string takes at least one character and no more than there are. -/
theorem size_scanString {text : List Char} {n : Nat} (h : (scanString text).size? = some n) :
    0 < n ∧ n ≤ text.length := by
  fun_induction scanString text generalizing n with
  | case1 => cases h
  | case2 rest =>
    cases h
    simp
  | case3 c rest chars _ ih =>
    rw [size?_prepend] at h
    obtain ⟨m, hm, rfl⟩ := Option.map_eq_some_iff.1 h
    have hrest := ih hm
    have hused := readEscape_le c rest
    simp only [List.length_drop, List.length_cons] at *
    omega
  | case4 c rest cause _ =>
    cases h
    have hused := readEscape_le c rest
    simp only [List.length_cons]
    omega
  | case5 c rest _ _ ih =>
    rw [size?_prepend] at h
    obtain ⟨m, hm, rfl⟩ := Option.map_eq_some_iff.1 h
    have hrest := ih hm
    simp only [List.length_cons]
    omega

/-- Reads the token at a cursor that is a string behind `lead` characters.  An unclosed string is a
faulty token from its quote on. -/
def Cursor.string (start : Cursor) (lead : Nat) (lexeme : String → Lexeme)
    (behindQuote : List Char) : Scan :=
  match scanString behindQuote with
  | .closed value size => start.emit (lexeme (String.ofList value)) (lead + 1 + size)
  | .unclosed => (start.forward lead).emit (.faulty .unterminatedString) (1 + behindQuote.length)
  | .failed cause size => .failed cause (start.forward (lead + 1 + size))

/-! ## Words -/

/-- The character can stand inside a word. -/
def isWordChar (c : Char) : Bool :=
  !isBlank c && c ≠ '(' && c ≠ ')' && c ≠ '"'

/-- What the word `c :: tail` is.  A word before a quote is no number. -/
def Lexeme.ofWord (c : Char) (tail : List Char) (beforeQuote : Bool) : Lexeme :=
  if c = ':' then
    if tail.isEmpty then .faulty .loneColon else .symbol ⟨String.ofList tail⟩
  else
    let name := if isLetter c ∨ c = '_' then .identifier (String.ofList (c :: tail))
      else .faulty (.unexpectedCharacter c)
    match Numeral.ofWord? (c :: tail) with
    | some numeral =>
      if beforeQuote then name
      else if numeral.isWhole then .int numeral.toInt
      else .float numeral.toBinary64
    | none => name

namespace Cursor

/-- Reads the word that starts with `c`. -/
def word (cursor : Cursor) (c : Char) (rest : List Char) : Scan :=
  let tail := rest.takeWhile isWordChar
  let beforeQuote := (rest.drop tail.length).head? = some '"'
  cursor.emit (.ofWord c tail beforeQuote) (tail.length + 1)

/-! ## One step -/

/-- Reads one token. -/
def next (cursor : Cursor) : Scan :=
  let start := cursor.skipBlanks
  match start.rest with
  | [] => .finished start
  | '(' :: _ => start.emit .opening 1
  | ')' :: _ => start.emit .closing 1
  | '"' :: rest => start.string 0 .string rest
  | ':' :: '"' :: rest => start.string 1 (.symbol ⟨·⟩) rest
  | c :: rest => start.word c rest

/-! ## Progress -/

/-- Two moves forward are one. -/
@[simp] theorem forward_forward (cursor : Cursor) (m n : Nat) :
    (cursor.forward m).forward n = cursor.forward (m + n) := by
  simp [forward, Nat.add_assoc]

/-- A move forward leaves that much less to read. -/
theorem length_forward (cursor : Cursor) (n : Nat) :
    (cursor.forward n).rest.length = cursor.rest.length - n :=
  List.length_drop

/-- Reading a string moves forward over it, and not behind the end of the text. -/
theorem after_string {start : Cursor} {lead : Nat} {behindQuote : List Char}
    (h : start.rest.length = lead + 1 + behindQuote.length) (lexeme : String → Lexeme) :
    ∃ n, 0 < n ∧ n ≤ start.rest.length ∧
      (start.string lead lexeme behindQuote).after = start.forward n := by
  unfold string
  cases hs : scanString behindQuote with
  | closed value size =>
    have hsize : 0 < size ∧ size ≤ behindQuote.length := size_scanString (by rw [hs]; rfl)
    exact ⟨lead + 1 + size, by omega, by omega, rfl⟩
  | unclosed =>
    refine ⟨lead + (1 + behindQuote.length), by omega, by omega, ?_⟩
    exact forward_forward start lead _
  | failed cause size =>
    have hsize : 0 < size ∧ size ≤ behindQuote.length := size_scanString (by rw [hs]; rfl)
    exact ⟨lead + 1 + size, by omega, by omega, rfl⟩

/-- A step ends the text behind the blanks, or moves forward from there. -/
theorem next_after (cursor : Cursor) :
    (cursor.next = .finished cursor.skipBlanks ∧ cursor.skipBlanks.rest = []) ∨
      ∃ n, 0 < n ∧ n ≤ cursor.skipBlanks.rest.length ∧
        cursor.next.after = cursor.skipBlanks.forward n := by
  unfold next
  generalize cursor.skipBlanks = start
  simp only
  split
  · next h => exact .inl ⟨rfl, h⟩
  · next rest h => exact .inr ⟨1, Nat.one_pos, by simp [h], rfl⟩
  · next rest h => exact .inr ⟨1, Nat.one_pos, by simp [h], rfl⟩
  · next rest h => exact .inr (after_string (by simp [h]; omega) _)
  · next rest h => exact .inr (after_string (by simp [h]; omega) _)
  · next c rest _ _ _ _ h =>
    refine .inr ⟨(rest.takeWhile isWordChar).length + 1, Nat.succ_pos _, ?_, rfl⟩
    have hlen := (List.takeWhile_prefix (l := rest) isWordChar).length_le
    rw [h, List.length_cons]
    omega

/-- Every step but the one at the end leaves less to read. -/
theorem length_next_lt {cursor : Cursor} (h : ∀ place, cursor.next ≠ .finished place) :
    cursor.next.after.rest.length < cursor.rest.length := by
  rcases cursor.next_after with ⟨hend, _⟩ | ⟨n, hpos, hle, hafter⟩
  · exact absurd hend (h _)
  · have hskip : cursor.skipBlanks.rest.length ≤ cursor.rest.length := by
      rw [skipBlanks, length_forward]
      omega
    rw [hafter, length_forward]
    omega

end Cursor

/-! ## Whole texts -/

namespace Tokens

/-- Reads tokens up to the end of the text. -/
def scanFrom (cursor : Cursor) : Except EscapeError Tokens :=
  match _step : cursor.next with
  | .finished place => .ok ⟨[], place.offset⟩
  | .failed cause _ => .error cause
  | .token token after =>
    match scanFrom after with
    | .error cause => .error cause
    | .ok tokens => .ok ⟨token :: tokens.toList, tokens.size⟩
termination_by cursor.rest.length
decreasing_by
  have hlt := cursor.length_next_lt (by simp [_step])
  rw [_step] at hlt
  exact hlt

/-- The tokens of a text. -/
def ofText (text : String) : Except EscapeError Tokens :=
  scanFrom (.ofText text)

end Tokens

end RubyTree.Sexp
