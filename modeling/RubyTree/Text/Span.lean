import RubyTree.Text.Quoted
import RubyTree.Text.Range

/-!
# Spans of a source text

A span is a range of offsets together with the source text that it belongs to.
Lines count from one and columns from zero.  The range may reach behind the end
of the source: cutting and counting lines stop there, columns go on.

Main results:

- `Span.find` is the leftmost occurrence of a snippet at or behind a start.
- `Span.line` and `Span.column` place the start of a span, `Span.lastLine` and
  `Span.lastColumn` its end.
- `Span.join` covers two spans of one source.
-/

namespace RubyTree.Text

/-! ## Lines and columns -/

/-- The number of line breaks before an offset. -/
def breaksBefore (source : List Char) (offset : Nat) : Nat :=
  (source.take offset).count '\n'

/-- The offset at which the line of an offset starts: behind the last line break before it. -/
def lineStart (source : List Char) (offset : Nat) : Nat :=
  ((source.take offset).reverse.dropWhile (· ≠ '\n')).length

/-- A line starts at or before each of its offsets. -/
theorem lineStart_le (source : List Char) (offset : Nat) : lineStart source offset ≤ offset := by
  have h := (List.dropWhile_suffix (l := (source.take offset).reverse) (· ≠ '\n')).length_le
  rw [List.length_reverse, List.length_take] at h
  exact Nat.le_trans h (Nat.min_le_left ..)

/-! ## Occurrences -/

/-- The offset of the leftmost occurrence of a snippet in a text that starts at `offset`. -/
def occurrence? (snippet : List Char) : List Char → Nat → Option Nat
  | [], offset => if snippet.isEmpty then some offset else none
  | c :: rest, offset =>
    if snippet.isPrefixOf (c :: rest) then some offset
    else occurrence? snippet rest (offset + 1)

/-- The leftmost occurrence at or behind an offset; there is none behind the end. -/
def occurrenceFrom? (source snippet : List Char) (start : Nat) : Option Nat :=
  if start ≤ source.length then occurrence? snippet (source.drop start) start else none

/-- The offset that an integer names: from the end if it is negative, but never below zero. -/
def offsetFromEnd (size : Nat) (start : Int) : Nat :=
  if start < 0 then (start + size).toNat else start.toNat

/-! ## Spans -/

/-- A range of offsets in a source text. -/
structure Span where
  /-- The text that the offsets count in. -/
  source : String
  /-- The offsets. -/
  range : Range
deriving DecidableEq

/-- Why there is no such span. -/
inductive SpanError where
  /-- The offsets make no range. -/
  | range (cause : RangeError)
  /-- The source does not hold the snippet. -/
  | absent (snippet : String)
  /-- The two spans belong to different sources. -/
  | differentSources
deriving DecidableEq

/-- The text of the refusal of a span. -/
def SpanError.message : SpanError → String
  | .range cause => cause.message
  | .absent snippet => quotedString snippet ++ " does not occur in source"
  | .differentSources => "Cannot join spans over different sources"

namespace Span

/-- The span between two integers. -/
def ofBounds (source : String) (start stop : Int) : Except SpanError Span :=
  match Range.ofBounds start stop with
  | .ok range => .ok ⟨source, range⟩
  | .error cause => .error (.range cause)

/-- The span of the first occurrence of a snippet at or behind a start. -/
def find (source snippet : String) (start : Int) : Except SpanError Span :=
  match occurrenceFrom? source.toList snippet.toList (offsetFromEnd source.length start) with
  | some offset => .ok ⟨source, .ofLength ⟨offset⟩ (.ofText snippet)⟩
  | none => .error (.absent snippet)

/-- The part of the source that the span covers. -/
def text (span : Span) : String :=
  String.ofList (span.range.slice span.source.toList)

/-- The line of the start. -/
def line (span : Span) : Nat :=
  breaksBefore span.source.toList span.range.start + 1

/-- The column of the start. -/
def column (span : Span) : Nat :=
  span.range.start - lineStart span.source.toList span.range.start

/-- The line of the end. -/
def lastLine (span : Span) : Nat :=
  breaksBefore span.source.toList span.range.stop + 1

/-- The column of the end. -/
def lastColumn (span : Span) : Nat :=
  span.range.stop - lineStart span.source.toList span.range.stop

/-- The span that covers two spans of one source. -/
def join (a b : Span) : Except SpanError Span :=
  if a.source = b.source then .ok ⟨a.source, a.range.cover b.range⟩
  else .error .differentSources

end Span

end RubyTree.Text
