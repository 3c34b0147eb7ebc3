import Mathlib.Data.Prod.Lex
import Mathlib.Order.Monotone.Basic
import RubyTree.Proofs.Text.Runs
import RubyTree.Text.Span

/-!
# Lines and columns

An offset is told by a line and a column.  Both are read off the text before the offset: the line
from the number of breaks in it, and the column from what stands behind the last one.  One
character further on, the column goes up by one or a new line begins, so lines and columns order
offsets as they are, also behind the end of the text.

Main results:

- `breaksBefore_succ` and `lineStart_succ` say what one character changes, and
  `strictMono_address` that lines and columns go up with the offset.
- `exists_line` cuts the text before an offset in front of its last line.
- `startOfLine_eq_lineStart`: the line is found at the same place by cutting the text into lines.
- `Span.orders_offsets` puts this together for both ends of a span.
-/

namespace RubyTree.Text

/-! ## One character on -/

/-- A line break adds one to the breaks before the next offset. -/
theorem breaksBefore_succ (source : List Char) (offset : Nat) :
    breaksBefore source (offset + 1) =
      breaksBefore source offset + if source[offset]? = some '\n' then 1 else 0 := by
  rw [breaksBefore, breaksBefore, List.take_add_one, List.count_append]
  cases source[offset]? with
  | none => rfl
  | some c => simp [List.count_singleton]

/-- A line starts behind a line break, and goes on behind any other character. -/
theorem lineStart_succ (source : List Char) (offset : Nat) :
    lineStart source (offset + 1) =
      if source[offset]? = some '\n' then offset + 1 else lineStart source offset := by
  rw [lineStart, lineStart, List.take_add_one]
  cases h : source[offset]? with
  | none => simp
  | some c =>
    have hoffset : offset < source.length := (List.getElem?_eq_some_iff.1 h).1
    by_cases hc : c = '\n'
    · simp [hc, Nat.le_of_lt hoffset]
    · simp [hc]

/-- The line and the column of an offset. -/
def address (source : List Char) (offset : Nat) : ℕ ×ₗ ℕ :=
  toLex (breaksBefore source offset + 1, offset - lineStart source offset)

theorem address_lt_succ (source : List Char) (offset : Nat) :
    address source offset < address source (offset + 1) := by
  have hle := lineStart_le source offset
  rw [address, address, Prod.Lex.toLex_lt_toLex, breaksBefore_succ, lineStart_succ]
  split
  · exact .inl (Nat.lt_succ_self _)
  · exact .inr ⟨rfl, by dsimp only; omega⟩

/-- Lines and columns go up with the offset. -/
theorem strictMono_address (source : List Char) : StrictMono (address source) :=
  strictMono_nat_of_lt_succ (address_lt_succ source)

/-! ## The line of an offset -/

/-- The text before an offset is cut where its last line starts. -/
theorem exists_line (source : List Char) (offset : Nat) :
    ∃ front current, source.take offset = front ++ current ∧
      front.length = lineStart source offset ∧ '\n' ∉ current ∧
      ∀ c ∈ front.getLast?, c = '\n' := by
  let back := (source.take offset).reverse
  refine ⟨(back.dropWhile (· ≠ '\n')).reverse, (back.takeWhile (· ≠ '\n')).reverse,
    ?_, List.length_reverse, fun hmem => ?_, fun c hc => ?_⟩
  · rw [← List.reverse_append, List.takeWhile_append_dropWhile, List.reverse_reverse]
  · simpa using List.mem_takeWhile_imp (List.mem_reverse.1 hmem)
  · rw [List.getLast?_reverse] at hc
    rcases List.head?_eq_some_iff.1 hc with ⟨rest, hrest⟩
    simpa using head_dropWhile hrest

/-! ## Lines by their numbers -/

/-- A text has one line more than line breaks. -/
theorem length_splitOn (text : List Char) :
    (text.splitOn '\n').length = text.count '\n' + 1 := by
  induction text with
  | nil => rfl
  | cons c text ih =>
    rw [List.splitOn_cons_eq_if_modifyHead, List.count_cons]
    split
    · rw [List.length_cons, ih]
    · rw [List.length_modifyHead, ih, Nat.add_zero]

/-- The lines of a text, each with a break behind it, are the text with one more break. -/
theorem flatMap_splitOn (text : List Char) :
    (text.splitOn '\n').flatMap (· ++ ['\n']) = text ++ ['\n'] := by
  induction text with
  | nil => rfl
  | cons c text ih =>
    rw [List.splitOn_cons_eq_if_modifyHead]
    split
    · next hc =>
      rw [List.flatMap_cons, ih, beq_iff_eq.1 hc]
      rfl
    · rcases List.exists_cons_of_ne_nil (List.splitOn_ne_nil '\n' text) with ⟨line, lines, hlines⟩
      rw [hlines, List.flatMap_cons] at ih
      rw [hlines, List.modifyHead_cons, List.flatMap_cons, List.cons_append, List.cons_append, ih,
        List.cons_append]

/-- The offset at which a line starts, with lines counted from one: behind the lines before it
and their breaks. -/
def startOfLine (source : List Char) (line : Nat) : Nat :=
  (((source.splitOn '\n').take (line - 1)).flatMap (· ++ ['\n'])).length

/-- The line of an offset starts behind the last break before the offset. -/
theorem startOfLine_eq_lineStart (source : List Char) (offset : Nat) :
    startOfLine source (breaksBefore source offset + 1) = lineStart source offset := by
  rcases exists_line source offset with ⟨front, current, htake, hfront, hcurrent, hbreak⟩
  have hsource : source = front ++ (current ++ source.drop offset) := by
    rw [← List.append_assoc, ← htake, List.take_append_drop]
  have hcount : breaksBefore source offset = front.count '\n' := by
    rw [breaksBefore, htake, List.count_append, List.count_eq_zero_of_not_mem hcurrent,
      Nat.add_zero]
  rw [startOfLine, Nat.add_sub_cancel, hcount, ← hfront]
  cases hlast : front.getLast? with
  | none =>
    rw [List.getLast?_eq_none_iff.1 hlast]
    rfl
  | some c =>
    rcases List.getLast?_eq_some_iff.1 hlast with ⟨before, hbefore⟩
    obtain rfl : c = '\n' := hbreak c hlast
    have hlines : source.splitOn '\n' =
        before.splitOn '\n' ++ (current ++ source.drop offset).splitOn '\n' := by
      conv_lhs => rw [hsource, hbefore, List.append_assoc]
      exact List.splitOn_append_cons_self _ _
    rw [hlines, hbefore, List.count_append, List.count_singleton_self, ← length_splitOn,
      List.take_left, flatMap_splitOn]

/-! ## Both ends of a span -/

/-- An offset lies on a line at a column. -/
structure LiesAt (source : List Char) (offset line column : Nat) : Prop where
  /-- As many characters as the column says stand before the offset, with no break among them, and
  behind a break or at the start of the text. -/
  current_line : ∃ front current, source.take offset = front ++ current ∧
    current.length = column ∧ '\n' ∉ current ∧ ∀ c ∈ front.getLast?, c = '\n'
  /-- The offset is the column behind the start of the line with that number. -/
  recovered : startOfLine source line + column = offset

/-- An offset within a text lies where its address says. -/
theorem liesAt_address {source : List Char} {offset : Nat} (h : offset ≤ source.length) :
    LiesAt source offset (breaksBefore source offset + 1) (offset - lineStart source offset) := by
  constructor
  case current_line =>
    rcases exists_line source offset with ⟨front, current, htake, hfront, hcurrent, hbreak⟩
    refine ⟨front, current, htake, ?_, hcurrent, hbreak⟩
    have hlength : front.length + current.length = offset := by
      rw [← List.length_append, ← htake, List.length_take_of_le h]
    omega
  case recovered =>
    rw [startOfLine_eq_lineStart]
    exact Nat.add_sub_cancel' (lineStart_le source offset)

/-- The breaks before the end of a range are those before its start and those in it. -/
theorem breaksBefore_stop (source : List Char) (range : Range) :
    breaksBefore source range.stop =
      breaksBefore source range.start + (range.slice source).count '\n' := by
  have htake : source.take range.start = (source.take range.stop).take range.start := by
    rw [List.take_take, Nat.min_eq_left range.start_le_stop]
  rw [breaksBefore, breaksBefore, Range.slice, htake, ← List.count_append, List.take_append_drop]

/-- Of two spans of one text, the starts compare as their lines and columns do, and so do the ends.
Within a span, the start comes first, and is at the end only in an empty one.  Each end within the
text lies at its line and column, and the lines from the start to the end are counted by the breaks
in the text of the span. -/
theorem Span.orders_offsets (a b : Span) (hsource : a.source = b.source) :
    cmp a.range.start b.range.start = cmp (toLex (a.line, a.column)) (toLex (b.line, b.column)) ∧
    cmp a.range.stop b.range.stop =
      cmp (toLex (a.lastLine, a.lastColumn)) (toLex (b.lastLine, b.lastColumn)) ∧
    toLex (a.line, a.column) ≤ toLex (a.lastLine, a.lastColumn) ∧
    ((a.line, a.column) = (a.lastLine, a.lastColumn) ↔ a.range.start = a.range.stop) ∧
    (a.range.start ≤ a.source.length →
      LiesAt a.source.toList a.range.start a.line a.column) ∧
    (a.range.stop ≤ a.source.length →
      LiesAt a.source.toList a.range.stop a.lastLine a.lastColumn) ∧
    a.lastLine = a.line + a.text.toList.count '\n' := by
  rcases a with ⟨source, r⟩
  rcases b with ⟨_, s⟩
  obtain rfl : source = _ := hsource
  have hmono := strictMono_address source.toList
  rw [← String.length_toList]
  refine ⟨?_, ?_, ?_, ?_, liesAt_address, liesAt_address, ?_⟩
  · exact (hmono.cmp_map_eq r.start s.start).symm
  · exact (hmono.cmp_map_eq r.stop s.stop).symm
  · exact hmono.monotone r.start_le_stop
  · exact (toLex_inj (α := ℕ × ℕ)).symm.trans hmono.injective.eq_iff
  · have hcount := breaksBefore_stop source.toList r
    rw [Span.lastLine, Span.line, Span.text, String.toList_ofList]
    simp only
    omega

/-- A span over a line break, and one that reaches behind the end of the text. -/
theorem Span.orders_offsets_break :
    let a : Span := ⟨"ab\ncd", ⟨1, 4, by decide⟩⟩
    let b : Span := ⟨"ab\ncd", ⟨4, 9, by decide⟩⟩
    a.source = b.source ∧
      cmp a.range.stop b.range.stop = cmp (toLex (2, 1)) (toLex (2, 6)) ∧
      a.range.start ≤ a.source.length ∧ LiesAt a.source.toList a.range.start 1 1 ∧
      a.range.stop ≤ a.source.length ∧ LiesAt a.source.toList a.range.stop 2 1 ∧
      2 = 1 + a.text.toList.count '\n' := by
  intro a b
  have hstart : (a.line, a.column) = (1, 1) := by decide
  have hstop : (a.lastLine, a.lastColumn) = (2, 1) := by decide
  have hother : (b.lastLine, b.lastColumn) = (2, 6) := by decide
  rcases Span.orders_offsets a b rfl with ⟨-, hcmp, -, -, hfirst, hlast, hlines⟩
  rw [hstop, hother] at hcmp
  rw [Prod.mk.injEq] at hstart hstop
  rw [hstart.1, hstart.2] at hfirst
  rw [hstop.1, hstop.2] at hlast
  rw [hstart.1, hstop.1] at hlines
  exact ⟨rfl, hcmp, by decide, hfirst (by decide), by decide, hlast (by decide), hlines⟩

end RubyTree.Text
