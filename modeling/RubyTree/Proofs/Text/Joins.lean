import Mathlib.Data.List.Infix
import Mathlib.Order.MinMax
import RubyTree.Proofs.Text.LinesAndColumns

/-!
# Covers and joins

Ranges are ordered by what they contain.  In this order the cover of two ranges is their least
upper bound, and all laws of it follow from that.  A join of spans is the cover of their ranges, so
it starts where the first of them starts and ends where the last one ends, by line and column too,
and the texts of both are found in its text.

Main results:

- `Range.cover_within_iff`: a range contains a cover exactly if it contains both parts.
- `Range.slice_prefix`: a part of a text is found in every larger part.
- `Span.Joins` says what a join is of two spans, and `Span.joins_join` that it is that.
- `Span.join_least` puts this together for ranges and spans.
-/

namespace RubyTree.Text

/-! ## Covers -/

namespace Range

variable {a b c : Range}

/-- The range starts no earlier than the other one and ends no later. -/
def Within (inner outer : Range) : Prop :=
  outer.start ≤ inner.start ∧ inner.stop ≤ outer.stop

theorem within_refl (a : Range) : a.Within a :=
  ⟨Nat.le_refl _, Nat.le_refl _⟩

theorem Within.antisymm (hab : a.Within b) (hba : b.Within a) : a = b := by
  have hstart := Nat.le_antisymm hba.1 hab.1
  have hstop := Nat.le_antisymm hab.2 hba.2
  cases a
  cases b
  cases hstart
  cases hstop
  rfl

/-- A range contains the cover of two ranges exactly if it contains both. -/
theorem cover_within_iff : (a.cover b).Within c ↔ a.Within c ∧ b.Within c := by
  simp only [Within, cover, le_min_iff, max_le_iff]
  exact and_and_and_comm

/-- A range is known from the ranges that contain it. -/
theorem eq_of_within_iff (h : ∀ c, a.Within c ↔ b.Within c) : a = b :=
  ((h b).2 b.within_refl).antisymm ((h a).1 a.within_refl)

theorem cover_comm (a b : Range) : a.cover b = b.cover a := by
  apply eq_of_within_iff
  intro c
  rw [cover_within_iff, cover_within_iff, and_comm]

theorem cover_assoc (a b c : Range) : (a.cover b).cover c = a.cover (b.cover c) := by
  apply eq_of_within_iff
  intro d
  simp only [cover_within_iff, and_assoc]

theorem cover_self (a : Range) : a.cover a = a := by
  apply eq_of_within_iff
  intro c
  rw [cover_within_iff, and_self]

theorem within_cover (a b : Range) : a.Within (a.cover b) ∧ b.Within (a.cover b) :=
  cover_within_iff.1 (within_refl _)

/-- A range contains the cover of any number of ranges exactly if it contains each, so it does not
matter in which order they are covered. -/
theorem foldl_cover_within_iff (ranges : List Range) (first outer : Range) :
    (ranges.foldl cover first).Within outer ↔
      first.Within outer ∧ ∀ range ∈ ranges, range.Within outer := by
  induction ranges generalizing first with
  | nil => simp
  | cons range ranges ih =>
    rw [List.foldl_cons, ih, cover_within_iff, List.forall_mem_cons, and_assoc]

/-- The bounds of a cover are accepted as those of a range. -/
theorem ofBounds_cover (a b : Range) :
    ofBounds (min (a.start : Int) b.start) (max (a.stop : Int) b.stop) = .ok (a.cover b) := by
  rw [ofBounds_eq_ok_iff]
  simp only [cover]
  omega

/-- The part of a text in a range is found in the part in a larger one, at the difference of their
starts. -/
theorem slice_prefix (h : a.Within b) (text : List Char) :
    a.slice text <+: (b.slice text).drop (a.start - b.start) := by
  rw [slice, slice, List.drop_drop, Nat.add_sub_cancel' h.1]
  exact (List.take_prefix_take_left h.2).drop a.start

end Range

/-! ## Joins -/

namespace Span

/-- The span joins two spans: it starts at the first start and ends at the last end, and in its
text both texts stand at the differences of the starts. -/
structure Joins (joined a b : Span) : Prop where
  /-- All spans belong to the same source. -/
  source : joined.source = a.source ∧ joined.source = b.source
  /-- The first of the two starts, by line and column. -/
  start : toLex (joined.line, joined.column) =
    min (toLex (a.line, a.column)) (toLex (b.line, b.column))
  /-- The last of the two ends, by line and column. -/
  stop : toLex (joined.lastLine, joined.lastColumn) =
    max (toLex (a.lastLine, a.lastColumn)) (toLex (b.lastLine, b.lastColumn))
  /-- The text of each span, as a part of the joined text. -/
  text : ∀ part ∈ [a, b],
    Span.text ⟨joined.text, .ofLength ⟨part.range.start - joined.range.start⟩ (.ofText part.text)⟩ =
      part.text

/-- The text of a span is found in that of a larger one. -/
theorem text_ofLength {source : String} {a b : Range} (h : a.Within b) :
    Span.text ⟨Span.text ⟨source, b⟩,
      .ofLength ⟨a.start - b.start⟩ (.ofText (Span.text ⟨source, a⟩))⟩ = Span.text ⟨source, a⟩ := by
  have htake := (List.prefix_iff_eq_take.1 (Range.slice_prefix h source.toList)).symm
  simp only [Span.text, Size.ofText, Range.ofLength, Range.slice, String.toList_ofList,
    String.length_ofList] at htake ⊢
  rw [← List.take_drop, htake]

theorem joins_join (source : String) (a b : Range) :
    Joins ⟨source, a.cover b⟩ ⟨source, a⟩ ⟨source, b⟩ where
  source := ⟨rfl, rfl⟩
  start := (strictMono_address source.toList).monotone.map_min
  stop := (strictMono_address source.toList).monotone.map_max
  text := by
    rcases Range.within_cover a b with ⟨ha, hb⟩
    intro part hpart
    rcases List.mem_pair.1 hpart with rfl | rfl
    · exact text_ofLength ha
    · exact text_ofLength hb

/-- The cover of two ranges is always a range, and it is the least one that contains both; the same
holds of any number of ranges.  Two spans are joined unless their sources differ, into the span from
the first start to the last end. -/
theorem join_least :
    (∀ a b : Range,
      Range.ofBounds (min (a.start : Int) b.start) (max (a.stop : Int) b.stop) = .ok (a.cover b) ∧
      a.cover b = b.cover a ∧ a.cover a = a ∧ a.Within (a.cover b) ∧ b.Within (a.cover b)) ∧
    (∀ a b c : Range, (a.cover b).cover c = a.cover (b.cover c) ∧
      (a.Within c → b.Within c → (a.cover b).Within c)) ∧
    (∀ (ranges : List Range) (first outer : Range), (ranges.foldl Range.cover first).Within outer ↔
      first.Within outer ∧ ∀ range ∈ ranges, range.Within outer) ∧
    ∀ a b : Span, (a.join b = .error .differentSources ↔ a.source ≠ b.source) ∧
      (a.source = b.source → ∃ joined, a.join b = .ok joined ∧ joined.Joins a b) := by
  refine ⟨fun a b => ?_, fun a b c => ?_, Range.foldl_cover_within_iff, fun a b => ?_⟩
  · exact ⟨Range.ofBounds_cover a b, Range.cover_comm a b, Range.cover_self a,
      Range.within_cover a b⟩
  · exact ⟨Range.cover_assoc a b c, fun ha hb => Range.cover_within_iff.2 ⟨ha, hb⟩⟩
  · rcases a with ⟨source, a⟩
    rcases b with ⟨other, b⟩
    by_cases hsource : source = other
    · subst hsource
      have hjoin : join ⟨source, a⟩ ⟨source, b⟩ = .ok ⟨source, a.cover b⟩ := if_pos rfl
      refine ⟨?_, fun _ => ⟨_, hjoin, joins_join source a b⟩⟩
      rw [hjoin]
      simp
    · have hjoin : join ⟨source, a⟩ ⟨other, b⟩ = .error .differentSources := if_neg hsource
      exact ⟨⟨fun _ => hsource, fun _ => hjoin⟩, fun h => absurd h hsource⟩

/-- Two spans with a line break between them, the later one first. -/
theorem join_least_apart :
    let a : Span := ⟨"ab\ncd", ⟨3, 5, by decide⟩⟩
    let b : Span := ⟨"ab\ncd", ⟨0, 1, by decide⟩⟩
    let outer : Range := ⟨0, 9, by decide⟩
    a.range.Within outer ∧ b.range.Within outer ∧ (a.range.cover b.range).Within outer ∧
      a.source = b.source ∧ ∃ joined, a.join b = .ok joined ∧ joined.Joins a b ∧
        joined.text = "ab\ncd" := by
  intro a b outer
  rcases join_least with ⟨-, hleast, -, hjoin⟩
  have ha : a.range.Within outer := ⟨by decide, by decide⟩
  have hb : b.range.Within outer := ⟨by decide, by decide⟩
  rcases (hjoin a b).2 rfl with ⟨joined, hjoined, hjoins⟩
  have htext : joined.text = "ab\ncd" := by
    cases hjoined
    decide
  exact ⟨ha, hb, (hleast a.range b.range outer).2 ha hb, rfl, joined, hjoined, hjoins, htext⟩

end Span

end RubyTree.Text
