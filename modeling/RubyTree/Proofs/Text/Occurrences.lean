import Mathlib.Data.List.Infix
import Mathlib.Data.Set.Basic
import Mathlib.Order.Bounds.Defs
import RubyTree.Text.Span

/-!
# Occurrences of a snippet

A search goes through the offsets of a text from a start on and stops at the first one at which the
snippet stands.  Searching again behind each occurrence visits occurrences from left to right that
do not overlap, and as every one of them takes up a character, the search comes to an end.

Main results:

- `StandsAt` says where a snippet stands, and `occurrences` collects the places from an offset on.
- `occurrenceFrom?_cases`: the search finds the least of these places, or there is none.
- `Span.find_cases` says the same of spans and of starts that are counted from the end.
- `Span.Visits` is the repeated search, `Span.Visits.moves_on` tells how it goes on, and
  `Span.exists_visits` that it ends.
- `Span.find_leftmost` puts this together.
-/

namespace RubyTree.Text

section Search

variable {source snippet : List Char} {start offset : Nat}

/-! ## Where a snippet stands -/

/-- A snippet stands in a text at an offset. -/
structure StandsAt (source snippet : List Char) (offset : Nat) : Prop where
  /-- The snippet ends within the text. -/
  within : offset + snippet.length ≤ source.length
  /-- The characters from the offset on are those of the snippet. -/
  same : (source.drop offset).take snippet.length = snippet

/-- A snippet stands where the text goes on with it. -/
theorem standsAt_iff :
    StandsAt source snippet offset ↔
      offset ≤ source.length ∧ snippet.isPrefixOf (source.drop offset) = true := by
  rw [List.isPrefixOf_iff_prefix]
  constructor
  · rintro ⟨hwithin, hsame⟩
    exact ⟨by omega, List.prefix_iff_eq_take.2 hsame.symm⟩
  · rintro ⟨hoffset, hprefix⟩
    have hlength := hprefix.length_le
    rw [List.length_drop] at hlength
    exact ⟨by omega, (List.prefix_iff_eq_take.1 hprefix).symm⟩

/-- The offsets from a start on at which a snippet stands. -/
def occurrences (source snippet : List Char) (start : Nat) : Set Nat :=
  {offset | start ≤ offset ∧ StandsAt source snippet offset}

theorem occurrences_of_length_lt (h : source.length < start) :
    occurrences source snippet start = ∅ := by
  refine Set.eq_empty_of_forall_notMem ?_
  rintro offset ⟨hstart, hstands⟩
  have hwithin := hstands.within
  omega

theorem isLeast_occurrences (h : StandsAt source snippet start) :
    IsLeast (occurrences source snippet start) start :=
  ⟨⟨Nat.le_refl _, h⟩, fun _ hoffset => hoffset.1⟩

/-- An offset at which the snippet does not stand can be left out. -/
theorem occurrences_succ (h : ¬ StandsAt source snippet start) :
    occurrences source snippet start = occurrences source snippet (start + 1) := by
  ext offset
  constructor
  · rintro ⟨hstart, hstands⟩
    have hne : start ≠ offset := by
      rintro rfl
      exact h hstands
    exact ⟨by omega, hstands⟩
  · rintro ⟨hstart, hstands⟩
    exact ⟨by omega, hstands⟩

/-! ## The search -/

theorem occurrenceFrom?_of_length_lt (h : source.length < start) :
    occurrenceFrom? source snippet start = none :=
  if_neg (Nat.not_le.2 h)

/-- The search stops where the snippet stands. -/
theorem occurrenceFrom?_of_standsAt (h : StandsAt source snippet start) :
    occurrenceFrom? source snippet start = some start := by
  rcases standsAt_iff.1 h with ⟨hstart, hprefix⟩
  rw [occurrenceFrom?, if_pos hstart]
  cases hrest : source.drop start with
  | nil =>
    rw [hrest] at hprefix
    cases snippet with
    | nil => rfl
    | cons c snippet => cases hprefix
  | cons c rest =>
    rw [hrest] at hprefix
    exact if_pos hprefix

/-- The search goes on where it does not. -/
theorem occurrenceFrom?_of_not_standsAt (h : ¬ StandsAt source snippet start) :
    occurrenceFrom? source snippet start = occurrenceFrom? source snippet (start + 1) := by
  rcases Nat.lt_trichotomy start source.length with hlt | rfl | hgt
  · have hprefix : ¬ snippet.isPrefixOf (source.drop start) = true := fun hprefix =>
      h (standsAt_iff.2 ⟨Nat.le_of_lt hlt, hprefix⟩)
    rw [List.drop_eq_getElem_cons hlt] at hprefix
    rw [occurrenceFrom?, if_pos (Nat.le_of_lt hlt), List.drop_eq_getElem_cons hlt, occurrence?,
      if_neg hprefix, occurrenceFrom?, if_pos (Nat.succ_le_of_lt hlt)]
  · have hsnippet : ¬ snippet.isEmpty = true := by
      intro hempty
      rw [List.isEmpty_iff.1 hempty] at h
      exact h ⟨Nat.le_refl _, rfl⟩
    have hend : occurrenceFrom? source snippet source.length = none := by
      rw [occurrenceFrom?, if_pos (Nat.le_refl _), List.drop_length, occurrence?, if_neg hsnippet]
    rw [hend, occurrenceFrom?_of_length_lt (Nat.lt_succ_self _)]
  · rw [occurrenceFrom?_of_length_lt hgt, occurrenceFrom?_of_length_lt (Nat.lt_succ_of_lt hgt)]

/-- The search finds the least offset from its start on at which the snippet stands, unless there
is none. -/
theorem occurrenceFrom?_cases (source snippet : List Char) (start : Nat) :
    (∃ offset, occurrenceFrom? source snippet start = some offset ∧
      IsLeast (occurrences source snippet start) offset) ∨
    occurrenceFrom? source snippet start = none ∧ occurrences source snippet start = ∅ := by
  -- Every step leaves fewer offsets, up to the end of the text.
  induction hleft : source.length + 1 - start generalizing start with
  | zero =>
    exact .inr ⟨occurrenceFrom?_of_length_lt (by omega), occurrences_of_length_lt (by omega)⟩
  | succ left ih =>
    by_cases hstands : StandsAt source snippet start
    · exact .inl ⟨start, occurrenceFrom?_of_standsAt hstands, isLeast_occurrences hstands⟩
    · rw [occurrenceFrom?_of_not_standsAt hstands, occurrences_succ hstands]
      exact ih (start + 1) (by omega)

end Search

/-! ## Spans of occurrences -/

namespace Span

variable {source snippet : String} {start : Int} {span : Span} {spans others : List Span}

/-- The offsets at which a snippet stands, from a start on that counts from the end if it is
negative, but not from before the text. -/
def sites (source snippet : String) (start : Int) : Set Nat :=
  {offset | (if start < 0 then max 0 (source.length + start) else start) ≤ (offset : Int) ∧
    StandsAt source.toList snippet.toList offset}

theorem sites_eq (source snippet : String) (start : Int) :
    sites source snippet start =
      occurrences source.toList snippet.toList (offsetFromEnd source.length start) := by
  ext offset
  have hstart : (if start < 0 then max 0 (source.length + start) else start) ≤ (offset : Int) ↔
      offsetFromEnd source.length start ≤ offset := by
    unfold offsetFromEnd
    split <;> omega
  exact and_congr_left fun _ => hstart

/-- The text of a span over an occurrence is the snippet. -/
theorem text_of_standsAt {offset : Nat} (h : StandsAt source.toList snippet.toList offset) :
    Span.text ⟨source, .ofLength ⟨offset⟩ (.ofText snippet)⟩ = snippet := by
  rw [Span.text, Range.slice, Range.ofLength, Size.ofText, ← List.take_drop,
    ← String.length_toList, h.same, String.ofList_toList]

/-- A span is found over the least site, unless there is none. -/
theorem find_cases (source snippet : String) (start : Int) :
    (∃ offset, find source snippet start = .ok ⟨source, .ofLength ⟨offset⟩ (.ofText snippet)⟩ ∧
      IsLeast (sites source snippet start) offset) ∨
    find source snippet start = .error (.absent snippet) ∧ sites source snippet start = ∅ := by
  rw [sites_eq, find]
  rcases occurrenceFrom?_cases source.toList snippet.toList (offsetFromEnd source.length start) with
    ⟨offset, hfound, hleast⟩ | ⟨hfound, hempty⟩
  · rw [hfound]
    exact .inl ⟨offset, rfl, hleast⟩
  · rw [hfound]
    exact .inr ⟨rfl, hempty⟩

/-- What a found span is. -/
theorem find_eq_ok (h : find source snippet start = .ok span) :
    span.source = source ∧ IsLeast (sites source snippet start) span.range.start ∧
      span.text = snippet ∧ span.range.stop = span.range.start + snippet.length ∧
      span.range.stop ≤ source.length := by
  rcases find_cases source snippet start with ⟨offset, hfound, hleast⟩ | ⟨hfound, -⟩
  · cases h.symm.trans hfound
    have hstands := hleast.1.2
    have hwithin := hstands.within
    rw [String.length_toList, String.length_toList] at hwithin
    exact ⟨rfl, hleast, text_of_standsAt hstands, rfl, hwithin⟩
  · cases h.symm.trans hfound

/-! ## Repeated search -/

/-- The spans that a repeated search finds, which goes on from the end of each. -/
inductive Visits (source snippet : String) : Int → List Span → Prop
  /-- Nothing more is found. -/
  | stop {start : Int} {cause : SpanError} (h : find source snippet start = .error cause) :
      Visits source snippet start []
  /-- A span is found, and the search goes on from its end. -/
  | next {start : Int} {span : Span} {rest : List Span}
      (h : find source snippet start = .ok span)
      (hrest : Visits source snippet span.range.stop rest) :
      Visits source snippet start (span :: rest)

/-- A start that is an offset is where the search begins. -/
theorem offsetFromEnd_natCast (size offset : Nat) : offsetFromEnd size offset = offset := by
  unfold offsetFromEnd
  split <;> omega

/-- A search that finds something goes forward by at least a character, and stays in the text. -/
theorem find_moves_on (hsnippet : snippet ≠ "") (h : find source snippet start = .ok span) :
    offsetFromEnd source.length start ≤ span.range.start ∧
      span.range.start < span.range.stop ∧ span.range.stop ≤ source.length := by
  rcases find_eq_ok h with ⟨-, hleast, -, hstop, hwithin⟩
  rw [sites_eq] at hleast
  have hlength : snippet.length ≠ 0 := fun hzero => hsnippet (String.length_eq_zero_iff.1 hzero)
  exact ⟨hleast.1.1, by omega, hwithin⟩

namespace Visits

theorem unique (h : Visits source snippet start spans) (hother : Visits source snippet start others) :
    spans = others := by
  induction h generalizing others with
  | stop h =>
    cases hother with
    | stop => rfl
    | next hnext => cases h.symm.trans hnext
  | next h _ ih =>
    cases hother with
    | stop hstop => cases h.symm.trans hstop
    | next hnext hrest =>
      cases h.symm.trans hnext
      rw [ih hrest]

/-- The visited spans stand behind the start, one behind the other, and none of them is empty. -/
theorem moves_on (hsnippet : snippet ≠ "") (h : Visits source snippet start spans) :
    (∀ span ∈ spans, offsetFromEnd source.length start ≤ span.range.start) ∧
      (spans.Pairwise fun a b => a.range.start < b.range.start ∧ a.range.stop ≤ b.range.start) ∧
      spans.length ≤ source.length - offsetFromEnd source.length start := by
  induction h with
  | stop => exact ⟨by simp, .nil, Nat.zero_le _⟩
  | @next start span rest h _ ih =>
    rcases find_moves_on hsnippet h with ⟨hstart, hless, hwithin⟩
    rw [offsetFromEnd_natCast] at ih
    rcases ih with ⟨hbehind, hpairwise, hlength⟩
    refine ⟨List.forall_mem_cons.2 ⟨hstart, fun other hother => ?_⟩,
      List.pairwise_cons.2 ⟨fun other hother => ?_, hpairwise⟩, ?_⟩
    · have hother := hbehind other hother
      omega
    · have hother := hbehind other hother
      exact ⟨by omega, hother⟩
    · rw [List.length_cons]
      omega

end Visits

/-- Every repeated search for a snippet that is not empty comes to its end. -/
theorem exists_visits (hsnippet : snippet ≠ "") (start : Int) :
    ∃ spans, Visits source snippet start spans := by
  cases h : find source snippet start with
  | error cause => exact ⟨[], .stop h⟩
  | ok span =>
    have hmoves := find_moves_on hsnippet h
    have hless : source.length - offsetFromEnd source.length span.range.stop <
        source.length - offsetFromEnd source.length start := by
      rw [offsetFromEnd_natCast]
      omega
    rcases exists_visits hsnippet (span.range.stop : Int) with ⟨rest, hrest⟩
    exact ⟨span :: rest, .next h hrest⟩
termination_by source.length - offsetFromEnd source.length start

/-- A span is found exactly if the snippet stands in the source at or behind the start.  It is the
leftmost one, its text is the snippet, and it lies within the source.  Searching again from the end
of each span visits spans one behind the other, at most as many as the source has characters. -/
theorem find_leftmost (source snippet : String) (start : Int) :
    ((∃ span, find source snippet start = .ok span) ↔ (sites source snippet start).Nonempty) ∧
    (∀ span, find source snippet start = .ok span →
      span.source = source ∧ IsLeast (sites source snippet start) span.range.start ∧
        span.text = snippet ∧ span.range.stop ≤ source.length) ∧
    (sites source snippet start = ∅ → find source snippet start = .error (.absent snippet)) ∧
    (snippet ≠ "" → ∃ spans, (∀ others, Visits source snippet start others ↔ others = spans) ∧
      (spans.Pairwise fun a b => a.range.start < b.range.start ∧ a.range.stop ≤ b.range.start) ∧
      spans.length ≤ source.length) := by
  refine ⟨?_, fun span h => ?_, fun hempty => ?_, fun hsnippet => ?_⟩
  · rcases find_cases source snippet start with ⟨offset, hfound, hleast⟩ | ⟨hfound, hempty⟩
    · exact ⟨fun _ => ⟨offset, hleast.1⟩, fun _ => ⟨_, hfound⟩⟩
    · simp [hfound, hempty]
  · rcases find_eq_ok h with ⟨hsource, hleast, htext, -, hwithin⟩
    exact ⟨hsource, hleast, htext, hwithin⟩
  · rcases find_cases source snippet start with ⟨offset, -, hleast⟩ | ⟨hfound, -⟩
    · exact absurd hleast.1 (hempty ▸ Set.notMem_empty offset)
    · exact hfound
  · rcases exists_visits hsnippet start with ⟨spans, hvisits⟩
    rcases hvisits.moves_on hsnippet with ⟨-, hpairwise, hlength⟩
    refine ⟨spans, fun others => ⟨fun hothers => hothers.unique hvisits, ?_⟩, hpairwise, by omega⟩
    rintro rfl
    exact hvisits

/-- Of two occurrences that overlap, a start between them finds the later one, and a repeated search
visits the earlier one alone. -/
theorem find_leftmost_overlap :
    let earlier : Span := ⟨"ababa", ⟨0, 3, by decide⟩⟩
    let later : Span := ⟨"ababa", ⟨2, 5, by decide⟩⟩
    find "ababa" "aba" (-4) = .ok later ∧ IsLeast (sites "ababa" "aba" (-4)) 2 ∧
      later.text = "aba" ∧
      sites "ababa" "aba" 3 = ∅ ∧ find "ababa" "aba" 3 = .error (.absent "aba") ∧
      "aba" ≠ "" ∧ ∀ others, Visits "ababa" "aba" 0 others ↔ others = [earlier] := by
  intro earlier later
  have hlater : find "ababa" "aba" (-4) = .ok later := rfl
  have hearlier : find "ababa" "aba" 0 = .ok earlier := rfl
  have habsent : find "ababa" "aba" 3 = .error (.absent "aba") := rfl
  have hne : "aba" ≠ "" := by decide
  rcases find_leftmost "ababa" "aba" (-4) with ⟨-, hfound, -, -⟩
  rcases find_leftmost "ababa" "aba" 3 with ⟨hsome, -, hnone, -⟩
  rcases find_leftmost "ababa" "aba" 0 with ⟨-, -, -, hvisits⟩
  rcases hfound later hlater with ⟨-, hleast, htext, -⟩
  rcases hvisits hne with ⟨spans, hspans, -⟩
  have hempty : sites "ababa" "aba" 3 = ∅ := by
    rw [← Set.not_nonempty_iff_eq_empty, ← hsome, habsent]
    simp
  have hrun : [earlier] = spans := (hspans _).1 (.next hearlier (.stop habsent))
  refine ⟨hlater, hleast, htext, hempty, hnone hempty, hne, ?_⟩
  rw [hrun]
  exact hspans

end Span

end RubyTree.Text
