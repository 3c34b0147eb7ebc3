/-!
# Sizes and ranges of text

A size counts code points, and a range is the half-open stretch of offsets
between two of them.  Both are built from integers that may be out of order,
so their constructors can refuse.

Main results:

- `Size.ofInt` and `Range.ofBounds` accept exactly the valid integers
  (`Range.ofBounds_eq_ok_iff`).
- `Range.cover` is the least range around two ranges.
- `Range.before` is the lexicographic order of ranges.
-/

namespace RubyTree.Text

/-! ## Refusals -/

/-- Why integers do not make a size or a range. -/
inductive RangeError where
  /-- A size below zero. -/
  | negativeSize
  /-- An offset below zero. -/
  | negativeOffset
  /-- A start behind the end. -/
  | startPastEnd
deriving DecidableEq

/-- The text of a refusal. -/
def RangeError.message : RangeError → String
  | .negativeSize => "TextSize cannot be negative"
  | .negativeOffset => "TextRange positions cannot be negative"
  | .startPastEnd => "TextRange invariant violated: start > end"

/-! ## Sizes -/

/-- A number of code points, and so an offset in a text. -/
structure Size where
  /-- The number. -/
  value : Nat
deriving DecidableEq

namespace Size

/-- The size that an integer stands for. -/
def ofInt (value : Int) : Except RangeError Size :=
  if value < 0 then .error .negativeSize else .ok ⟨value.toNat⟩

/-- The size of a text. -/
def ofText (text : String) : Size :=
  ⟨text.length⟩

/-- The display form of a size. -/
def display (size : Size) : String :=
  "TextSize(" ++ toString size.value ++ ")"

end Size

/-! ## Ranges -/

/-- The offsets from a start up to, and without, an end. -/
structure Range where
  /-- The first offset of the range. -/
  start : Nat
  /-- The first offset behind the range. -/
  stop : Nat
  /-- The range does not run backwards. -/
  start_le_stop : start ≤ stop := by omega
deriving DecidableEq

namespace Range

/-- The range between two integers. -/
def ofBounds (start stop : Int) : Except RangeError Range :=
  if start < 0 ∨ stop < 0 then .error .negativeOffset
  else if h : stop < start then .error .startPastEnd
  else .ok ⟨start.toNat, stop.toNat, by omega⟩

/-- The range of a length that starts at an offset. -/
def ofLength (offset length : Size) : Range :=
  ⟨offset.value, offset.value + length.value, by omega⟩

/-- The integers of a range are in order and not below zero, and those are all that is asked. -/
theorem ofBounds_eq_ok_iff {start stop : Int} {range : Range} :
    ofBounds start stop = .ok range ↔ start = range.start ∧ stop = range.stop := by
  obtain ⟨s, e, h⟩ := range
  unfold ofBounds
  split
  · simp only [reduceCtorEq, false_iff]; omega
  · split
    · simp only [reduceCtorEq, false_iff]; omega
    · simp only [Except.ok.injEq, mk.injEq]; omega

/-- The least range around two ranges. -/
def cover (a b : Range) : Range :=
  ⟨min a.start b.start, max a.stop b.stop, by
    have := a.start_le_stop
    omega⟩

/-- The order of ranges: by start, then by end. -/
def before (a b : Range) : Bool :=
  a.start < b.start || (a.start == b.start && a.stop < b.stop)

/-- The display form of a range. -/
def display (range : Range) : String :=
  "TextRange(" ++ toString range.start ++ ", " ++ toString range.stop ++ ")"

/-- The part of a text that lies in the range; a text that ends earlier gives less. -/
def slice (range : Range) (text : List Char) : List Char :=
  (text.take range.stop).drop range.start

/-- A range that ends within the text cuts out as many characters as it is long. -/
theorem length_slice {range : Range} {text : List Char} (h : range.stop ≤ text.length) :
    (range.slice text).length = range.stop - range.start := by
  simp [slice, Nat.min_eq_left h]

end Range

end RubyTree.Text
