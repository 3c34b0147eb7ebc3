/-!
# Intervals of code points

Properties of characters are given by tables of closed intervals.  A table is
a list of intervals in increasing order, and a character has the property when
one of them holds its code point.

Main results:

- `Interval.holds` is membership in one interval and `covers` membership in a
  table; `covers_iff` states the latter as an existence.
-/

namespace RubyTree.Text

/-- A closed interval of code points. -/
structure Interval where
  /-- The least code point. -/
  first : Nat
  /-- The greatest code point. -/
  last : Nat
deriving DecidableEq

/-- The code point of the character lies between the two ends. -/
def Interval.holds (interval : Interval) (c : Char) : Bool :=
  interval.first ≤ c.toNat && c.toNat ≤ interval.last

/-- One of the intervals holds the character. -/
def covers (table : List Interval) (c : Char) : Bool :=
  table.any (·.holds c)

/-- A table covers a character exactly when one of its intervals does. -/
theorem covers_iff {table : List Interval} {c : Char} :
    covers table c = true ↔
      ∃ interval ∈ table, interval.first ≤ c.toNat ∧ c.toNat ≤ interval.last := by
  simp [covers, Interval.holds]

end RubyTree.Text
