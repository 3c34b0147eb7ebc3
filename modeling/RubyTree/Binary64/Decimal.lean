import RubyTree.Binary64.Value

/-!
# Decimal fractions and binary values

A decimal is a whole coefficient times a power of ten.  Reading rounds it once,
exactly, to the nearest binary value.  Writing searches the fewest digits that
read back: on the grid of one digit, of two, and so on, the two neighbours of
the value are tried, and the first grid with a hit wins.

Main results:

- `ofDecimal` reads a signed decimal.
- `Decimal.exact` is the decimal equal to a magnitude, and `shortest` the
  shortest decimal that reads back.
-/

namespace RubyTree

/-- A coefficient times a power of ten. -/
structure Decimal where
  /-- The whole coefficient. -/
  coefficient : Nat
  /-- The power of ten. -/
  exponent : Int
deriving DecidableEq

namespace Decimal

/-- A power of ten. -/
def power (n : Nat) : Nat :=
  Nat.pow 10 n

/-- The number of digits of a positive number. -/
def digitCount (n : Nat) : Nat :=
  (Nat.toDigits 10 n).length

/-- Takes zeros off the end of the coefficient; at most `fuel` of them. -/
def trimWith : Nat → Decimal → Decimal
  | 0, x => x
  | fuel + 1, x =>
    if x.coefficient ≠ 0 ∧ x.coefficient % 10 = 0 then
      trimWith fuel ⟨x.coefficient / 10, x.exponent + 1⟩
    else x

/-- The same decimal without zeros at the end of the coefficient. -/
def trim (x : Decimal) : Decimal :=
  trimWith (digitCount x.coefficient) x

end Decimal

namespace Binary64

/-! ## Reading -/

/-- The rank nearest to a decimal.  A decimal of 311 digits or more before the point is beyond
every finite magnitude, and one that starts behind 324 zeros is nearest to zero; both are told by
the digits alone, so that no power of ten is large. -/
def rankOfDecimal (x : Decimal) : Nat :=
  if x.coefficient = 0 then 0
  else
    let digitsBeforePoint := x.exponent + Decimal.digitCount x.coefficient
    if 310 < digitsBeforePoint then rankCount
    else if digitsBeforePoint < -323 then 0
    else
      nearestRank (x.coefficient * Decimal.power x.exponent.toNat * unitsPerOne)
        (Decimal.power (-x.exponent).toNat)

/-- The binary value nearest to a signed decimal. -/
def ofDecimal (negative : Bool) (x : Decimal) : Binary64 :=
  ofRank negative (rankOfDecimal x)

/-! ## Writing with the fewest digits -/

/-- The decimal equal to a magnitude. -/
def exactDecimal (rank : Nat) : Decimal :=
  ⟨units rank * Nat.pow 5 1074, -1074⟩

/-- The two neighbours of a magnitude among the multiples of a power of ten, the nearer one
first; at a tie the even one. -/
def neighbours (rank : Nat) (exponent : Int) : List Decimal :=
  let numerator := units rank * Decimal.power (-exponent).toNat
  let denominator := unitsPerOne * Decimal.power exponent.toNat
  let below := numerator / denominator
  let nearest := roundHalfEven numerator denominator
  [⟨nearest, exponent⟩, ⟨if nearest = below then below + 1 else below, exponent⟩]

/-- The number of digits of a positive magnitude before the point, or less the number of zeros
behind it. -/
def digitsBeforePoint (rank : Nat) : Int :=
  Decimal.digitCount (exactDecimal rank).coefficient - 1074

/-- The first decimal of 1, 2, … 17 digits that reads back, with no zeros at its end.  Seventeen
digits are always enough; the exact decimal stands behind them. -/
def shortest (rank : Nat) : Decimal :=
  let point := digitsBeforePoint rank
  let hit := (List.range 17).findSome? fun k =>
    (neighbours rank (point - (k + 1 : Nat))).find? (rankOfDecimal · = rank)
  (hit.getD (exactDecimal rank)).trim

end Binary64

end RubyTree
