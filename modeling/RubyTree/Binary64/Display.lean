import RubyTree.Binary64.Decimal

/-!
# Written numbers

A number is written with the fewest digits that read back.  It always has a
point or an exponent, so that it is not taken for a whole number.

Main results:

- `Layout.decimal` holds the decisions of the format: where positional notation
  ends and how many digits an exponent has.
- `Binary64.display` is the written form.
-/

namespace RubyTree

/-- The decisions of a number format. -/
structure Layout where
  /-- The least exponent of the first digit that is written positionally. -/
  leastPositional : Int
  /-- The greatest exponent of the first digit that is written positionally. -/
  greatestPositional : Int
  /-- The least number of digits of an exponent. -/
  exponentWidth : Nat

namespace Layout

/-- Positional from 1e-4 to below 1e16, exponents in two digits at least. -/
def decimal : Layout :=
  ⟨-4, 15, 2⟩

/-- The digits of a number, with zeros in front up to a width. -/
def padded (width n : Nat) : List Char :=
  let digits := Nat.toDigits 10 n
  List.replicate (width - digits.length) '0' ++ digits

/-- Digits around a point.  A whole number ends in `.0`. -/
def positional (digits : List Char) (point : Int) : List Char :=
  if point ≤ 0 then
    '0' :: '.' :: List.replicate (-point).toNat '0' ++ digits
  else if point < digits.length then
    digits.take point.toNat ++ '.' :: digits.drop point.toNat
  else
    digits ++ List.replicate (point.toNat - digits.length) '0' ++ ['.', '0']

/-- One digit before the point and an exponent with a sign. -/
def scientific (layout : Layout) (digits : List Char) (exponent : Int) : List Char :=
  let mantissa :=
    match digits with
    | first :: second :: rest => first :: '.' :: second :: rest
    | short => short
  mantissa ++ 'e' :: (if exponent < 0 then '-' else '+') ::
    padded layout.exponentWidth exponent.natAbs

/-- The written form of a decimal. -/
def write (layout : Layout) (x : Decimal) : List Char :=
  let digits := Nat.toDigits 10 x.coefficient
  let exponent := x.exponent + digits.length - 1
  if layout.leastPositional ≤ exponent ∧ exponent ≤ layout.greatestPositional then
    positional digits (exponent + 1)
  else
    layout.scientific digits exponent

end Layout

namespace Binary64

/-- The sign in front of a number. -/
def sign (negative : Bool) : List Char :=
  if negative then ['-'] else []

/-- The written form of a binary value. -/
def display : Binary64 → List Char
  | .finite negative rank => sign negative ++
      (if rank.val = 0 then ['0', '.', '0'] else Layout.decimal.write (shortest rank.val))
  | .infinite negative => sign negative ++ ['i', 'n', 'f']
  | .nan => ['n', 'a', 'n']

end Binary64

end RubyTree
