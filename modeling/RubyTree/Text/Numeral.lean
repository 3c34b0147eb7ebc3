import RubyTree.Binary64.Decimal
import RubyTree.Text.Blank
import RubyTree.Text.Digit

/-!
# Numerals

A numeral is an optional sign, groups of digits joined by single underscores,
an optional fraction of such groups, and an optional exponent.  Digits of every
script count.

Main results:

- `Numeral.ofWord?` accepts a word that is a numeral from end to end.
- `Numeral.isWhole` tells whole numbers from fractions; `Numeral.toInt` and
  `Numeral.toBinary64` are the values.
-/

namespace RubyTree.Text

/-! ## Parts of a numeral -/

/-- Takes a sign off the front and tells whether it is a minus. -/
def takeSign : List Char → Bool × List Char
  | '+' :: rest => (false, rest)
  | '-' :: rest => (true, rest)
  | rest => (false, rest)

/-- Takes digits off the front. -/
def takeDigits : List Char → List Nat × List Char
  | [] => ([], [])
  | c :: rest =>
    match digitValue? c with
    | some d =>
      let (digits, after) := takeDigits rest
      (d :: digits, after)
    | none => ([], c :: rest)

/-- Takes what may follow a digit of a group off the front: more digits, each of which may have
one underscore before it. -/
def takeGroupRest : List Char → List Nat × List Char
  | [] => ([], [])
  | '_' :: c :: rest =>
    match digitValue? c with
    | some d =>
      let (digits, after) := takeGroupRest rest
      (d :: digits, after)
    | none => ([], '_' :: c :: rest)
  | c :: rest =>
    match digitValue? c with
    | some d =>
      let (digits, after) := takeGroupRest rest
      (d :: digits, after)
    | none => ([], c :: rest)

/-- Takes groups of digits, joined by single underscores, off the front. -/
def takeGroups : List Char → List Nat × List Char
  | [] => ([], [])
  | c :: rest =>
    match digitValue? c with
    | some d =>
      let (digits, after) := takeGroupRest rest
      (d :: digits, after)
    | none => ([], c :: rest)

/-- The number with the given digits in base ten. -/
def ofDigits (digits : List Nat) : Nat :=
  digits.foldl (fun n d => 10 * n + d) 0

/-- A number with a sign. -/
def signed (negative : Bool) (n : Nat) : Int :=
  if negative then -(n : Int) else n

/-- An exponent at the front: its letter, an optional sign, and at least one digit. -/
def takeExponent : List Char → Option Int × List Char
  | [] => (none, [])
  | c :: rest =>
    if c = 'e' ∨ c = 'E' then
      let (negative, unsigned) := takeSign rest
      match takeDigits unsigned with
      | ([], _) => (none, c :: rest)
      | (digits, after) => (some (signed negative (ofDigits digits)), after)
    else (none, c :: rest)

/-! ## Numerals -/

/-- The parts of a written number. -/
structure Numeral where
  /-- The sign is a minus. -/
  negative : Bool
  /-- The digits before the point. -/
  whole : List Nat
  /-- The digits behind the point, if there is one. -/
  fraction : Option (List Nat)
  /-- The exponent, if there is one. -/
  exponent : Option Int
deriving DecidableEq

namespace Numeral

/-- A fraction at the front: a point and at least one digit. -/
def takeFraction : List Char → Option (List Nat) × List Char
  | '.' :: rest =>
    match takeGroups rest with
    | ([], _) => (none, '.' :: rest)
    | (digits, after) => (some digits, after)
  | rest => (none, rest)

/-- Reads a word that is a numeral from end to end. -/
def ofWord? (word : List Char) : Option Numeral :=
  let (negative, unsigned) := takeSign word
  match takeGroups unsigned with
  | ([], _) => none
  | (whole, afterWhole) =>
    let (fraction, afterFraction) := takeFraction afterWhole
    let (exponent, after) := takeExponent afterFraction
    if after.isEmpty then some ⟨negative, whole, fraction, exponent⟩ else none

/-- There is neither a fraction nor an exponent. -/
def isWhole (numeral : Numeral) : Bool :=
  numeral.fraction.isNone && numeral.exponent.isNone

/-- The signed whole number of the digits before the point.  There may be any number of digits: a
limit of the platform on how many it reads (4300 where nothing else is set) is left out. -/
def toInt (numeral : Numeral) : Int :=
  signed numeral.negative (ofDigits numeral.whole)

/-- The magnitude as a decimal. -/
def toDecimal (numeral : Numeral) : Decimal :=
  let fraction := numeral.fraction.getD []
  ⟨ofDigits (numeral.whole ++ fraction), numeral.exponent.getD 0 - fraction.length⟩

/-- The nearest binary value. -/
def toBinary64 (numeral : Numeral) : Binary64 :=
  .ofDecimal numeral.negative numeral.toDecimal

end Numeral

end RubyTree.Text
