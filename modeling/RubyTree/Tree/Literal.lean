import RubyTree.Binary64.Value

/-!
# Literals

The leaves of a syntax tree are literals.  Two literals can be the same, which
is equality in the logic, or only equal as numbers: truth values count as one
and zero, and whole numbers and binary values are compared exactly.

Main results:

- `Literal` is the type of leaves; sameness is decidable.
- `Literal.equal` is the numeric equality.  It is symmetric
  (`Literal.equal_comm`), and reflexive apart from the value that is not a
  number (`Literal.equal_self`).
-/

namespace RubyTree

/-! ## Symbols -/

/-- A Ruby symbol.  It is never equal to the string of the same name. -/
structure Symbol where
  /-- The name, without the colon. -/
  name : String
deriving DecidableEq

namespace Symbol

/-- The name behind a colon, as it is. -/
def display (symbol : Symbol) : String :=
  ":" ++ symbol.name

/-- Symbols are ordered by the code points of their names. -/
def before (a b : Symbol) : Bool :=
  a.name < b.name

/-- Symbols in their order. -/
def sorted (symbols : List Symbol) : List Symbol :=
  symbols.mergeSort fun a b => !b.before a

end Symbol

/-! ## Literals -/

/-- A leaf of a syntax tree. -/
inductive Literal where
  /-- The absent value. -/
  | nil
  /-- A truth value. -/
  | bool (value : Bool)
  /-- A whole number. -/
  | int (value : Int)
  /-- A binary floating-point value. -/
  | float (value : Binary64)
  /-- A string. -/
  | str (value : String)
  /-- A symbol. -/
  | sym (value : Symbol)
deriving DecidableEq

namespace Literal

/-! ## Numeric equality -/

/-- A number that literals are compared by: a multiple of the least positive binary value, or
an infinity. -/
inductive Number where
  /-- A finite number, as a multiple of two to the power -1074. -/
  | finite (units : Int)
  /-- An infinity. -/
  | infinite (negative : Bool)
deriving DecidableEq

/-- The number that a literal stands for. -/
def number? : Literal → Option Number
  | .bool value => some (.finite (if value then Binary64.unitsPerOne else 0))
  | .int value => some (.finite (value * Binary64.unitsPerOne))
  | .float (.finite negative rank) => some (.finite (Binary64.signedUnits negative rank))
  | .float (.infinite negative) => some (.infinite negative)
  | _ => none

/-- The literal is the value that is not a number. -/
def isNaN : Literal → Bool
  | .float .nan => true
  | _ => false

/-- Two literals are equal: as numbers if both are numbers, and else by being the same.  What is
not a number equals nothing. -/
def equal (a b : Literal) : Bool :=
  match a.number?, b.number? with
  | some m, some n => m = n
  | none, none => a = b && !a.isNaN
  | _, _ => false

/-- Equality does not depend on the order of the two literals. -/
theorem equal_comm (a b : Literal) : a.equal b = b.equal a := by
  unfold equal
  cases ha : a.number? <;> cases hb : b.number? <;> simp only
  · by_cases h : a = b
    · subst h; rfl
    · simp [h, Ne.symm h]
  · simp [eq_comm]

/-- A literal equals itself unless it is not a number. -/
theorem equal_self {a : Literal} (h : a.isNaN = false) : a.equal a = true := by
  unfold equal
  cases a.number? <;> simp [h]

end Literal

end RubyTree
