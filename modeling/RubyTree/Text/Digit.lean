/-!
# Decimal digits

Every script with decimal digits has ten of them in a row, from its zero to its
nine.  A table of the zeros therefore gives the digits and their values.

Main results:

- `digitValue?` is the value of a decimal digit of any script; it is below ten
  (`digitValue?_lt`) and extends the ASCII digits (`digitValue?_of_isDigit`).
- `hexValue?` extends it by the letters of base sixteen.
-/

namespace RubyTree.Text

/-- The code points of the digits zero. -/
def zeros : List Nat :=
  [0x30, 0x660, 0x6F0, 0x7C0, 0x966, 0x9E6, 0xA66, 0xAE6, 0xB66, 0xBE6, 0xC66, 0xCE6, 0xD66, 0xDE6,
   0xE50, 0xED0, 0xF20, 0x1040, 0x1090, 0x17E0, 0x1810, 0x1946, 0x19D0, 0x1A80, 0x1A90, 0x1B50,
   0x1BB0, 0x1C40, 0x1C50, 0xA620, 0xA8D0, 0xA900, 0xA9D0, 0xA9F0, 0xAA50, 0xABF0, 0xFF10, 0x104A0,
   0x10D30, 0x11066, 0x110F0, 0x11136, 0x111D0, 0x112F0, 0x11450, 0x114D0, 0x11650, 0x116C0,
   0x11730, 0x118E0, 0x11950, 0x11C50, 0x11D50, 0x11DA0, 0x16A60, 0x16AC0, 0x16B50, 0x1D7CE,
   0x1D7D8, 0x1D7E2, 0x1D7EC, 0x1D7F6, 0x1E140, 0x1E2F0, 0x1E950, 0x1FBF0]

/-- The value of a decimal digit. -/
def digitValue? (c : Char) : Option Nat :=
  (zeros.find? fun z => z ≤ c.toNat && c.toNat < z + 10).map (c.toNat - ·)

/-- The character is a decimal digit. -/
def isDecimal (c : Char) : Bool :=
  (digitValue? c).isSome

/-- A decimal digit is worth less than ten. -/
theorem digitValue?_lt {c : Char} {d : Nat} (h : digitValue? c = some d) : d < 10 := by
  obtain ⟨z, hz, rfl⟩ := Option.map_eq_some_iff.1 h
  have := List.find?_some hz
  simp only [Bool.and_eq_true, decide_eq_true_eq] at this
  omega

/-- An ASCII digit is worth its distance from zero. -/
theorem digitValue?_of_isDigit {c : Char} (h : c.isDigit = true) :
    digitValue? c = some (c.toNat - 0x30) := by
  simp only [Char.isDigit, Bool.and_eq_true, decide_eq_true_eq, UInt32.le_iff_toNat_le,
    ge_iff_le] at h
  have hc : 0x30 ≤ c.toNat ∧ c.toNat < 0x30 + 10 := by
    have h1 : (48 : Nat) ≤ c.toNat := h.1
    have h2 : c.toNat ≤ 57 := h.2
    omega
  simp [digitValue?, zeros, hc]

/-- The value of a digit of base sixteen: a decimal digit, or a letter from `a` to `f` in
either case. -/
def hexValue? (c : Char) : Option Nat :=
  match digitValue? c with
  | some d => some d
  | none =>
    if 'a' ≤ c && c ≤ 'f' then some (c.toNat - 'a'.toNat + 10)
    else if 'A' ≤ c && c ≤ 'F' then some (c.toNat - 'A'.toNat + 10)
    else none

end RubyTree.Text
