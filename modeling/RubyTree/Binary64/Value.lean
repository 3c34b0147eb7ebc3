/-!
# Binary floating-point values

A value of the 64-bit binary format is a sign with a finite magnitude, a signed
infinity, or not a number.  The finite magnitudes are numbered in increasing
order, and the number, called the rank, is what is stored: consecutive ranks
are neighbouring magnitudes.  Every finite magnitude is a whole multiple of the
least positive one, so exact arithmetic on magnitudes is arithmetic on natural
numbers.

Main results:

- `units` is the magnitude of a rank as a multiple of the least positive one.
- `nearestRank` is the rank nearest to a quotient of such units, the even rank
  at a tie, and finds the rank of every finite magnitude (`nearestRank_units`).
-/

namespace RubyTree

/-- The number of magnitudes in one binade, two to the power 52. -/
def binadeSize : Nat :=
  0x10000000000000

/-- The number of finite magnitudes. -/
def rankCount : Nat :=
  2047 * binadeSize

/-- A value of the 64-bit binary floating-point format. -/
inductive Binary64 where
  /-- A signed finite magnitude, by its rank. -/
  | finite (negative : Bool) (rank : Fin rankCount)
  /-- An infinity. -/
  | infinite (negative : Bool)
  /-- The value that is not a number. -/
  | nan
deriving DecidableEq

namespace Binary64

/-! ## Magnitudes as whole numbers -/

/-- The power of two between a magnitude and the least unit of its binade. -/
def binadeShift (rank : Nat) : Nat :=
  rank / binadeSize - 1

/-- The magnitude of a rank before it is scaled by its binade. -/
def significand (rank : Nat) : Nat :=
  rank - binadeShift rank * binadeSize

/-- The magnitude of a rank as a multiple of the least positive magnitude, two to the
power -1074. -/
def units (rank : Nat) : Nat :=
  significand rank <<< binadeShift rank

/-- The magnitude one as such a multiple. -/
def unitsPerOne : Nat :=
  1 <<< 1074

/-- The quotient, rounded to the nearest whole number and at a tie to the even one. -/
def roundHalfEven (numerator denominator : Nat) : Nat :=
  let quotient := numerator / denominator
  let twice := 2 * (numerator % denominator)
  if twice < denominator ∨ (twice = denominator ∧ quotient % 2 = 0) then quotient
  else quotient + 1

/-- The rank whose magnitude is nearest to a quotient of units, the even one at a tie.  The
ranks go on behind the finite ones, as if the exponents did. -/
def nearestRank (numerator denominator : Nat) : Nat :=
  let shift := Nat.log2 (numerator / denominator) - 52
  roundHalfEven numerator (denominator <<< shift) + shift * binadeSize

/-- The signed value of a rank; behind the finite ranks lies infinity. -/
def ofRank (negative : Bool) (rank : Nat) : Binary64 :=
  if h : rank < rankCount then .finite negative ⟨rank, h⟩ else .infinite negative

/-! ## Exact rounding of exact magnitudes -/

/-- A whole quotient is its own rounding. -/
theorem roundHalfEven_mul_left (n : Nat) {d : Nat} (hd : 0 < d) :
    roundHalfEven (d * n) d = n := by
  simp [roundHalfEven, Nat.mul_div_cancel_left n hd, hd]

/-- The shift of a rank is taken off the rank and given back. -/
theorem significand_add (rank : Nat) :
    significand rank + binadeShift rank * binadeSize = rank := by
  have h := Nat.div_add_mod rank binadeSize
  unfold significand binadeShift binadeSize at *
  omega

/-- The significand of a magnitude is below two binades. -/
theorem significand_lt (rank : Nat) : significand rank < 2 * binadeSize := by
  have h := Nat.div_add_mod rank binadeSize
  have hm := Nat.mod_lt rank (show 0 < binadeSize by decide)
  unfold significand binadeShift binadeSize at *
  omega

/-- The significand of a scaled magnitude fills its binade. -/
theorem binadeSize_le_significand {rank : Nat} (h : 0 < binadeShift rank) :
    binadeSize ≤ significand rank := by
  have hd := Nat.div_add_mod rank binadeSize
  unfold significand binadeShift binadeSize at *
  omega

/-- A magnitude lies in the binade that its shift names. -/
theorem log2_units_sub (rank : Nat) : Nat.log2 (units rank) - 52 = binadeShift rank := by
  have hlt := significand_lt rank
  have hle := @binadeSize_le_significand rank
  unfold units binadeSize at *
  generalize significand rank = m at *
  generalize binadeShift rank = s at *
  rw [Nat.shiftLeft_eq]
  by_cases hz : m * 2 ^ s = 0
  · have hm : m = 0 := by
      rcases Nat.mul_eq_zero.1 hz with h | h
      · exact h
      · exact absurd h (Nat.ne_of_gt (Nat.two_pow_pos s))
    have hs : s = 0 := by
      by_cases hs : 0 < s
      · have := hle hs
        omega
      · omega
    subst hm hs
    rfl
  · have hup : m * 2 ^ s < 2 ^ (53 + s) := by
      rw [Nat.pow_add]
      exact Nat.mul_lt_mul_of_pos_right hlt (Nat.two_pow_pos s)
    have h1 := (Nat.log2_lt hz).2 hup
    by_cases hs : 0 < s
    · have hlow : 2 ^ (52 + s) ≤ m * 2 ^ s := by
        rw [Nat.pow_add]
        exact Nat.mul_le_mul_right _ (hle hs)
      have h2 := (Nat.le_log2 hz).2 hlow
      omega
    · omega

/-- The rank of a finite magnitude is found from the magnitude, whatever the common factor. -/
theorem nearestRank_units (rank : Nat) {d : Nat} (hd : 0 < d) :
    nearestRank (d * units rank) d = rank := by
  unfold nearestRank
  simp only [Nat.mul_div_cancel_left _ hd, log2_units_sub]
  have h : d * units rank = (d <<< binadeShift rank) * significand rank := by
    unfold units
    rw [Nat.shiftLeft_eq, Nat.shiftLeft_eq, Nat.mul_assoc, Nat.mul_comm (2 ^ _)]
  have hpos : 0 < d <<< binadeShift rank := by
    rw [Nat.shiftLeft_eq]
    exact Nat.mul_pos hd (Nat.two_pow_pos _)
  rw [h, roundHalfEven_mul_left _ hpos]
  exact significand_add rank

/-- Different ranks have different magnitudes. -/
theorem units_injective {a b : Nat} (h : units a = units b) : a = b := by
  rw [← nearestRank_units a (d := 1) (by decide), ← nearestRank_units b (d := 1) (by decide), h]

/-! ## Exact comparison -/

/-- The signed multiple of the least positive magnitude. -/
def signedUnits (negative : Bool) (rank : Nat) : Int :=
  if negative then -(units rank : Int) else units rank

end Binary64

end RubyTree
