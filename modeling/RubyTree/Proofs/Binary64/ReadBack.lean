import Mathlib.Tactic.Ring
import RubyTree.Proofs.Text.Numerals

/-!
# Written binary values read back

A finite binary value is written as the shortest decimal that is nearest to it,
in one of two layouts.  Rounding a decimal does not depend on how its powers of
ten are shared between coefficient and exponent, so no layout changes the value.

Main results:

- `rankOfDecimal_shift`: a ten may move between coefficient and exponent.
- `rankOfDecimal_shortest`: the shortest decimal is nearest to its value.
- `ofWord?_display`: what is written for a finite value is a numeral with a fraction
  or an exponent, and its nearest binary value is the one that was written.
-/

namespace RubyTree

open RubyTree.Text

namespace Binary64

/-! ## Rounding of scaled quotients -/

/-- A common factor does not change a rounded quotient. -/
theorem roundHalfEven_mul_mul {k : Nat} (hk : 0 < k) (n d : Nat) :
    roundHalfEven (k * n) (k * d) = roundHalfEven n d := by
  have hscale : 2 * (k * (n % d)) = k * (2 * (n % d)) := by ring
  unfold roundHalfEven
  simp only [Nat.mul_div_mul_left _ _ hk, Nat.mul_mod_mul_left, hscale, Nat.mul_lt_mul_left hk,
    Nat.mul_left_cancel_iff hk]

/-- A common factor does not change the nearest rank. -/
theorem nearestRank_mul_mul {k : Nat} (hk : 0 < k) (n d : Nat) :
    nearestRank (k * n) (k * d) = nearestRank n d := by
  unfold nearestRank
  simp only [Nat.mul_div_mul_left _ _ hk, Nat.shiftLeft_eq, Nat.mul_assoc,
    roundHalfEven_mul_mul hk]

/-! ## Moving powers of ten -/

/-- A zero behind a number is one more digit. -/
theorem digitCount_ten_mul {c : Nat} (hc : 0 < c) :
    Decimal.digitCount (10 * c) = Decimal.digitCount c + 1 := by
  have hdigits := Nat.toDigits_append_toDigits (b := 10) (by decide) hc (show 0 < 10 by decide)
  rw [Nat.add_zero] at hdigits
  rw [Decimal.digitCount, Decimal.digitCount, ← hdigits, List.length_append]
  rfl

/-- A ten may move from the coefficient into the exponent. -/
theorem rankOfDecimal_shift (c : Nat) (e : Int) :
    rankOfDecimal ⟨10 * c, e⟩ = rankOfDecimal ⟨c, e + 1⟩ := by
  rcases Nat.eq_zero_or_pos c with rfl | hc
  · simp [rankOfDecimal]
  have hpoint : e + (Decimal.digitCount c + 1 : Nat) = e + 1 + Decimal.digitCount c := by omega
  have hrank : nearestRank (10 * c * Decimal.power e.toNat * unitsPerOne)
        (Decimal.power (-e).toNat) =
      nearestRank (c * Decimal.power (e + 1).toNat * unitsPerOne)
        (Decimal.power (-(e + 1)).toNat) := by
    generalize unitsPerOne = one
    rcases Int.lt_or_le e 0 with he | he
    · have hzero : e.toNat = 0 ∧ (e + 1).toNat = 0 := by omega
      have hdown : (-e).toNat = (-(e + 1)).toNat + 1 := by omega
      have hten : Decimal.power ((-(e + 1)).toNat + 1) =
          10 * Decimal.power (-(e + 1)).toNat := by
        rw [Decimal.power, Nat.pow_eq, Nat.pow_succ, Nat.mul_comm]
        rfl
      rw [hzero.1, hzero.2, hdown, hten, Nat.mul_assoc, Nat.mul_assoc, Nat.mul_assoc,
        nearestRank_mul_mul (by decide)]
    · have hzero : (-e).toNat = 0 ∧ (-(e + 1)).toNat = 0 := by omega
      have hup : (e + 1).toNat = e.toNat + 1 := by omega
      have hten : Decimal.power (e.toNat + 1) = 10 * Decimal.power e.toNat := by
        rw [Decimal.power, Nat.pow_eq, Nat.pow_succ, Nat.mul_comm]
        rfl
      rw [hzero.1, hzero.2, hup, hten]
      congr 2
      ring
  unfold rankOfDecimal
  simp only [digitCount_ten_mul hc, hpoint, hrank, Nat.mul_eq_zero, show (10 : Nat) ≠ 0 by decide,
    false_or]

/-- Zeros at the end of the coefficient may move into the exponent. -/
theorem rankOfDecimal_zeros (n c : Nat) (e : Int) :
    rankOfDecimal ⟨10 ^ n * c, e⟩ = rankOfDecimal ⟨c, e + n⟩ := by
  induction n generalizing e with
  | zero => simp
  | succ n ih =>
    have hexponent : e + 1 + n = e + (n + 1 : Nat) := by omega
    rw [Nat.pow_succ, Nat.mul_comm (10 ^ n), Nat.mul_assoc, rankOfDecimal_shift, ih, hexponent]

/-- Trimming a decimal keeps what it is nearest to. -/
theorem rankOfDecimal_trimWith (fuel : Nat) (x : Decimal) :
    rankOfDecimal (Decimal.trimWith fuel x) = rankOfDecimal x := by
  induction fuel generalizing x with
  | zero => rfl
  | succ fuel ih =>
    unfold Decimal.trimWith
    split
    · next h =>
      have hten : 10 * (x.coefficient / 10) = x.coefficient := by omega
      rw [ih, ← rankOfDecimal_shift, hten]
    · rfl

/-! ## The shortest decimal -/

/-- Every finite magnitude is below two to the power 2098, in least units. -/
theorem units_lt {rank : Nat} (h : rank < rankCount) : units rank < 2 ^ 2098 := by
  have hshift : binadeShift rank ≤ 2045 := by
    unfold binadeShift rankCount binadeSize at *
    omega
  have hsignificand : significand rank < 2 ^ 53 := significand_lt rank
  calc units rank = significand rank * 2 ^ binadeShift rank := Nat.shiftLeft_eq _ _
    _ < 2 ^ 53 * 2 ^ binadeShift rank :=
        Nat.mul_lt_mul_of_pos_right hsignificand (Nat.two_pow_pos _)
    _ = 2 ^ (53 + binadeShift rank) := (Nat.pow_add 2 53 _).symm
    _ ≤ 2 ^ 2098 := Nat.pow_le_pow_right Nat.zero_lt_two (by omega)

/-- The coefficient of an exact decimal, in powers. -/
theorem coefficient_exactDecimal (rank : Nat) :
    (exactDecimal rank).coefficient = units rank * 5 ^ 1074 := by
  simp only [exactDecimal, Nat.pow_eq]

/-- The exact decimal of a positive magnitude has more than 750 digits and at most 1383. -/
theorem digitCount_exactDecimal {rank : Nat} (h : rank < rankCount) (hpos : 0 < units rank) :
    750 < Decimal.digitCount (exactDecimal rank).coefficient ∧
      Decimal.digitCount (exactDecimal rank).coefficient ≤ 1383 := by
  rw [coefficient_exactDecimal]
  constructor
  · have hlow : 10 ^ 750 ≤ units rank * 5 ^ 1074 := by
      calc 10 ^ 750 ≤ 5 ^ 1074 := by decide +kernel
        _ ≤ units rank * 5 ^ 1074 := Nat.le_mul_of_pos_left _ hpos
    have hnot := mt (Nat.length_toDigits_le_iff (b := 10) (k := 750) (by decide) (by decide)).1
      (Nat.not_lt.2 hlow)
    exact Nat.not_le.1 hnot
  · refine (Nat.length_toDigits_le_iff (by decide) (by decide)).2 ?_
    calc units rank * 5 ^ 1074 < 2 ^ 2098 * 5 ^ 1074 :=
          Nat.mul_lt_mul_of_pos_right (units_lt h) (Nat.pow_pos (by decide))
      _ ≤ 10 ^ 1383 := by decide +kernel

/-- A multiple of a power of five, in units of a power of two, is one in units of a power of
ten. -/
theorem mul_five_pow_mul_two_pow (u n : Nat) : u * 5 ^ n * 2 ^ n = 10 ^ n * u := by
  rw [Nat.mul_assoc, ← Nat.mul_pow, Nat.mul_comm]

/-- The exact decimal of a magnitude is nearest to it. -/
theorem rankOfDecimal_exactDecimal {rank : Nat} (h : rank < rankCount) :
    rankOfDecimal (exactDecimal rank) = rank := by
  rcases Nat.eq_zero_or_pos (units rank) with hzero | hpos
  · obtain rfl : rank = 0 := units_injective (hzero.trans (by decide))
    simp [rankOfDecimal, coefficient_exactDecimal, hzero]
  · rcases digitCount_exactDecimal h hpos with ⟨hlow, hhigh⟩
    have hexponent : (exactDecimal rank).exponent = -1074 := rfl
    have hnonzero : (exactDecimal rank).coefficient ≠ 0 := by
      rw [coefficient_exactDecimal]
      exact Nat.mul_ne_zero (Nat.ne_of_gt hpos) (Nat.ne_of_gt (Nat.pow_pos (by decide)))
    have hone : unitsPerOne = 2 ^ 1074 := Nat.one_shiftLeft 1074
    have hscale : (exactDecimal rank).coefficient * Decimal.power (-1074 : Int).toNat *
        unitsPerOne = 10 ^ 1074 * units rank := by
      rw [coefficient_exactDecimal, show Decimal.power (-1074 : Int).toNat = 1 from rfl, hone,
        Nat.mul_one, mul_five_pow_mul_two_pow]
    have hdenominator : Decimal.power (- -1074 : Int).toNat = 10 ^ 1074 := by
      rw [Decimal.power, Nat.pow_eq]
      rfl
    unfold rankOfDecimal
    rw [hexponent, if_neg hnonzero]
    simp only [hscale, hdenominator]
    rw [if_neg (by omega), if_neg (by omega)]
    exact nearestRank_units rank (Nat.pow_pos (by decide))

/-- The shortest decimal of a magnitude is nearest to it. -/
theorem rankOfDecimal_shortest {rank : Nat} (h : rank < rankCount) :
    rankOfDecimal (shortest rank) = rank := by
  unfold shortest Decimal.trim
  rw [rankOfDecimal_trimWith]
  cases hhit : (List.range 17).findSome? fun k =>
      (neighbours rank (digitsBeforePoint rank - (k + 1 : Nat))).find?
        (rankOfDecimal · = rank) with
  | none => exact rankOfDecimal_exactDecimal h
  | some x =>
    rcases List.exists_of_findSome?_eq_some hhit with ⟨k, -, hk⟩
    simpa using List.find?_some hk

/-! ## Layouts -/

/-- The text reads back as a decimal: behind a sign it is a numeral with a fraction or an
exponent, and rounds to the same binary value. -/
structure ReadsBack (body : List Char) (x : Decimal) : Prop where
  /-- Only characters of numerals are written. -/
  characters : ∀ negative, ∀ c ∈ sign negative ++ body, writesNumerals c = true
  /-- The numeral and what it is nearest to. -/
  numeral : ∀ negative, ∃ numeral, Numeral.ofWord? (sign negative ++ body) = some numeral ∧
    numeral.isWhole = false ∧ numeral.toBinary64 = ofDecimal negative x

/-- Digits with a fraction or an exponent read back as the decimal that they stand for. -/
theorem readsBack_written (whole : List Char) (fraction : Option (List Char))
    (exponent : Option (Bool × List Char)) (x : Decimal) (hne : whole ≠ [])
    (hwhole : AllDigits whole) (hfraction : ∀ run ∈ fraction, run ≠ [] ∧ AllDigits run)
    (hexponent : ∀ written ∈ exponent, written.2 ≠ [] ∧ AllDigits written.2)
    (hparts : fraction.isSome ∨ exponent.isSome)
    (hrank : rankOfDecimal
      ⟨ofDigits (digitValues (whole ++ fraction.getD [])),
        (exponent.map fun written => signed written.1 (ofDigits (digitValues written.2))).getD 0 -
          (fraction.getD []).length⟩ = rankOfDecimal x) :
    ReadsBack (whole ++ (writtenFraction fraction ++ writtenExponent exponent)) x where
  characters negative := writesNumerals_written negative hwhole
    (fun run hrun => (hfraction run hrun).2) (fun written hw => (hexponent written hw).2)
  numeral negative := by
    refine ⟨_, ofWord?_written negative hne hwhole hfraction hexponent, ?_, ?_⟩
    · cases fraction <;> cases exponent <;> simp [Numeral.isWhole] at hparts ⊢
    · have hdigits : digitValues whole ++ (fraction.map digitValues).getD [] =
          digitValues (whole ++ fraction.getD []) := by
        cases fraction <;> simp [digitValues]
      have hlength : ((fraction.map digitValues).getD []).length =
          (fraction.getD []).length := by
        cases fraction <;> simp [digitValues]
      simp only [Numeral.toBinary64, Numeral.toDecimal, ofDecimal, hdigits, hlength, hrank]

/-- Digits around a point read back. -/
theorem readsBack_point {whole run : List Char} {x : Decimal} (hne : whole ≠ [])
    (hwhole : AllDigits whole) (hrunNe : run ≠ []) (hrun : AllDigits run)
    (hrank : rankOfDecimal ⟨ofDigits (digitValues (whole ++ run)), -run.length⟩ =
      rankOfDecimal x) :
    ReadsBack (whole ++ '.' :: run) x := by
  have hfraction : ∀ other ∈ some run, other ≠ [] ∧ AllDigits other := by
    rintro other ⟨⟩
    exact ⟨hrunNe, hrun⟩
  have hback := readsBack_written whole (some run) none x hne hwhole hfraction (by simp)
    (by simp) (by simpa using hrank)
  simpa [writtenFraction, writtenExponent] using hback

variable {digits : List Char}

/-- Digits behind the point and behind zeros read back. -/
theorem readsBack_behind (hne : digits ≠ []) (hdigits : AllDigits digits) (n : Nat) :
    ReadsBack ('0' :: '.' :: (List.replicate n '0' ++ digits))
      ⟨ofDigits (digitValues digits), -(n : Int) - digits.length⟩ := by
  have hvalue : ofDigits (digitValues (['0'] ++ (List.replicate n '0' ++ digits))) =
      ofDigits (digitValues digits) := by
    rw [show ['0'] = List.replicate 1 '0' from rfl, ofDigits_zeros_append, ofDigits_zeros_append]
  have hexponent : -((List.replicate n '0' ++ digits).length : Int) =
      -(n : Int) - digits.length := by
    rw [List.length_append, List.length_replicate]
    omega
  exact readsBack_point (List.cons_ne_nil '0' []) (allDigits_zeros 1)
    (List.append_ne_nil_of_right_ne_nil _ hne) ((allDigits_zeros n).append hdigits)
    (by rw [hvalue, hexponent])

/-- Digits with the point between them read back. -/
theorem readsBack_between (hdigits : AllDigits digits) {n : Nat} (hpos : 0 < n)
    (hlt : n < digits.length) :
    ReadsBack (digits.take n ++ '.' :: digits.drop n)
      ⟨ofDigits (digitValues digits), n - (digits.length : Int)⟩ := by
  have htake : digits.take n ≠ [] := by
    intro hnil
    have hlength := congrArg List.length hnil
    rw [List.length_take, List.length_nil] at hlength
    omega
  have hdrop : digits.drop n ≠ [] := by
    intro hnil
    have hle := List.drop_eq_nil_iff.1 hnil
    omega
  have hexponent : -((digits.drop n).length : Int) = n - (digits.length : Int) := by
    rw [List.length_drop]
    omega
  exact readsBack_point htake (fun c hc => hdigits c (List.mem_of_mem_take hc)) hdrop
    (fun c hc => hdigits c (List.mem_of_mem_drop hc))
    (by rw [List.take_append_drop, hexponent])

/-- Digits and zeros before a point and a zero read back. -/
theorem readsBack_before (hne : digits ≠ []) (hdigits : AllDigits digits) (n : Nat) :
    ReadsBack (digits ++ List.replicate n '0' ++ ['.', '0'])
      ⟨ofDigits (digitValues digits), n⟩ := by
  have hvalue : ofDigits (digitValues (digits ++ List.replicate n '0' ++ ['0'])) =
      10 ^ (n + 1) * ofDigits (digitValues digits) := by
    rw [List.append_assoc, ← List.replicate_succ', ofDigits_append_zeros]
  have hexponent : -(['0'].length : Int) + (n + 1 : Nat) = n := by
    rw [List.length_singleton]
    omega
  exact readsBack_point (List.append_ne_nil_of_left_ne_nil hne _)
    (hdigits.append (allDigits_zeros n)) (List.cons_ne_nil '0' []) (allDigits_zeros 1)
    (by rw [hvalue, rankOfDecimal_zeros, hexponent])

/-- Digits in positional notation read back, wherever the point falls. -/
theorem readsBack_positional (hne : digits ≠ []) (hdigits : AllDigits digits) (point : Int) :
    ReadsBack (Layout.positional digits point)
      ⟨ofDigits (digitValues digits), point - digits.length⟩ := by
  unfold Layout.positional
  split
  · next hpoint =>
    have hback := readsBack_behind hne hdigits (-point).toNat
    rwa [show -((-point).toNat : Int) = point by omega] at hback
  · split
    · next hpositive hpoint =>
      have hback := readsBack_between hdigits (show 0 < point.toNat by omega)
        (show point.toNat < digits.length by omega)
      rwa [show (point.toNat : Int) = point by omega] at hback
    · next hpositive hpoint =>
      have hback := readsBack_before hne hdigits (point.toNat - digits.length)
      rwa [show ((point.toNat - digits.length : Nat) : Int) = point - digits.length by omega]
        at hback

/-- The digits of an exponent with zeros in front have its value. -/
theorem ofDigits_padded (width n : Nat) :
    ofDigits (digitValues (Layout.padded width n)) = n := by
  rw [Layout.padded, ofDigits_zeros_append, ofDigits_toDigits]

/-- The written exponent of a number is a signed run of digits. -/
theorem written_padded (width : Nat) (e : Int) :
    ∀ written ∈ some (decide (e < 0), Layout.padded width e.natAbs),
      written.2 ≠ [] ∧ AllDigits written.2 := by
  rintro written ⟨⟩
  exact ⟨List.append_ne_nil_of_right_ne_nil _ Nat.toDigits_ne_nil,
    (allDigits_zeros _).append (allDigits_toDigits _)⟩

/-- A digit before the point and an exponent read back. -/
theorem readsBack_scientific (layout : Layout) (hne : digits ≠ []) (hdigits : AllDigits digits)
    (e : Int) :
    ReadsBack (layout.scientific digits e)
      ⟨ofDigits (digitValues digits), e + 1 - digits.length⟩ := by
  have hexponent : ∀ behind : List Char, behind.length + 1 = digits.length →
      e - behind.length = e + 1 - digits.length := by
    intro behind hbehind
    omega
  unfold Layout.scientific
  split
  · next first second rest =>
    have hback := readsBack_written [first] (some (second :: rest))
      (some (decide (e < 0), Layout.padded layout.exponentWidth e.natAbs))
      ⟨ofDigits (digitValues (first :: second :: rest)),
        e + 1 - (first :: second :: rest).length⟩ (by simp)
      (fun c hc => hdigits c (List.mem_cons.2 (.inl (List.mem_singleton.1 hc))))
      (by
        rintro run ⟨⟩
        exact ⟨by simp, fun c hc => hdigits c (List.mem_cons_of_mem first hc)⟩)
      (written_padded _ e) (by simp) (by
        simp only [Option.map_some, Option.getD_some, ofDigits_padded, signed_natAbs,
          List.singleton_append, hexponent (second :: rest) rfl])
    simpa [writtenFraction, writtenExponent] using hback
  · next hshort =>
    rcases List.exists_cons_of_ne_nil hne with ⟨first, rest, rfl⟩
    obtain rfl : rest = [] := by
      cases rest with
      | nil => rfl
      | cons second rest => exact absurd rfl (hshort first second rest)
    have hback := readsBack_written [first] none
      (some (decide (e < 0), Layout.padded layout.exponentWidth e.natAbs))
      ⟨ofDigits (digitValues [first]), e + 1 - [first].length⟩ hne hdigits (by simp)
      (written_padded _ e) (by simp) (by
        simp only [Option.map_some, Option.getD_some, Option.getD_none, ofDigits_padded,
          signed_natAbs, List.append_nil, hexponent [] rfl])
    simpa [writtenFraction, writtenExponent] using hback

/-- A decimal reads back in every layout. -/
theorem readsBack_write (layout : Layout) (x : Decimal) : ReadsBack (layout.write x) x := by
  have hne : Nat.toDigits 10 x.coefficient ≠ [] := Nat.toDigits_ne_nil
  have hdigits := allDigits_toDigits x.coefficient
  have hvalue : (⟨ofDigits (digitValues (Nat.toDigits 10 x.coefficient)), x.exponent⟩ : Decimal) =
      x := by
    rw [ofDigits_toDigits]
  have hpoint : x.exponent + (Nat.toDigits 10 x.coefficient).length - 1 + 1 -
      (Nat.toDigits 10 x.coefficient).length = x.exponent := by
    omega
  unfold Layout.write
  simp only
  split
  · have hback := readsBack_positional hne hdigits
      (x.exponent + (Nat.toDigits 10 x.coefficient).length - 1 + 1)
    rwa [hpoint, hvalue] at hback
  · have hback := readsBack_scientific layout hne hdigits
      (x.exponent + (Nat.toDigits 10 x.coefficient).length - 1)
    rwa [hpoint, hvalue] at hback

/-! ## Finite values -/

/-- What is written for the magnitude of a rank reads back as its shortest decimal. -/
theorem readsBack_magnitude {rank : Nat} (h : rank < rankCount) :
    ∃ x, rankOfDecimal x = rank ∧ ReadsBack
      (if rank = 0 then ['0', '.', '0'] else Layout.decimal.write (shortest rank)) x := by
  split
  · next hzero =>
    subst hzero
    refine ⟨⟨0, -1⟩, by simp [rankOfDecimal], ?_⟩
    exact readsBack_positional (by decide : ['0'] ≠ []) (allDigits_zeros 1) 0
  · exact ⟨shortest rank, rankOfDecimal_shortest h, readsBack_write _ _⟩

/-- A finite value is written as a numeral with a fraction or an exponent, and that numeral is
nearest to the value. -/
theorem ofWord?_display (negative : Bool) (rank : Fin rankCount) :
    ∃ numeral, Numeral.ofWord? (display (.finite negative rank)) = some numeral ∧
      numeral.isWhole = false ∧ numeral.toBinary64 = .finite negative rank := by
  rcases readsBack_magnitude rank.isLt with ⟨x, hrank, hback⟩
  rcases hback.numeral negative with ⟨numeral, hword, hwhole, hvalue⟩
  refine ⟨numeral, hword, hwhole, ?_⟩
  rw [hvalue, ofDecimal, hrank, ofRank, dif_pos rank.isLt]

/-- A finite value is written with characters of numerals. -/
theorem writesNumerals_display (negative : Bool) (rank : Fin rankCount) :
    ∀ c ∈ display (.finite negative rank), writesNumerals c = true := by
  rcases readsBack_magnitude rank.isLt with ⟨x, -, hback⟩
  exact hback.characters negative

end Binary64

end RubyTree
