import Mathlib.Algebra.Group.Nat.Defs
import RubyTree.Binary64.Display
import RubyTree.Text.Numeral

/-!
# Reading back written numerals

A numeral that is written with ASCII digits is read part by part: the sign, the
digits before the point, the fraction and the exponent.  The number of its digits
is the one of the core library.

Main results:

- `takeGroups_run`: groups of digits are taken up to the first other character.
- `ofWord?_written`: a written numeral is read as its parts.
- `ofDigits_toDigits`: the digits of a number have its value.
- `writesNumerals` are the characters that written numerals consist of
  (`writesNumerals_written`).
-/

namespace RubyTree.Text

/-! ## Runs of digits -/

/-- The values of ASCII digits. -/
def digitValues (run : List Char) : List Nat :=
  run.map fun c => c.toNat - '0'.toNat

/-- The characters are ASCII digits. -/
def AllDigits (run : List Char) : Prop :=
  ∀ c ∈ run, c.isDigit = true

/-- No digit, and nothing that joins digits, stands in front of the text. -/
def EndsDigits (rest : List Char) : Prop :=
  ∀ c ∈ rest.head?, digitValue? c = none ∧ c ≠ '_'

/-- At the end of the text digits end. -/
theorem endsDigits_nil : EndsDigits [] := by
  simp [EndsDigits]

/-- Digits end at a character that is neither a digit nor an underscore. -/
theorem endsDigits_cons {c : Char} (rest : List Char) (hdigit : digitValue? c = none)
    (hjoin : c ≠ '_') : EndsDigits (c :: rest) := by
  rintro d ⟨⟩
  exact ⟨hdigit, hjoin⟩

/-- Digits behind a digit are taken up to where they end. -/
theorem takeGroupRest_run {run rest : List Char} (hrun : AllDigits run) (hrest : EndsDigits rest) :
    takeGroupRest (run ++ rest) = (digitValues run, rest) := by
  induction run with
  | nil =>
    cases rest with
    | nil => rfl
    | cons c rest =>
      rcases hrest c rfl with ⟨hdigit, hjoin⟩
      rw [List.nil_append, takeGroupRest, hdigit]
      · rfl
      · exact fun _ _ h _ => hjoin h
  | cons c run ih =>
    have hc : c.isDigit = true := hrun c List.mem_cons_self
    have hjoin : c ≠ '_' := by
      rintro rfl
      exact absurd hc (by decide)
    rw [List.cons_append, takeGroupRest, digitValue?_of_isDigit hc,
      ih fun d hd => hrun d (List.mem_cons_of_mem c hd)]
    · rfl
    · exact fun _ _ h _ => hjoin h

/-- Digits are taken up to where they end. -/
theorem takeGroups_run {run rest : List Char} (hne : run ≠ []) (hrun : AllDigits run)
    (hrest : EndsDigits rest) : takeGroups (run ++ rest) = (digitValues run, rest) := by
  rcases List.exists_cons_of_ne_nil hne with ⟨c, run, rfl⟩
  have hc : c.isDigit = true := hrun c List.mem_cons_self
  rw [List.cons_append, takeGroups, digitValue?_of_isDigit hc]
  simp only [takeGroupRest_run (fun d hd => hrun d (List.mem_cons_of_mem c hd)) hrest]
  rfl

/-- Digits without joints are taken up to where they end. -/
theorem takeDigits_run {run : List Char} (hrun : AllDigits run) :
    takeDigits run = (digitValues run, []) := by
  induction run with
  | nil => rfl
  | cons c run ih =>
    have hc : c.isDigit = true := hrun c List.mem_cons_self
    rw [takeDigits, digitValue?_of_isDigit hc, ih fun d hd => hrun d (List.mem_cons_of_mem c hd)]
    rfl

/-! ## Values of runs -/

/-- The value of a run of digits is the one of the core library. -/
theorem ofDigits_digitValues (run : List Char) :
    ofDigits (digitValues run) = Nat.ofDigitChars 10 run 0 := by
  rw [ofDigits, digitValues, List.foldl_map, Nat.ofDigitChars_eq_foldl]

/-- The written digits of a number are ASCII digits. -/
theorem allDigits_toDigits (n : Nat) : AllDigits (Nat.toDigits 10 n) :=
  fun _ hc => Nat.isDigit_of_mem_toDigits (by decide) (by decide) hc

/-- The written digits of a number have its value. -/
theorem ofDigits_toDigits (n : Nat) : ofDigits (digitValues (Nat.toDigits 10 n)) = n := by
  rw [ofDigits_digitValues, Nat.ofDigitChars_ten_toDigits]

/-- Zeros are ASCII digits. -/
theorem allDigits_zeros (n : Nat) : AllDigits (List.replicate n '0') := by
  intro c hc
  rw [List.eq_of_mem_replicate hc]
  decide

/-- Digits behind digits are digits. -/
theorem AllDigits.append {front back : List Char} (hfront : AllDigits front)
    (hback : AllDigits back) : AllDigits (front ++ back) :=
  List.forall_mem_append.2 ⟨hfront, hback⟩

/-- Zeros in front do not count. -/
theorem ofDigits_zeros_append (n : Nat) (run : List Char) :
    ofDigits (digitValues (List.replicate n '0' ++ run)) = ofDigits (digitValues run) := by
  rw [ofDigits_digitValues, ofDigits_digitValues, Nat.ofDigitChars_append,
    Nat.ofDigitChars_replicate_zero, Nat.mul_zero]

/-- Each zero at the end counts ten times. -/
theorem ofDigits_append_zeros (n : Nat) (run : List Char) :
    ofDigits (digitValues (run ++ List.replicate n '0')) =
      10 ^ n * ofDigits (digitValues run) := by
  rw [ofDigits_digitValues, ofDigits_digitValues, Nat.ofDigitChars_append,
    Nat.ofDigitChars_replicate_zero]

/-- The sign and the magnitude of a number give it back. -/
theorem signed_natAbs (e : Int) : signed (decide (e < 0)) e.natAbs = e := by
  unfold signed
  split
  · next h =>
    have := of_decide_eq_true h
    omega
  · next h =>
    have : ¬ e < 0 := fun hneg => h (decide_eq_true hneg)
    omega

/-! ## Written numerals -/

/-- A fraction as it is written, if there is one. -/
def writtenFraction : Option (List Char) → List Char
  | none => []
  | some run => '.' :: run

/-- An exponent as it is written, if there is one: its sign is a minus, and its digits. -/
def writtenExponent : Option (Bool × List Char) → List Char
  | none => []
  | some (negative, run) => 'e' :: (if negative then '-' else '+') :: run

/-- A sign in front of a digit is taken. -/
theorem takeSign_written (negative : Bool) {run : List Char} (hne : run ≠ [])
    (hrun : AllDigits run) (rest : List Char) :
    takeSign (Binary64.sign negative ++ (run ++ rest)) = (negative, run ++ rest) := by
  rcases List.exists_cons_of_ne_nil hne with ⟨c, run, rfl⟩
  have hc : c.isDigit = true := hrun c List.mem_cons_self
  cases negative with
  | true => rfl
  | false =>
    simp only [Binary64.sign, Bool.false_eq_true, if_false, List.nil_append, List.cons_append]
    unfold takeSign
    split
    · next h => cases h; exact absurd hc (by decide)
    · next h => cases h; exact absurd hc (by decide)
    · rfl

/-- Digits end at a written exponent. -/
theorem endsDigits_writtenExponent (exponent : Option (Bool × List Char)) :
    EndsDigits (writtenExponent exponent) := by
  cases exponent with
  | none => exact endsDigits_nil
  | some exponent => exact endsDigits_cons _ (by decide) (by decide)

/-- Digits end at a written fraction. -/
theorem endsDigits_writtenFraction (fraction : Option (List Char))
    (exponent : Option (Bool × List Char)) :
    EndsDigits (writtenFraction fraction ++ writtenExponent exponent) := by
  cases fraction with
  | none => exact endsDigits_writtenExponent exponent
  | some run => exact endsDigits_cons _ (by decide) (by decide)

/-- A written fraction is taken. -/
theorem takeFraction_written {fraction : Option (List Char)}
    (hfraction : ∀ run ∈ fraction, run ≠ [] ∧ AllDigits run)
    (exponent : Option (Bool × List Char)) :
    Numeral.takeFraction (writtenFraction fraction ++ writtenExponent exponent) =
      (fraction.map digitValues, writtenExponent exponent) := by
  cases fraction with
  | none =>
    cases exponent with
    | none => rfl
    | some exponent => rfl
  | some run =>
    rcases hfraction run rfl with ⟨hne, hrun⟩
    rcases List.exists_cons_of_ne_nil hne with ⟨c, tail, rfl⟩
    simp only [writtenFraction, List.cons_append, Numeral.takeFraction]
    rw [← List.cons_append, takeGroups_run hne hrun (endsDigits_writtenExponent exponent)]
    rfl

/-- A written exponent is taken. -/
theorem takeExponent_written {exponent : Option (Bool × List Char)}
    (hexponent : ∀ written ∈ exponent, written.2 ≠ [] ∧ AllDigits written.2) :
    takeExponent (writtenExponent exponent) =
      (exponent.map fun written => signed written.1 (ofDigits (digitValues written.2)), []) := by
  cases exponent with
  | none => rfl
  | some written =>
    rcases written with ⟨negative, run⟩
    rcases hexponent _ rfl with ⟨hne, hrun⟩
    rcases List.exists_cons_of_ne_nil hne with ⟨c, tail, rfl⟩
    cases negative <;>
      simp [writtenExponent, takeExponent, takeSign, takeDigits_run hrun, digitValues]

/-- A written numeral is read as its parts. -/
theorem ofWord?_written (negative : Bool) {whole : List Char} {fraction : Option (List Char)}
    {exponent : Option (Bool × List Char)} (hne : whole ≠ []) (hwhole : AllDigits whole)
    (hfraction : ∀ run ∈ fraction, run ≠ [] ∧ AllDigits run)
    (hexponent : ∀ written ∈ exponent, written.2 ≠ [] ∧ AllDigits written.2) :
    Numeral.ofWord? (Binary64.sign negative ++
        (whole ++ (writtenFraction fraction ++ writtenExponent exponent))) =
      some ⟨negative, digitValues whole, fraction.map digitValues,
        exponent.map fun written => signed written.1 (ofDigits (digitValues written.2))⟩ := by
  rcases List.exists_cons_of_ne_nil hne with ⟨c, tail, rfl⟩
  have hgroups : takeGroups (c :: tail ++ (writtenFraction fraction ++ writtenExponent exponent)) =
      ((c.toNat - '0'.toNat) :: digitValues tail,
        writtenFraction fraction ++ writtenExponent exponent) :=
    takeGroups_run hne hwhole (endsDigits_writtenFraction fraction exponent)
  simp only [Numeral.ofWord?, takeSign_written negative hne hwhole, hgroups,
    takeFraction_written hfraction, takeExponent_written hexponent]
  rfl

/-- Digits behind a sign are read as a numeral without a fraction and without an exponent. -/
theorem ofWord?_whole (negative : Bool) {whole : List Char} (hne : whole ≠ [])
    (hwhole : AllDigits whole) :
    Numeral.ofWord? (Binary64.sign negative ++ whole) =
      some ⟨negative, digitValues whole, none, none⟩ := by
  have hword : Numeral.ofWord? (Binary64.sign negative ++
      (whole ++ (writtenFraction none ++ writtenExponent none))) =
      some ⟨negative, digitValues whole, none, none⟩ :=
    ofWord?_written negative hne hwhole (by simp) (by simp)
  simpa [writtenFraction, writtenExponent] using hword

/-- The characters of numerals that are written in ASCII. -/
def writesNumerals (c : Char) : Bool :=
  c.isDigit || ['-', '+', '.', 'e'].contains c

/-- Digits are characters of numerals. -/
theorem AllDigits.writesNumerals {run : List Char} (hrun : AllDigits run) :
    ∀ c ∈ run, writesNumerals c = true :=
  fun c hc => Bool.or_eq_true_iff.2 (.inl (hrun c hc))

/-- The sign is a character of numerals. -/
theorem writesNumerals_sign (negative : Bool) :
    ∀ c ∈ Binary64.sign negative, writesNumerals c = true := by
  cases negative with
  | false => simp [Binary64.sign]
  | true => simp [Binary64.sign, writesNumerals]

/-- A written numeral consists of characters of numerals. -/
theorem writesNumerals_written (negative : Bool) {whole : List Char}
    {fraction : Option (List Char)} {exponent : Option (Bool × List Char)}
    (hwhole : AllDigits whole) (hfraction : ∀ run ∈ fraction, AllDigits run)
    (hexponent : ∀ written ∈ exponent, AllDigits written.2) :
    ∀ c ∈ Binary64.sign negative ++
      (whole ++ (writtenFraction fraction ++ writtenExponent exponent)),
      writesNumerals c = true := by
  have hpoint : ∀ c ∈ writtenFraction fraction, writesNumerals c = true := by
    cases fraction with
    | none => simp [writtenFraction]
    | some run => exact List.forall_mem_cons.2 ⟨by decide, (hfraction run rfl).writesNumerals⟩
  have hletter : ∀ c ∈ writtenExponent exponent, writesNumerals c = true := by
    cases exponent with
    | none => simp [writtenExponent]
    | some written =>
      refine List.forall_mem_cons.2 ⟨by decide, List.forall_mem_cons.2 ⟨?_, ?_⟩⟩
      · split <;> decide
      · exact (hexponent written rfl).writesNumerals
  exact List.forall_mem_append.2 ⟨writesNumerals_sign negative,
    List.forall_mem_append.2 ⟨hwhole.writesNumerals,
      List.forall_mem_append.2 ⟨hpoint, hletter⟩⟩⟩

end RubyTree.Text
