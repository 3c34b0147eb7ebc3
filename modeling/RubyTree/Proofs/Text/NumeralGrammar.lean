import Mathlib.Data.Nat.Digits.Defs
import RubyTree.Proofs.Text.Numerals

/-!
# The grammar of numerals

A numeral is given by its parts: a sign or none, groups of digits, a fraction or
none, an exponent or none.  The scanner takes each part as far as it goes.  None of
the characters that a part starts with could have gone on with the part before, so
the scanner comes to the end of a word exactly when the word is made of such parts.

Main results:

- `IsGroups.induction`: groups grow at the front, by a digit or by a digit and an
  underscore.
- `takeGroups_append` and `exists_groups`: groups are taken as a whole, and what is
  taken is groups.
- `ofWord?_of_isNumeral` and `exists_isNumeral`: a word is read as the numeral of its
  parts, and only words that have parts are read.
-/

namespace RubyTree.Text

/-! ## Digits -/

/-- The values of the digits in the text. -/
def digitsIn (text : List Char) : List Nat :=
  text.filterMap digitValue?

theorem digitsIn_cons_some {c : Char} {d : Nat} (h : digitValue? c = some d) (text : List Char) :
    digitsIn (c :: text) = d :: digitsIn text :=
  List.filterMap_cons_some h

theorem digitsIn_cons_none {c : Char} (h : digitValue? c = none) (text : List Char) :
    digitsIn (c :: text) = digitsIn text :=
  List.filterMap_cons_none h

theorem isDecimal_iff {c : Char} : isDecimal c = true ↔ ∃ d, digitValue? c = some d :=
  Option.isSome_iff_exists

/-- A digit is none of the characters that are no digits. -/
theorem ne_of_isDecimal {c other : Char} (h : isDecimal c = true)
    (hother : isDecimal other = false) : c ≠ other := by
  rintro rfl
  exact absurd h (by simp [hother])

/-- A number is the same from its first digit on and from its last, in any base. -/
theorem foldl_digits (base : Nat) (digits : List Nat) :
    digits.foldl (fun n d => base * n + d) 0 = Nat.ofDigits base digits.reverse := by
  rw [Nat.ofDigits_eq_foldr, List.foldr_reverse]
  simp only [Nat.cast_id, Nat.add_comm]

/-! ## Groups -/

/-- Groups of digits, joined by single underscores. -/
def IsGroups (text : List Char) : Prop :=
  ∃ groups : List (List Char), groups ≠ [] ∧
    (∀ group ∈ groups, group ≠ [] ∧ ∀ c ∈ group, isDecimal c = true) ∧
    text = ['_'].intercalate groups

namespace IsGroups

variable {c : Char} {text : List Char}

/-- A digit alone. -/
theorem digit (hc : isDecimal c = true) : IsGroups [c] :=
  ⟨[[c]], by simp, by simp [hc], by simp⟩

/-- A digit in front of the first group. -/
theorem cons (hc : isDecimal c = true) (h : IsGroups text) : IsGroups (c :: text) := by
  rcases h with ⟨groups, hne, hgroups, rfl⟩
  rcases List.exists_cons_of_ne_nil hne with ⟨group, rest, rfl⟩
  rcases List.forall_mem_cons.1 hgroups with ⟨⟨-, hgroup⟩, hrest⟩
  refine ⟨(c :: group) :: rest, by simp, ?_, by rw [List.intercalate_cons_cons_left]⟩
  exact List.forall_mem_cons.2 ⟨⟨by simp, List.forall_mem_cons.2 ⟨hc, hgroup⟩⟩, hrest⟩

/-- A digit as a group of its own in front of the others. -/
theorem join (hc : isDecimal c = true) (h : IsGroups text) : IsGroups (c :: '_' :: text) := by
  rcases h with ⟨groups, hne, hgroups, rfl⟩
  refine ⟨[c] :: groups, by simp, ?_, by rw [List.intercalate_cons_of_ne_nil hne]; rfl⟩
  exact List.forall_mem_cons.2 ⟨⟨by simp, by simpa using hc⟩, hgroups⟩

/-- Groups are made from a digit by these two steps. -/
@[elab_as_elim]
theorem induction {motive : (text : List Char) → IsGroups text → Prop}
    (digit : ∀ c (hc : isDecimal c = true), motive [c] (.digit hc))
    (cons : ∀ c text (hc : isDecimal c = true) (h : IsGroups text),
      motive text h → motive (c :: text) (.cons hc h))
    (join : ∀ c text (hc : isDecimal c = true) (h : IsGroups text),
      motive text h → motive (c :: '_' :: text) (.join hc h))
    (h : IsGroups text) : motive text h := by
  rcases h with ⟨groups, hne, hgroups, rfl⟩
  induction groups with
  | nil => exact absurd rfl hne
  | cons group rest ih =>
    rcases List.forall_mem_cons.1 hgroups with ⟨⟨hgroup, hdigits⟩, hrest⟩
    induction group with
    | nil => exact absurd rfl hgroup
    | cons c group ihgroup =>
      rcases List.forall_mem_cons.1 hdigits with ⟨hc, hdigits⟩
      by_cases hgroup : group = []
      · subst hgroup
        by_cases hne : rest = []
        · subst hne
          exact digit c hc
        · have hjoined := join c _ hc ⟨rest, hne, hrest, rfl⟩ (ih hne hrest)
          simpa [List.intercalate_cons_of_ne_nil hne] using hjoined
      · have hgroups : ∀ part ∈ group :: rest, part ≠ [] ∧ ∀ c ∈ part, isDecimal c = true :=
          List.forall_mem_cons.2 ⟨⟨hgroup, hdigits⟩, hrest⟩
        have hgrown := cons c _ hc ⟨group :: rest, by simp, hgroups, rfl⟩
          (ihgroup (by simp) hgroups hgroup hdigits)
        simpa only [List.intercalate_cons_cons_left] using hgrown

/-- Groups start with a digit. -/
theorem exists_cons (h : IsGroups text) : ∃ c rest, text = c :: rest ∧ isDecimal c = true := by
  induction h using IsGroups.induction with
  | digit c hc => exact ⟨c, [], rfl, hc⟩
  | cons c text hc _ _ => exact ⟨c, text, rfl, hc⟩
  | join c text hc _ _ => exact ⟨c, '_' :: text, rfl, hc⟩

end IsGroups

section Take

variable {c : Char} {text rest : List Char}

/-- A digit goes on with a group, and starts one. -/
theorem takeGroupRest_digit (hc : isDecimal c = true) :
    takeGroupRest (c :: rest) = takeGroups (c :: rest) := by
  have hjoin : c ≠ '_' := ne_of_isDecimal hc (by decide)
  rcases isDecimal_iff.1 hc with ⟨d, hd⟩
  rw [takeGroups, takeGroupRest]
  exact fun _ _ h _ => hjoin h

/-- An underscore and a digit go on with groups. -/
theorem takeGroupRest_join (hc : isDecimal c = true) :
    takeGroupRest ('_' :: c :: rest) = takeGroups (c :: rest) := by
  rcases isDecimal_iff.1 hc with ⟨d, hd⟩
  rw [takeGroups, takeGroupRest, hd]

/-- Groups are taken up to where they end. -/
theorem takeGroups_append (h : IsGroups text) (hrest : EndsDigits rest) :
    takeGroups (text ++ rest) = (digitsIn text, rest) := by
  induction h using IsGroups.induction with
  | digit c hc =>
    rcases isDecimal_iff.1 hc with ⟨d, hd⟩
    have hends : takeGroupRest ([] ++ rest) = (digitValues [], rest) :=
      takeGroupRest_run (by simp [AllDigits]) hrest
    simp only [List.cons_append, takeGroups, hd, hends]
    simp [digitsIn, digitValues, hd]
  | cons c text hc h ih =>
    rcases isDecimal_iff.1 hc with ⟨d, hd⟩
    rcases h.exists_cons with ⟨next, tail, rfl, hnext⟩
    have hgo : takeGroupRest (next :: tail ++ rest) = (digitsIn (next :: tail), rest) := by
      rw [← ih]
      exact takeGroupRest_digit hnext
    rw [List.cons_append, takeGroups, hd]
    simp only [hgo]
    rw [digitsIn_cons_some hd]
  | join c text hc h ih =>
    rcases isDecimal_iff.1 hc with ⟨d, hd⟩
    rcases h.exists_cons with ⟨next, tail, rfl, hnext⟩
    have hgo : takeGroupRest ('_' :: (next :: tail ++ rest)) = (digitsIn (next :: tail), rest) := by
      rw [← ih]
      exact takeGroupRest_join hnext
    have hmark : digitValue? '_' = none := by decide
    rw [List.cons_append, List.cons_append, takeGroups, hd]
    simp only [hgo]
    rw [digitsIn_cons_some hd, digitsIn_cons_none hmark]

/-- What is taken behind a digit makes groups with it. -/
theorem exists_groupRest (text : List Char) :
    ∃ front, text = front ++ (takeGroupRest text).2 ∧
      ∀ c, isDecimal c = true → IsGroups (c :: front) := by
  fun_induction takeGroupRest text with
  | case1 => exact ⟨[], rfl, fun c hc => .digit hc⟩
  | case2 next rest d hd digits after hafter ih =>
    rcases ih with ⟨front, hfront, hgroups⟩
    rw [hafter] at hfront
    refine ⟨'_' :: next :: front, by rw [hfront]; simp, fun c hc => ?_⟩
    exact (hgroups next (isDecimal_iff.2 ⟨d, hd⟩)).join hc
  | case3 next rest hnext => exact ⟨[], rfl, fun c hc => .digit hc⟩
  | case4 next rest hjoin d hd digits after hafter ih =>
    rcases ih with ⟨front, hfront, hgroups⟩
    rw [hafter] at hfront
    refine ⟨next :: front, by rw [hfront]; simp, fun c hc => ?_⟩
    exact (hgroups next (isDecimal_iff.2 ⟨d, hd⟩)).cons hc
  | case5 next rest hjoin hnext => exact ⟨[], rfl, fun c hc => .digit hc⟩

/-- Where a digit is taken, groups are taken. -/
theorem exists_groups (h : (takeGroups text).1 ≠ []) :
    ∃ groups, IsGroups groups ∧ text = groups ++ (takeGroups text).2 := by
  cases text with
  | nil => exact absurd rfl h
  | cons c text =>
    rw [takeGroups] at h ⊢
    cases hd : digitValue? c with
    | none => simp [hd] at h
    | some d =>
      rcases exists_groupRest text with ⟨front, hfront, hgroups⟩
      refine ⟨c :: front, hgroups c (isDecimal_iff.2 ⟨d, hd⟩), ?_⟩
      simp only [List.cons_append]
      rw [← hfront]

/-- Digits without joints are taken to the end. -/
theorem takeDigits_of_isDecimal (h : ∀ c ∈ text, isDecimal c = true) :
    takeDigits text = (digitsIn text, []) := by
  induction text with
  | nil => rfl
  | cons c text ih =>
    rcases List.forall_mem_cons.1 h with ⟨hc, htext⟩
    rcases isDecimal_iff.1 hc with ⟨d, hd⟩
    rw [takeDigits, hd, ih htext, digitsIn_cons_some hd]

/-- Where digits are taken, these are digits. -/
theorem exists_digits (text : List Char) :
    ∃ digits, (∀ c ∈ digits, isDecimal c = true) ∧ text = digits ++ (takeDigits text).2 ∧
      (digits = [] → (takeDigits text).1 = []) := by
  fun_induction takeDigits text with
  | case1 => exact ⟨[], by simp, rfl, fun _ => rfl⟩
  | case2 c rest d hd digits after hafter ih =>
    rcases ih with ⟨front, hdigits, hfront, -⟩
    rw [hafter] at hfront
    refine ⟨c :: front, List.forall_mem_cons.2 ⟨isDecimal_iff.2 ⟨d, hd⟩, hdigits⟩, ?_, by simp⟩
    rw [hfront, List.cons_append]
  | case3 c rest hc => exact ⟨[], by simp, rfl, fun _ => rfl⟩

end Take

/-! ## Parts of a numeral -/

/-- A plus, a minus, or nothing. -/
def IsSign (text : List Char) : Prop :=
  text = [] ∨ text = ['+'] ∨ text = ['-']

/-- A point and groups of digits. -/
def IsFraction (text : List Char) : Prop :=
  ∃ digits, text = '.' :: digits ∧ IsGroups digits

/-- The letter of exponents in either case, a sign or none, and digits without underscores. -/
def IsExponent (text : List Char) : Prop :=
  ∃ letter sign digits, text = letter :: (sign ++ digits) ∧ (letter = 'e' ∨ letter = 'E') ∧
    IsSign sign ∧ digits ≠ [] ∧ ∀ c ∈ digits, isDecimal c = true

/-- The word is a numeral of these parts, from end to end. -/
structure IsNumeral (word sign whole fraction exponent : List Char) : Prop where
  /-- The parts in order. -/
  word_eq : word = sign ++ (whole ++ (fraction ++ exponent))
  /-- A sign or none. -/
  sign : IsSign sign
  /-- The digits in front of the point. -/
  whole : IsGroups whole
  /-- A fraction or none. -/
  fraction : fraction = [] ∨ IsFraction fraction
  /-- An exponent or none. -/
  exponent : exponent = [] ∨ IsExponent exponent

/-- The numeral of the parts. -/
def Numeral.ofParts (sign whole fraction exponent : List Char) : Numeral where
  negative := sign = ['-']
  whole := digitsIn whole
  fraction := if fraction = [] then none else some (digitsIn fraction)
  exponent := if exponent = [] then none
    else some (signed (exponent.contains '-') (ofDigits (digitsIn exponent)))

/-- The number with the sign and the digits, in base ten. -/
def signedNumber (sign digits : List Char) : Int :=
  let number : Nat := Nat.ofDigits 10 (digitsIn digits).reverse
  if sign = ['-'] then -(number : Int) else number

section Parts

variable {sign text rest : List Char}

/-- A sign in front of something that starts with no sign is taken. -/
theorem takeSign_append (hsign : IsSign sign) (htext : ∀ c ∈ text.head?, c ≠ '+' ∧ c ≠ '-') :
    takeSign (sign ++ text) = (decide (sign = ['-']), text) := by
  rcases hsign with rfl | rfl | rfl
  · rw [List.nil_append]
    unfold takeSign
    split
    · exact absurd rfl (htext _ rfl).1
    · exact absurd rfl (htext _ rfl).2
    · rfl
  · rfl
  · rfl

/-- What is taken as a sign is one. -/
theorem exists_sign (text : List Char) :
    ∃ sign, IsSign sign ∧ text = sign ++ (takeSign text).2 := by
  unfold takeSign
  split
  · exact ⟨['+'], .inr (.inl rfl), rfl⟩
  · exact ⟨['-'], .inr (.inr rfl), rfl⟩
  · exact ⟨[], .inl rfl, rfl⟩

/-- Digits are no signs. -/
theorem head?_ne_sign (h : ∀ c ∈ text.head?, isDecimal c = true) :
    ∀ c ∈ text.head?, c ≠ '+' ∧ c ≠ '-' := by
  intro c hc
  exact ⟨ne_of_isDecimal (h c hc) (by decide), ne_of_isDecimal (h c hc) (by decide)⟩

/-- Digits end at an exponent. -/
theorem endsDigits_exponent (h : text = [] ∨ IsExponent text) : EndsDigits text := by
  rcases h with rfl | ⟨letter, sign, digits, rfl, rfl | rfl, -⟩
  · exact endsDigits_nil
  · exact endsDigits_cons _ (by decide) (by decide)
  · exact endsDigits_cons _ (by decide) (by decide)

/-- Digits end at a fraction, and at an exponent without one. -/
theorem endsDigits_fraction (h : text = [] ∨ IsFraction text) (hrest : EndsDigits rest) :
    EndsDigits (text ++ rest) := by
  rcases h with rfl | ⟨digits, rfl, -⟩
  · exact hrest
  · exact endsDigits_cons _ (by decide) (by decide)

/-- A fraction in front of an exponent is taken. -/
theorem takeFraction_append (h : text = [] ∨ IsFraction text)
    (hrest : rest = [] ∨ IsExponent rest) :
    Numeral.takeFraction (text ++ rest) =
      (if text = [] then none else some (digitsIn text), rest) := by
  rcases h with rfl | ⟨digits, rfl, hdigits⟩
  · rcases hrest with rfl | ⟨letter, sign, digits, rfl, rfl | rfl, -⟩
    · rfl
    · rfl
    · rfl
  · have htake := takeGroups_append hdigits (endsDigits_exponent hrest)
    rcases hdigits.exists_cons with ⟨c, tail, rfl, hc⟩
    rcases isDecimal_iff.1 hc with ⟨d, hd⟩
    have hmark : digitValue? '.' = none := by decide
    rw [digitsIn_cons_some hd] at htake
    simp only [List.cons_append, Numeral.takeFraction] at htake ⊢
    rw [htake]
    simp [digitsIn_cons_none hmark, digitsIn_cons_some hd]

/-- What is taken as a fraction is one. -/
theorem exists_fraction (text : List Char) :
    ∃ fraction, (fraction = [] ∨ IsFraction fraction) ∧
      text = fraction ++ (Numeral.takeFraction text).2 := by
  unfold Numeral.takeFraction
  split
  · next rest =>
    split
    · exact ⟨[], .inl rfl, rfl⟩
    · next digits after hne htake =>
      have hdigits : (takeGroups rest).1 ≠ [] := by
        rw [htake]
        exact hne
      rcases exists_groups hdigits with ⟨groups, hgroups, hrest⟩
      rw [htake] at hrest
      exact ⟨'.' :: groups, .inr ⟨groups, rfl, hgroups⟩, by rw [hrest]; rfl⟩
  · exact ⟨[], .inl rfl, rfl⟩

/-- The digits of an exponent are those behind its sign, and its minus is the sign. -/
theorem IsExponent.facts {letter : Char} {digits : List Char}
    (hletter : letter = 'e' ∨ letter = 'E') (hsign : IsSign sign)
    (hdigits : ∀ c ∈ digits, isDecimal c = true) :
    digitsIn (letter :: (sign ++ digits)) = digitsIn digits ∧
      (letter :: (sign ++ digits)).contains '-' = decide (sign = ['-']) := by
  have hminus : '-' ∉ digits := fun h => absurd (hdigits '-' h) (by decide)
  have hmarks : digitValue? 'e' = none ∧ digitValue? 'E' = none ∧ digitValue? '+' = none ∧
    digitValue? '-' = none := by decide
  rcases hmarks with ⟨hlower, hupper, hplus, hline⟩
  rcases hletter with rfl | rfl <;> rcases hsign with rfl | rfl | rfl <;>
    simp [digitsIn, hlower, hupper, hplus, hline, hminus]

/-- An exponent at the end of the text is taken. -/
theorem takeExponent_eq (h : text = [] ∨ IsExponent text) :
    takeExponent text =
      (if text = [] then none else some (signed (text.contains '-') (ofDigits (digitsIn text))),
        []) := by
  rcases h with rfl | ⟨letter, sign, digits, rfl, hletter, hsign, hne, hdigits⟩
  · rfl
  · rcases List.exists_cons_of_ne_nil hne with ⟨c, tail, rfl⟩
    rcases isDecimal_iff.1 (hdigits c List.mem_cons_self) with ⟨d, hd⟩
    have htake := takeDigits_of_isDecimal hdigits
    have hsigned : takeSign (sign ++ c :: tail) = (decide (sign = ['-']), c :: tail) :=
      takeSign_append hsign (head?_ne_sign (by simpa using hdigits c List.mem_cons_self))
    rcases IsExponent.facts hletter hsign hdigits with ⟨hvalues, hminus⟩
    rw [hvalues, hminus]
    rw [digitsIn_cons_some hd] at htake ⊢
    simp only [takeExponent, if_pos hletter, hsigned, htake]
    simp

/-- What is taken as an exponent is one. -/
theorem exists_exponent (text : List Char) :
    ∃ exponent, (exponent = [] ∨ IsExponent exponent) ∧
      text = exponent ++ (takeExponent text).2 := by
  cases text with
  | nil => exact ⟨[], .inl rfl, rfl⟩
  | cons letter rest =>
    unfold takeExponent
    by_cases hletter : letter = 'e' ∨ letter = 'E'
    · rcases exists_sign rest with ⟨sign, hsign, hrest⟩
      rcases exists_digits (takeSign rest).2 with ⟨digits, hdigits, hunsigned, hempty⟩
      simp only [if_pos hletter]
      split
      · exact ⟨[], .inl rfl, rfl⟩
      · next values after hne htake =>
        rw [htake] at hunsigned hempty
        refine ⟨letter :: (sign ++ digits),
          .inr ⟨letter, sign, digits, rfl, hletter, hsign, mt hempty hne, hdigits⟩, ?_⟩
        rw [List.cons_append, List.append_assoc, ← hunsigned, ← hrest]
    · simp only [if_neg hletter]
      exact ⟨[], .inl rfl, rfl⟩

end Parts

/-! ## Numerals -/

section Numerals

variable {word sign whole fraction exponent : List Char}

/-- A word that has the parts of a numeral is read as the numeral of its parts. -/
theorem ofWord?_of_isNumeral (h : IsNumeral word sign whole fraction exponent) :
    Numeral.ofWord? word = some (.ofParts sign whole fraction exponent) := by
  have hends := endsDigits_fraction h.fraction (endsDigits_exponent h.exponent)
  have htake := takeGroups_append h.whole hends
  rcases h.whole.exists_cons with ⟨c, tail, rfl, hc⟩
  rcases isDecimal_iff.1 hc with ⟨d, hd⟩
  have hsigned : takeSign (sign ++ (c :: tail ++ (fraction ++ exponent))) =
      (decide (sign = ['-']), c :: tail ++ (fraction ++ exponent)) :=
    takeSign_append h.sign (head?_ne_sign (by simpa using hc))
  rw [digitsIn_cons_some hd] at htake
  simp only [Numeral.ofWord?, h.word_eq, hsigned, htake, takeFraction_append h.fraction h.exponent,
    takeExponent_eq h.exponent, Numeral.ofParts, digitsIn_cons_some hd]
  rfl

/-- A word that is read as a numeral has the parts of one. -/
theorem exists_isNumeral {numeral : Numeral} (h : Numeral.ofWord? word = some numeral) :
    ∃ sign whole fraction exponent, IsNumeral word sign whole fraction exponent := by
  rcases exists_sign word with ⟨sign, hsign, hword⟩
  simp only [Numeral.ofWord?] at h
  split at h
  · cases h
  · next values afterWhole hne htake =>
    have hdigits : (takeGroups (takeSign word).2).1 ≠ [] := by
      rw [htake]
      exact hne
    rcases exists_groups hdigits with ⟨whole, hwhole, hunsigned⟩
    rcases exists_fraction afterWhole with ⟨fraction, hfraction, hrest⟩
    rcases exists_exponent (Numeral.takeFraction afterWhole).2 with ⟨exponent, hexponent, hend⟩
    split at h
    · next hempty =>
      refine ⟨sign, whole, fraction, exponent, ?_, hsign, hwhole, hfraction, hexponent⟩
      rw [List.isEmpty_iff] at hempty
      rw [hempty, List.append_nil] at hend
      rw [htake] at hunsigned
      rw [hword, hunsigned, hrest, hend]
    · cases h

/-- A word is read as a numeral exactly when it has the parts of one. -/
theorem isSome_ofWord?_iff :
    (Numeral.ofWord? word).isSome = true ↔
      ∃ sign whole fraction exponent, IsNumeral word sign whole fraction exponent := by
  constructor
  · intro h
    rcases Option.isSome_iff_exists.1 h with ⟨numeral, hnumeral⟩
    exact exists_isNumeral hnumeral
  · rintro ⟨sign, whole, fraction, exponent, h⟩
    rw [ofWord?_of_isNumeral h, Option.isSome_some]

/-- The numeral of the parts is whole exactly without a fraction and without an exponent. -/
theorem isWhole_ofParts :
    (Numeral.ofParts sign whole fraction exponent).isWhole = true ↔
      fraction = [] ∧ exponent = [] := by
  by_cases hfraction : fraction = []
  · by_cases hexponent : exponent = []
    · simp [Numeral.ofParts, Numeral.isWhole, hfraction, hexponent]
    · simp [Numeral.ofParts, Numeral.isWhole, hfraction, hexponent]
  · simp [Numeral.ofParts, Numeral.isWhole, hfraction]

/-- The whole number of the parts is the one with the sign and the digits before the point. -/
theorem toInt_ofParts :
    (Numeral.ofParts sign whole fraction exponent).toInt = signedNumber sign whole := by
  have hnumber : ofDigits (digitsIn whole) = Nat.ofDigits 10 (digitsIn whole).reverse :=
    foldl_digits 10 (digitsIn whole)
  simp only [Numeral.toInt, Numeral.ofParts, signed, signedNumber, hnumber, decide_eq_true_eq]

end Numerals

end RubyTree.Text
