import RubyTree.Proofs.Sexp.Refusal

/-!
# Strings in front of other text

An escape in braces looks for its closing brace in all of the text.  Where there is
none, the letter `u` stands for itself; text put behind the string can hold one, and
then the escape takes the closing quote of its string for a part of a code point.
Nothing else in a string depends on the text behind its closing quote.

Main results:

- `OpenEscape` is an escape in braces that nothing behind it closes.
- `scanString_append`: a closed string is read the same in front of other text, unless
  reading it comes to an open escape and the other text holds a closing brace.
- `exists_badEscape_append`: in that case reading it comes to a bad escape.
-/

namespace RubyTree.Sexp

open RubyTree.Text

/-- The text starts with an escape in braces, and no brace behind it closes it. -/
def OpenEscape (text : List Char) : Prop :=
  ∃ rest, text = '\\' :: 'u' :: '\x7b' :: rest ∧ '\x7d' ∉ rest

/-! ## Words with a quote -/

theorem quote_mem_takeSign {word : List Char} (h : '"' ∈ word) : '"' ∈ (takeSign word).2 := by
  unfold takeSign
  split
  · simpa using h
  · simpa using h
  · exact h

theorem quote_mem_dropHexMark {word : List Char} (h : '"' ∈ word) : '"' ∈ dropHexMark word := by
  unfold dropHexMark
  split
  · next zero x rest =>
    split
    · next hmark =>
      have hrest : '"' ∈ rest := by
        rcases List.mem_cons.1 h with rfl | hmem
        · exact absurd hmark.1 (by decide)
        · rcases List.mem_cons.1 hmem with rfl | hmem
          · rcases hmark.2 with hx | hx <;> cases hx
          · exact hmem
      split
      · simpa using hrest
      · exact hrest
    · exact h
  · exact h

theorem hexRest_eq_none {text : List Char} (h : '"' ∈ text) : hexRest text = none := by
  fun_induction hexRest text with
  | case1 => cases h
  | case2 c rest d hd ih =>
    have hrest : '"' ∈ rest := by
      rcases List.mem_cons.1 h with hmark | hmem
      · cases hmark
      · rcases List.mem_cons.1 hmem with rfl | hmem
        · cases hd
        · exact hmem
    rw [ih hrest]
    rfl
  | case3 => rfl
  | case4 c rest _ d hd ih =>
    have hrest : '"' ∈ rest := by
      rcases List.mem_cons.1 h with rfl | hmem
      · cases hd
      · exact hmem
    rw [ih hrest]
    rfl
  | case5 => rfl

/-- A word with a quote in it names no character. -/
theorem not_namesCodePoint {word : List Char} (h : '"' ∈ word) : ¬ NamesCodePoint word := by
  rintro ⟨n, hn, -⟩
  have hdigits := quote_mem_dropHexMark (quote_mem_takeSign h)
  have hnone : hexDigitsOf (dropHexMark (takeSign word).2) = none := by
    generalize dropHexMark (takeSign word).2 = digits at hdigits
    cases digits with
    | nil => cases hdigits
    | cons c rest =>
      rw [hexDigitsOf]
      split
      · next d hd =>
        rcases List.mem_cons.1 hdigits with rfl | hmem
        · cases hd
        · rw [hexRest_eq_none hmem]
          rfl
      · rfl
  rw [hexNumber?] at hn
  simp [hnone] at hn

/-- A character that is not blank stands in one of the words of its text. -/
theorem exists_word_mem {c : Char} {text : List Char} (hblank : isBlank c = false)
    (h : c ∈ text) : ∃ word ∈ words text, c ∈ word := by
  have hbehind : ∀ {d : Char} {rest : List Char}, isBlank d = true → c ∈ d :: rest → c ∈ rest := by
    intro d rest hd hmem
    rcases List.mem_cons.1 hmem with rfl | hmem
    · rw [hblank] at hd
      cases hd
    · exact hmem
  have hgo : ∀ text front, c ∈ text ∨ c ∈ front → ∃ word ∈ words.go text front, c ∈ word := by
    intro text front hmem
    fun_induction words.go text front with
    | case1 => simp at hmem
    | case2 front => exact ⟨_, List.mem_singleton_self _, by simpa using hmem⟩
    | case3 d rest front hd hfront ih =>
      rcases hmem with hmem | hmem
      · exact ih (.inl (hbehind hd hmem))
      · rw [List.isEmpty_iff.1 hfront] at hmem
        cases hmem
    | case4 d rest front hd hfront ih =>
      rcases hmem with hmem | hmem
      · rcases ih (.inl (hbehind hd hmem)) with ⟨word, hword, hc⟩
        exact ⟨word, List.mem_cons_of_mem _ hword, hc⟩
      · exact ⟨_, List.mem_cons_self, List.mem_reverse.2 hmem⟩
    | case5 d rest front hd ih =>
      apply ih
      rcases hmem with hmem | hmem
      · rcases List.mem_cons.1 hmem with rfl | hmem
        · exact .inr List.mem_cons_self
        · exact .inl hmem
      · exact .inr (List.mem_cons_of_mem d hmem)
  exact hgo text [] (.inl h)

/-! ## Escapes in front of other text -/

theorem readUnicode_quote {text : List Char} (hbrace : text.head? ≠ some '\x7b')
    (h : '"' ∈ text.take 4) : readUnicode text = (.ok ['u'.toNat], 0) := by
  unfold readUnicode
  split
  · exact absurd rfl hbrace
  · next a b c d rest _ =>
    have hdigits : ¬ [a, b, c, d].all isHexDigit = true := by
      intro hall
      have hquote := List.all_eq_true.1 hall '"' (by simpa using h)
      exact absurd hquote (by decide)
    rw [if_neg hdigits]
  · rfl

/-- Behind the letter `u` the same is read in front of other text, as long as a quote stands
behind the letter and no brace of the other text closes an open one. -/
theorem readUnicode_append {text back : List Char} (hquote : '"' ∈ text)
    (hopen : '\x7d' ∈ back → ∀ rest, text = '\x7b' :: rest → '\x7d' ∈ rest) :
    readUnicode (text ++ back) = readUnicode text := by
  cases text with
  | nil => cases hquote
  | cons a rest =>
    by_cases ha : a = '\x7b'
    · subst ha
      rw [List.cons_append]
      by_cases hclosed : '\x7d' ∈ rest
      · rcases List.eq_append_cons_of_mem hclosed with ⟨inside, rest, rfl, hinside⟩
        rw [List.append_assoc, List.cons_append, readUnicode_closed hinside,
          readUnicode_closed hinside]
      · have hback : '\x7d' ∉ rest ++ back := by
          rw [List.mem_append, not_or]
          exact ⟨hclosed, fun hmem => hclosed (hopen hmem rest rfl)⟩
        rw [readUnicode_open hback, readUnicode_open hclosed]
    · have hhead : ∀ more, (a :: more).head? ≠ some '\x7b' := fun more h => ha (Option.some.inj h)
      rw [List.cons_append]
      by_cases hshort : (a :: rest).length < 4
      · have htake : '"' ∈ (a :: rest).take 4 := by rwa [List.take_of_length_le hshort.le]
        have htakeBack : '"' ∈ (a :: (rest ++ back)).take 4 := by
          rw [← List.cons_append, List.take_append]
          exact List.mem_append_left _ htake
        rw [readUnicode_quote (hhead _) htake, readUnicode_quote (hhead _) htakeBack]
      · match rest with
        | b :: c :: d :: more => simp [readUnicode]
        | [] | [_] | [_, _] => exact absurd (by simp) hshort

/-- Behind a backslash the same is read in front of other text, as long as a quote stands behind
it and the escape is not open. -/
theorem readEscape_append {c : Char} {rest back : List Char} (hquote : '"' ∈ rest)
    (hopen : '\x7d' ∈ back → ¬ OpenEscape ('\\' :: c :: rest)) :
    readEscape c (rest ++ back) = readEscape c rest := by
  have hcodes : escapeCodes c (rest ++ back) = escapeCodes c rest := by
    unfold escapeCodes
    by_cases hc : c = 'u'
    · subst hc
      rw [if_pos rfl, if_pos rfl]
      refine readUnicode_append hquote fun hback inside hinside => ?_
      by_contra hclosed
      exact hopen hback ⟨inside, by rw [hinside], hclosed⟩
    · rw [if_neg hc, if_neg hc]
  rw [readEscape, readEscape, hcodes]

/-- A brace in the text behind turns an open escape into a bad one: the closing quote of its string
then stands in one of the words in braces. -/
theorem OpenEscape.badEscape_append {text back : List Char} (h : OpenEscape text)
    (hquote : '"' ∈ text) (hback : '\x7d' ∈ back) : BadEscape (text ++ back) := by
  rcases h with ⟨rest, rfl, hopen⟩
  have hrest : '"' ∈ rest := by simpa using hquote
  rcases List.eq_append_cons_of_mem hback with ⟨front, behind, rfl, hfront⟩
  have hinside : '\x7d' ∉ rest ++ front := by
    rw [List.mem_append, not_or]
    exact ⟨hopen, hfront⟩
  rcases exists_word_mem (by decide) (List.mem_append_left front hrest) with ⟨word, hword, hmem⟩
  exact ⟨rest ++ front, behind, word, by simp, hinside, hword, not_namesCodePoint hmem⟩

/-! ## Strings in front of other text -/

/-- A closed string holds its closing quote. -/
theorem quote_mem_of_closed {text value : List Char} {n : Nat}
    (h : scanString text = .closed value n) : '"' ∈ text := by
  fun_induction scanString text generalizing value n with
  | case1 => cases h
  | case2 => exact List.mem_cons_self
  | case3 c rest chars hchars ih =>
    rcases StringScan.eq_closed_of_prepend h with ⟨_, _, hrest, -⟩
    exact List.mem_cons_of_mem _ (List.mem_cons_of_mem _ (List.mem_of_mem_drop (ih hrest)))
  | case4 => cases h
  | case5 c rest _ _ ih =>
    rcases StringScan.eq_closed_of_prepend h with ⟨_, _, hrest, -⟩
    exact List.mem_cons_of_mem _ (ih hrest)

/-- A closed string is read the same in front of other text, unless reading it comes to an open
escape and the other text holds a closing brace. -/
theorem scanString_append {text value back : List Char} {n : Nat}
    (h : scanString text = .closed value n)
    (hopen : '\x7d' ∈ back → ¬ ∃ place, StringReaches text place ∧ OpenEscape place) :
    scanString (text ++ back) = .closed value n := by
  fun_induction scanString text generalizing value n with
  | case1 => cases h
  | case2 rest =>
    rw [List.cons_append, scanString_quote]
    exact h
  | case3 c rest chars hchars ih =>
    rcases StringScan.eq_closed_of_prepend h with ⟨others, m, hrest, rfl, rfl⟩
    have hgood : ¬ BadEscape ('\\' :: c :: rest) := by
      rw [← error_readEscape_iff, hchars]
      simp
    have hquote : '"' ∈ rest := List.mem_of_mem_drop (quote_mem_of_closed hrest)
    have hread : readEscape c (rest ++ back) = readEscape c rest :=
      readEscape_append hquote fun hback hhere => hopen hback ⟨_, .here _, hhere⟩
    have hbehind : '\x7d' ∈ back →
        ¬ ∃ place, StringReaches (rest.drop (readEscape c rest).2) place ∧ OpenEscape place := by
      intro hback hplace
      rcases hplace with ⟨place, hplace, hhere⟩
      exact hopen hback ⟨place, .escape hgood hplace, hhere⟩
    rw [List.cons_append, List.cons_append, scanString_escape_ok (by rw [hread]; exact hchars),
      hread, List.drop_append_of_le_length (readEscape_le c rest), ih hrest hbehind]
    rfl
  | case4 => cases h
  | case5 c rest hquote hslash ih =>
    rcases StringScan.eq_closed_of_prepend h with ⟨others, m, hrest, rfl, rfl⟩
    have hc : c ≠ '\\' := by
      -- a backslash that is no escape is the last character, and then the string is not closed
      rintro rfl
      cases rest with
      | nil => rw [scanString] at hrest; cases hrest
      | cons d rest => exact hslash d rest rfl rfl
    have hbehind : '\x7d' ∈ back → ¬ ∃ place, StringReaches rest place ∧ OpenEscape place := by
      intro hback hplace
      rcases hplace with ⟨place, hplace, hhere⟩
      exact hopen hback ⟨place, .plain hquote hc hplace, hhere⟩
    rw [List.cons_append, scanString_plain hquote hc, ih hrest hbehind]
    rfl

/-- Reading a closed string that comes to an open escape comes to a bad escape in front of text
that holds a closing brace. -/
theorem exists_badEscape_append {text place value back : List Char} {n : Nat}
    (hreaches : StringReaches text place) (hopen : OpenEscape place)
    (h : scanString text = .closed value n) (hback : '\x7d' ∈ back) :
    ∃ place, StringReaches (text ++ back) place ∧ BadEscape place := by
  induction hreaches generalizing value n with
  | here text => exact ⟨_, .here _, hopen.badEscape_append (quote_mem_of_closed h) hback⟩
  | plain hquote hslash _ ih =>
    rw [scanString_plain hquote hslash] at h
    rcases StringScan.eq_closed_of_prepend h with ⟨_, _, hrest, -⟩
    rcases ih hopen hrest with ⟨place, hplace, hbad⟩
    exact ⟨place, .plain hquote hslash hplace, hbad⟩
  | @escape c rest place hgood _ ih =>
    by_cases hhere : OpenEscape ('\\' :: c :: rest)
    · exact ⟨_, .here _, hhere.badEscape_append (quote_mem_of_closed h) hback⟩
    · cases hchars : (readEscape c rest).1 with
      | error cause => exact absurd (error_readEscape_iff.1 ⟨cause, hchars⟩) hgood
      | ok chars =>
        rw [scanString_escape_ok hchars] at h
        rcases StringScan.eq_closed_of_prepend h with ⟨_, _, hrest, -⟩
        have hquote : '"' ∈ rest := List.mem_of_mem_drop (quote_mem_of_closed hrest)
        have hread : readEscape c (rest ++ back) = readEscape c rest :=
          readEscape_append hquote fun _ => hhere
        have hstill : ¬ BadEscape ('\\' :: c :: (rest ++ back)) := by
          rw [← error_readEscape_iff, hread, hchars]
          simp
        rcases ih hopen hrest with ⟨bad, hreaches, hbad⟩
        have hescape : StringReaches ('\\' :: c :: (rest ++ back)) bad := by
          apply StringReaches.escape hstill
          rwa [hread, List.drop_append_of_le_length (readEscape_le c rest)]
        exact ⟨bad, hescape, hbad⟩

end RubyTree.Sexp
