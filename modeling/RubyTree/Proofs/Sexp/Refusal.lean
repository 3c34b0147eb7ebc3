import RubyTree.Proofs.Sexp.Recovery
import RubyTree.Proofs.Sexp.Scanning

/-!
# How reading a text fails

A text is refused with a report that holds an error, or reading breaks off at an
escape in braces that names no character.  The second happens exactly when such an
escape stands in a string that the scanner comes to.

Main results:

- `BadEscape` and `BadString` say where a bad escape stands, without the string scanner.
- `failed_scanString_iff` and `error_scanFrom_iff`: scanning breaks off exactly there.
- `ofText_of_tokens`: scanned tokens are read as a node or refused with an error in the report.
- `refused_with_errors_iff`: the exact condition on a text.
-/

namespace RubyTree.Sexp

open RubyTree.Text

/-! ## Escapes in braces -/

/-- The word is the number of a character, in base sixteen. -/
def NamesCodePoint (word : List Char) : Prop :=
  ∃ n, hexNumber? word = some n ∧ 0 ≤ n ∧ n ≤ 0x10FFFF

/-- The text starts with an escape in braces, and one of the words in it names no character. -/
def BadEscape (text : List Char) : Prop :=
  ∃ inside rest word,
    text = '\\' :: 'u' :: '\x7b' :: (inside ++ '\x7d' :: rest) ∧ '\x7d' ∉ inside ∧
      word ∈ words inside ∧ ¬ NamesCodePoint word

/-- A word is refused exactly when it names no character. -/
theorem error_codePoint_iff {word : List Char} :
    (∃ cause, codePoint word = .error cause) ↔ ¬ NamesCodePoint word := by
  unfold codePoint NamesCodePoint
  cases hexNumber? word with
  | none => simp
  | some n =>
    simp only [Option.some.injEq, exists_eq_left']
    split
    · simp only [Except.error.injEq, exists_eq', true_iff]
      omega
    · split
      · simp only [Except.error.injEq, exists_eq', true_iff]
        omega
      · simp only [reduceCtorEq, exists_false, false_iff, not_not]
        omega

/-- Words in braces are refused exactly when one of them is. -/
theorem error_codePoints_iff {list : List (List Char)} :
    (∃ cause, codePoints list = .error cause) ↔ ∃ word ∈ list, ¬ NamesCodePoint word := by
  induction list with
  | nil => simp [codePoints]
  | cons word rest ih =>
    have hcons : (∃ w ∈ word :: rest, ¬ NamesCodePoint w) ↔
        ¬ NamesCodePoint word ∨ ∃ w ∈ rest, ¬ NamesCodePoint w := by simp
    rw [hcons, ← ih, ← error_codePoint_iff, codePoints]
    cases codePoint word with
    | error cause => simp
    | ok c => cases codePoints rest <;> simp

/-- An escape in braces that are never closed is the letter alone. -/
theorem readUnicode_open {rest : List Char} (h : '\x7d' ∉ rest) :
    readUnicode ('\x7b' :: rest) = (.ok ['u'.toNat], 0) := by
  have hall : rest.takeWhile (· ≠ '\x7d') = rest :=
    List.takeWhile_eq_self_iff.2 fun c hc => by simpa using ne_of_mem_of_not_mem hc h
  simp only [readUnicode, hall, List.drop_length, List.isEmpty_nil, if_true]

/-- An escape in closed braces is what the words in them give. -/
theorem readUnicode_closed {inside : List Char} (h : '\x7d' ∉ inside) (rest : List Char) :
    readUnicode ('\x7b' :: (inside ++ '\x7d' :: rest)) =
      (codePoints (words inside), inside.length + 2) := by
  have hbehind : ((inside ++ '\x7d' :: rest).drop inside.length).isEmpty = false := by
    rw [List.drop_left]
    rfl
  simp only [readUnicode, takeWhile_ne_append h, hbehind, Bool.false_eq_true, if_false]

/-- Behind the letter `u`, reading fails exactly on words in closed braces that are refused. -/
theorem error_readUnicode_iff {text : List Char} :
    (∃ cause, (readUnicode text).1 = .error cause) ↔
      ∃ inside rest word, text = '\x7b' :: (inside ++ '\x7d' :: rest) ∧ '\x7d' ∉ inside ∧
        word ∈ words inside ∧ ¬ NamesCodePoint word := by
  constructor
  · rintro ⟨cause, h⟩
    by_cases hbrace : ∃ rest, text = '\x7b' :: rest
    · rcases hbrace with ⟨rest, rfl⟩
      by_cases hclosed : '\x7d' ∈ rest
      · rcases List.eq_append_cons_of_mem hclosed with ⟨inside, rest, rfl, hinside⟩
        rw [readUnicode_closed hinside] at h
        rcases error_codePoints_iff.1 ⟨cause, h⟩ with ⟨word, hword, hbad⟩
        exact ⟨inside, rest, word, rfl, hinside, hword, hbad⟩
      · rw [readUnicode_open hclosed] at h
        cases h
    · unfold readUnicode at h
      split at h
      · exact absurd ⟨_, rfl⟩ hbrace
      · split at h <;> cases h
      · cases h
  · rintro ⟨inside, rest, word, rfl, hinside, hword, hbad⟩
    rw [readUnicode_closed hinside]
    exact error_codePoints_iff.2 ⟨word, hword, hbad⟩

/-- Behind a backslash, reading fails exactly at a bad escape. -/
theorem error_readEscape_iff {c : Char} {rest : List Char} :
    (∃ cause, (readEscape c rest).1 = .error cause) ↔ BadEscape ('\\' :: c :: rest) := by
  have hmap : (∃ cause, (readEscape c rest).1 = .error cause) ↔
      ∃ cause, (escapeCodes c rest).1 = .error cause := by
    rw [readEscape]
    cases (escapeCodes c rest).1 <;> simp [Except.map]
  rw [hmap]
  unfold escapeCodes BadEscape
  split
  · next hc =>
    subst hc
    simp [error_readUnicode_iff]
  · next hc =>
    simp [hc]

/-! ## Bad strings -/

/-- From one place in a string, reading comes to a later place in the same string. -/
inductive StringReaches : List Char → List Char → Prop
  /-- Every place is reached from itself. -/
  | here (text : List Char) : StringReaches text text
  /-- Over a character that stands for itself. -/
  | plain {c : Char} {rest place : List Char} (hquote : c ≠ '"') (hslash : c ≠ '\\')
      (h : StringReaches rest place) : StringReaches (c :: rest) place
  /-- Over an escape that is not bad. -/
  | escape {c : Char} {rest place : List Char} (hgood : ¬ BadEscape ('\\' :: c :: rest))
      (h : StringReaches (rest.drop (readEscape c rest).2) place) :
      StringReaches ('\\' :: c :: rest) place

/-- At the end of the text there is no escape. -/
theorem not_badEscape_nil : ¬ BadEscape [] := by
  rintro ⟨_, _, _, htext, -⟩
  cases htext

/-- What stands before a string does not decide whether it fails. -/
theorem failed_prepend_iff {front : List Char} {n : Nat} {scan : StringScan} :
    (∃ cause size, scan.prepend front n = .failed cause size) ↔
      ∃ cause size, scan = .failed cause size := by
  cases scan <;> simp [StringScan.prepend]

/-- A string fails exactly when reading it comes to a bad escape. -/
theorem failed_scanString_iff {text : List Char} :
    (∃ cause size, scanString text = .failed cause size) ↔
      ∃ place, StringReaches text place ∧ BadEscape place := by
  fun_induction scanString text with
  | case1 =>
    simp only [reduceCtorEq, exists_false, false_iff]
    rintro ⟨place, hplace, hbad⟩
    cases hplace
    exact not_badEscape_nil hbad
  | case2 rest =>
    simp only [reduceCtorEq, exists_false, false_iff]
    rintro ⟨place, hplace, hbad⟩
    cases hplace with
    | here =>
      rcases hbad with ⟨_, _, _, htext, -⟩
      cases htext
    | plain hquote => exact hquote rfl
  | case3 c rest chars hchars ih =>
    have hgood : ¬ BadEscape ('\\' :: c :: rest) := by
      rw [← error_readEscape_iff, hchars]
      simp
    rw [failed_prepend_iff, ih]
    constructor
    · rintro ⟨place, hplace, hbad⟩
      exact ⟨place, .escape hgood hplace, hbad⟩
    · rintro ⟨place, hplace, hbad⟩
      cases hplace with
      | here => exact absurd hbad hgood
      | plain _ hslash => exact absurd rfl hslash
      | escape _ hrest => exact ⟨place, hrest, hbad⟩
  | case4 c rest cause hcause =>
    have hbad : BadEscape ('\\' :: c :: rest) := error_readEscape_iff.1 ⟨cause, hcause⟩
    exact iff_of_true ⟨cause, _, rfl⟩ ⟨_, .here _, hbad⟩
  | case5 c rest hquote hslash ih =>
    rw [failed_prepend_iff, ih]
    constructor
    · rintro ⟨place, hplace, hbad⟩
      by_cases hc : c = '\\'
      · -- A backslash that is no escape is the last character of the text.
        have hrest : rest = [] := by
          cases rest with
          | nil => rfl
          | cons d rest => exact (hslash d rest hc rfl).elim
        subst hrest
        cases hplace
        exact absurd hbad not_badEscape_nil
      · exact ⟨place, .plain hquote hc hplace, hbad⟩
    · rintro ⟨place, hplace, hbad⟩
      cases hplace with
      | here =>
        rcases hbad with ⟨_, _, _, htext, -⟩
        rcases List.cons.inj htext with ⟨rfl, rfl⟩
        exact absurd rfl (hslash _ _ rfl)
      | plain _ _ hrest => exact ⟨place, hrest, hbad⟩
      | escape => exact absurd rfl (hslash _ _ rfl)

/-! ## Bad strings in a text -/

namespace Cursor

/-- From one place in a text, scanning comes to a later place by reading tokens. -/
inductive Reaches : Cursor → Cursor → Prop
  /-- Every place is reached from itself. -/
  | here (cursor : Cursor) : Reaches cursor cursor
  /-- Over a token. -/
  | step {cursor after place : Cursor} {token : Token} (hnext : cursor.next = .token token after)
      (h : Reaches after place) : Reaches cursor place

/-- Behind the blanks stands a string, or a symbol in quotes, with a bad escape in it. -/
def BadString (cursor : Cursor) : Prop :=
  ∃ body place,
    (cursor.skipBlanks.rest = '"' :: body ∨ cursor.skipBlanks.rest = ':' :: '"' :: body) ∧
      StringReaches body place ∧ BadEscape place

/-- Reading the token of a string fails exactly when the string does. -/
theorem failed_string_iff {start : Cursor} {lead : Nat} {lexeme : String → Lexeme}
    {body : List Char} :
    (∃ cause after, start.string lead lexeme body = .failed cause after) ↔
      ∃ place, StringReaches body place ∧ BadEscape place := by
  rw [← failed_scanString_iff, string]
  cases scanString body <;> simp [emit]

/-- A step fails exactly at a bad string. -/
theorem failed_next_iff {cursor : Cursor} :
    (∃ cause after, cursor.next = .failed cause after) ↔ cursor.BadString := by
  unfold next BadString
  generalize cursor.skipBlanks = start
  simp only
  split
  · next h => simp [h]
  · next rest h => simp [h, emit]
  · next rest h => simp [h, emit]
  · next rest h => simp [h, failed_string_iff]
  · next rest h => simp [h, failed_string_iff]
  · next c rest _ _ hquote hcolon h =>
    simp only [word, emit, reduceCtorEq, exists_false, false_iff]
    rintro ⟨body, place, hstart | hstart, -⟩
    · exact hquote (List.cons.inj (h.symm.trans hstart)).1
    · rcases List.cons.inj (h.symm.trans hstart) with ⟨hc, hrest⟩
      exact hcolon _ hc hrest

end Cursor

/-- Scanning breaks off exactly when it comes to a bad string.  The induction is on what is left
to read. -/
theorem error_scanFrom_iff {cursor : Cursor} :
    (∃ cause, Tokens.scanFrom cursor = .error cause) ↔
      ∃ place, cursor.Reaches place ∧ place.BadString := by
  induction hn : cursor.rest.length using Nat.strongRecOn generalizing cursor with
  | ind n ih =>
    subst hn
    have hhere : cursor.BadString ↔ ∃ cause after, cursor.next = .failed cause after :=
      Cursor.failed_next_iff.symm
    cases hnext : cursor.next with
    | finished place =>
      rw [Tokens.scanFrom_of_finished hnext]
      simp only [reduceCtorEq, exists_false, false_iff]
      rintro ⟨other, hother, hbad⟩
      cases hother with
      | here => simp [hhere, hnext] at hbad
      | step hstep => cases hnext.symm.trans hstep
    | failed cause after =>
      rw [Tokens.scanFrom_of_failed hnext]
      exact iff_of_true ⟨cause, rfl⟩ ⟨cursor, .here cursor, hhere.2 ⟨cause, after, hnext⟩⟩
    | token token after =>
      have hlt := cursor.length_next_lt (by simp [hnext])
      rw [hnext] at hlt
      have hrest : (∃ cause, Tokens.scanFrom after = .error cause) ↔
          ∃ place, after.Reaches place ∧ place.BadString := ih after.rest.length hlt rfl
      rw [Tokens.scanFrom_of_token hnext]
      constructor
      · rintro ⟨cause, h⟩
        cases hscan : Tokens.scanFrom after with
        | ok tokens => rw [hscan] at h; cases h
        | error cause =>
          rcases hrest.1 ⟨cause, hscan⟩ with ⟨place, hplace, hbad⟩
          exact ⟨place, .step hnext hplace, hbad⟩
      · rintro ⟨place, hplace, hbad⟩
        cases hplace with
        | here => simp [hhere, hnext] at hbad
        | step hstep hplace =>
          cases hnext.symm.trans hstep
          rcases hrest.2 ⟨place, hplace, hbad⟩ with ⟨cause, hcause⟩
          exact ⟨cause, by rw [hcause]; rfl⟩

/-- Scanning the text comes to a string with a bad escape in it. -/
def HasBadEscape (text : String) : Prop :=
  ∃ place, (Cursor.ofText text).Reaches place ∧ place.BadString

/-! ## Reports hold errors -/

/-- All reports are errors. -/
def AllErrors (reports : List Diagnostic) : Prop :=
  ∀ report ∈ reports, report.severity = .error

/-- Reports in front of others are errors if both are. -/
theorem AllErrors.append {front back : List Diagnostic} (hfront : AllErrors front)
    (hback : AllErrors back) : AllErrors (front ++ back) :=
  List.forall_mem_append.2 ⟨hfront, hback⟩

/-- One of some errors is an error. -/
theorem AllErrors.hasErrors {reports : List Diagnostic} (h : AllErrors reports)
    (hne : reports ≠ []) : hasErrors reports = true := by
  rcases List.exists_mem_of_ne_nil reports hne with ⟨report, hreport⟩
  exact List.any_eq_true.2 ⟨report, hreport, by simp [h report hreport]⟩

/-- What is reported on single tokens are errors. -/
theorem allErrors_complaints (size : Nat) (tokens : List Token) :
    AllErrors (complaints size tokens) := by
  intro report hreport
  rcases List.mem_filterMap.1 hreport with ⟨suffix, -, hsuffix⟩
  split at hsuffix
  · cases hsuffix
  · unfold complaint? at hsuffix
    split at hsuffix
    · split at hsuffix
      · cases hsuffix
      · rcases Option.map_eq_some_iff.1 hsuffix with ⟨here, -, rfl⟩
        rfl
    · split at hsuffix
      · cases hsuffix
        rfl
      · cases hsuffix

/-- What is reported on parentheses without a partner are errors. -/
theorem allErrors_unclosedReports (tokens : List Token) : AllErrors (unclosedReports tokens) := by
  intro report hreport
  rcases List.mem_filterMap.1 (List.mem_reverse.1 hreport) with ⟨suffix, -, hsuffix⟩
  split at hsuffix
  · cases hsuffix
  · split at hsuffix
    · cases hsuffix
      rfl
    · cases hsuffix

/-- What is reported on a node are errors. -/
theorem allErrors_readNode {size : Nat} {tokens : List Token}
    (hopening : tokens.head?.map Token.lexeme = some .opening) :
    AllErrors (readNode size tokens).diagnostics := by
  cases hplace : partner? tokens with
  | some place =>
    rw [(readNode_reports_closed size hopening hplace).2]
    exact allErrors_complaints _ _
  | none =>
    rw [(readNode_reports_unclosed size hopening hplace).2]
    exact (allErrors_complaints _ _).append (allErrors_unclosedReports _)

/-- What is reported on the tokens of a text are errors. -/
theorem allErrors_readRoot (size : Nat) (tokens : List Token) :
    AllErrors (readRoot size tokens).diagnostics := by
  unfold readRoot
  split
  · next hopening =>
    simp only
    split
    · exact allErrors_readNode hopening
    · exact (allErrors_readNode hopening).append (by simp [AllErrors, Diagnostic.error])
  · simp [AllErrors, Diagnostic.error]

/-- What is reported on faulty tokens are errors. -/
theorem allErrors_tokens (tokens : Tokens) : AllErrors tokens.diagnostics := by
  intro report hreport
  rcases List.mem_filterMap.1 hreport with ⟨token, -, htoken⟩
  unfold Token.diagnostic? at htoken
  split at htoken
  · cases htoken
    rfl
  · cases htoken

/-! ## Outcomes -/

/-- Tokens that are not read as a node are refused with an error in the report. -/
theorem ofText_of_tokens {text : String} {tokens : Tokens}
    (htext : Tokens.ofText text = .ok tokens) :
    (∃ node, Node.ofText text = .ok node) ∨
      ∃ reports, Node.ofText text = .error (.malformed reports) ∧ hasErrors reports = true := by
  have herrors := (allErrors_tokens tokens).append (allErrors_readRoot tokens.size tokens.toList)
  by_cases hclean : tokens.diagnostics ++ (readRoot tokens.size tokens.toList).diagnostics = []
  · rcases List.append_eq_nil_iff.1 hclean with ⟨hlexer, hreader⟩
    have hsound := Tokens.diagnostics_eq_nil_iff.1 hlexer
    rcases exists_spellsNode_of_readRoot hsound hreader with ⟨node, hnode⟩
    exact .inl ⟨node, ofText_eq_ok_iff.2 ⟨tokens, htext, hsound, hnode⟩⟩
  · refine .inr ⟨_, ?_, herrors.hasErrors hclean⟩
    unfold Node.ofText
    rw [htext]
    simp only
    split
    · next hnil => exact absurd hnil hclean
    · rfl

/-- A text is read as a node, or refused with an error in the report, exactly when scanning comes
to no string with a bad escape in it.  At such a string reading breaks off without a report. -/
theorem refused_with_errors_iff (text : String) :
    ((∃ node, Node.ofText text = .ok node) ∨
      (∃ reports, Node.ofText text = .error (.malformed reports) ∧ hasErrors reports = true) ↔
        ¬ HasBadEscape text) ∧
    ((∃ cause, Node.ofText text = .error (.escape cause)) ↔ HasBadEscape text) := by
  have hbad : HasBadEscape text ↔ ∃ cause, Tokens.ofText text = .error cause :=
    error_scanFrom_iff.symm
  rw [hbad]
  cases htext : Tokens.ofText text with
  | error cause =>
    have hescape : Node.ofText text = .error (.escape cause) := by
      unfold Node.ofText
      rw [htext]
    simp [hescape]
  | ok tokens =>
    have houtcome := ofText_of_tokens htext
    refine ⟨iff_of_true houtcome (by simp), iff_of_false ?_ (by simp)⟩
    rintro ⟨cause, hcause⟩
    rcases houtcome with ⟨node, h⟩ | ⟨reports, h, -⟩ <;> cases hcause.symm.trans h

/-- A word in braces that is no number breaks reading off, with neither a node nor a report. -/
theorem not_refused_with_errors :
    ¬ ∀ text : String, (∃ node, Node.ofText text = .ok node) ∨
      ∃ reports, Node.ofText text = .error (.malformed reports) ∧ hasErrors reports = true := by
  intro h
  have hword : ¬ NamesCodePoint ['z', 'z'] := by
    rintro ⟨n, hn, -⟩
    cases hn
  have hescape : BadEscape ['\\', 'u', '\x7b', 'z', 'z', '\x7d', '"'] :=
    ⟨['z', 'z'], ['"'], ['z', 'z'], rfl, by simp, by decide, hword⟩
  have hstring : (Cursor.ofText "\"\\u\x7bzz\x7d\"").BadString :=
    ⟨_, _, .inl rfl, .here _, hescape⟩
  rcases error_scanFrom_iff.2 ⟨_, .here _, hstring⟩ with ⟨cause, hscan⟩
  have hescape : Node.ofText "\"\\u\x7bzz\x7d\"" = .error (.escape cause) := by
    unfold Node.ofText
    rw [Tokens.ofText, hscan]
  rcases h "\"\\u\x7bzz\x7d\"" with ⟨node, hnode⟩ | ⟨reports, hreports, -⟩
  · cases hescape.symm.trans hnode
  · cases hescape.symm.trans hreports

end RubyTree.Sexp
