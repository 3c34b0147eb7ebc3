import RubyTree.Proofs.Sexp.Quoting
import RubyTree.Proofs.Text.Runs

/-!
# Steps of the scanner

Scanning a text repeats one step.  The outcome of a step is told by the first
characters behind the blanks; a word reaches up to the first character that ends
it.

Main results:

- `scanFrom_of_finished`, `scanFrom_of_token` and `scanFrom_of_failed` are the three
  ways on from a step.
- `Scans` relates a cursor to the tokens that are read from it on, step by step, and
  `scanFrom_eq_ok_iff` says that these are the completed scans.
- `next_word`: the step over a word, from its characters and the one behind it.
- `ScansAs` relates a text to the lexemes of its tokens; there is one lemma for
  each way in which a text starts.
-/

namespace RubyTree.Sexp

open RubyTree.Text

namespace Tokens

variable {cursor place after : Cursor} {token : Token} {cause : EscapeError}

/-- At the end of the text there are no more tokens. -/
theorem scanFrom_of_finished (h : cursor.next = .finished place) :
    scanFrom cursor = .ok ⟨[], place.offset⟩ := by
  rw [scanFrom]
  split
  · next other hother =>
    cases h.symm.trans hother
    rfl
  · next hother => cases h.symm.trans hother
  · next hother => cases h.symm.trans hother

/-- A bad escape ends the scan. -/
theorem scanFrom_of_failed (h : cursor.next = .failed cause after) :
    scanFrom cursor = .error cause := by
  rw [scanFrom]
  split
  · next hother => cases h.symm.trans hother
  · next hother =>
    cases h.symm.trans hother
    rfl
  · next hother => cases h.symm.trans hother

/-- A token stands in front of those behind it. -/
theorem scanFrom_of_token (h : cursor.next = .token token after) :
    scanFrom cursor =
      (scanFrom after).map fun tokens => ⟨token :: tokens.toList, tokens.size⟩ := by
  rw [scanFrom]
  split
  · next hother => cases h.symm.trans hother
  · next hother => cases h.symm.trans hother
  · next hother =>
    cases h.symm.trans hother
    cases scanFrom after <;> rfl

/-- Scanning depends on the outcome of the first step only. -/
theorem scanFrom_congr {other : Cursor} (h : cursor.next = other.next) :
    scanFrom cursor = scanFrom other := by
  cases hother : other.next with
  | finished place =>
    rw [scanFrom_of_finished (h.trans hother), scanFrom_of_finished hother]
  | failed cause after =>
    rw [scanFrom_of_failed (h.trans hother), scanFrom_of_failed hother]
  | token token after =>
    rw [scanFrom_of_token (h.trans hother), scanFrom_of_token hother]

end Tokens

/-! ## Completed scans -/

/-- Scanning from the cursor reads the tokens, one at each step, up to the end of the text. -/
inductive Scans : Cursor → Tokens → Prop
  /-- There is no further token. -/
  | finished {cursor place : Cursor} (hnext : cursor.next = .finished place) :
      Scans cursor ⟨[], place.offset⟩
  /-- A token, and those that are read behind it. -/
  | token {cursor after : Cursor} {token : Token} {tokens : Tokens}
      (hnext : cursor.next = .token token after) (hscans : Scans after tokens) :
      Scans cursor ⟨token :: tokens.toList, tokens.size⟩

/-- A scan is completed exactly when it reads tokens up to the end of the text. -/
theorem scanFrom_eq_ok_iff {cursor : Cursor} {tokens : Tokens} :
    Tokens.scanFrom cursor = .ok tokens ↔ Scans cursor tokens := by
  constructor
  · intro h
    induction hn : cursor.rest.length using Nat.strongRecOn generalizing cursor tokens with
    | ind n ih =>
      subst hn
      cases hnext : cursor.next with
      | finished place =>
        rw [Tokens.scanFrom_of_finished hnext] at h
        cases h
        exact .finished hnext
      | failed cause after =>
        rw [Tokens.scanFrom_of_failed hnext] at h
        cases h
      | token token after =>
        have hlt := cursor.length_next_lt (by simp [hnext])
        rw [hnext] at hlt
        rw [Tokens.scanFrom_of_token hnext] at h
        cases hscan : Tokens.scanFrom after with
        | error cause =>
          rw [hscan] at h
          cases h
        | ok tokens =>
          rw [hscan] at h
          cases h
          exact .token hnext (ih after.rest.length hlt hscan rfl)
  · intro h
    induction h with
    | finished hnext => exact Tokens.scanFrom_of_finished hnext
    | token hnext _ ih =>
      rw [Tokens.scanFrom_of_token hnext, ih]
      rfl

/-- What is read depends on the outcome of the first step only. -/
theorem Scans.congr {cursor other : Cursor} {tokens : Tokens} (h : Scans other tokens)
    (hnext : cursor.next = other.next) : Scans cursor tokens := by
  cases h with
  | finished hother => exact .finished (hnext.trans hother)
  | token hother hscans => exact .token (hnext.trans hother) hscans

/-! ## Tokens over stretches -/

/-- What is emitted in front of a rest stands over the characters before it. -/
theorem Cursor.emit_append (offset : Nat) (stretch rest : List Char) (lexeme : Lexeme) :
    emit ⟨offset, stretch ++ rest⟩ lexeme stretch.length =
      .token (.over offset stretch lexeme) ⟨offset + stretch.length, rest⟩ := by
  simp [emit, forward, Token.over]

/-! ## Blanks and words -/

theorem isWordChar_iff {c : Char} :
    isWordChar c = true ↔ isBlank c = false ∧ c ≠ '(' ∧ c ≠ ')' ∧ c ≠ '"' := by
  simp [isWordChar, and_assoc]

/-- The text does not go on with a word, nor with the quote that would change what a word in front
of it is. -/
def EndsWord (rest : List Char) : Prop :=
  ∀ c ∈ rest.head?, isWordChar c = false ∧ c ≠ '"'

namespace Cursor

/-- A blank is skipped. -/
theorem skipBlanks_of_blank {c : Char} (h : isBlank c = true) (offset : Nat) (rest : List Char) :
    skipBlanks ⟨offset, c :: rest⟩ = skipBlanks ⟨offset + 1, rest⟩ := by
  simp only [skipBlanks, List.takeWhile_cons_of_pos h, forward, List.length_cons,
    List.drop_succ_cons]
  congr 1
  omega

/-- Nothing is skipped in front of a character that is no blank. -/
theorem skipBlanks_of_not_blank {c : Char} (h : isBlank c = false) (offset : Nat)
    (rest : List Char) : skipBlanks ⟨offset, c :: rest⟩ = ⟨offset, c :: rest⟩ := by
  rw [skipBlanks, List.takeWhile_cons_of_neg (by simp [h])]
  rfl

/-- A step does not see the blanks in front. -/
theorem next_of_blank {c : Char} (h : isBlank c = true) (offset : Nat) (rest : List Char) :
    next ⟨offset, c :: rest⟩ = next ⟨offset + 1, rest⟩ := by
  unfold next
  rw [skipBlanks_of_blank h]

/-- Without a further token nothing is left behind the blanks. -/
theorem next_eq_finished {cursor place : Cursor} (h : cursor.next = .finished place) :
    place = cursor.skipBlanks ∧ cursor.skipBlanks.rest = [] := by
  unfold next at h
  generalize cursor.skipBlanks = start at h ⊢
  simp only at h
  split at h
  · next hrest =>
    cases h
    exact ⟨rfl, hrest⟩
  · cases h
  · cases h
  · unfold string at h
    split at h <;> cases h
  · unfold string at h
    split at h <;> cases h
  · cases h

/-- A step in front of a word reads a word, unless its first character is the colon of a quoted
symbol. -/
theorem next_eq_word {cursor : Cursor} {c : Char} {rest : List Char}
    (hstart : cursor.skipBlanks.rest = c :: rest)
    (hc : c ≠ '(' ∧ c ≠ ')' ∧ c ≠ '"') (hquoted : ¬ (c = ':' ∧ rest.head? = some '"')) :
    cursor.next = cursor.skipBlanks.word c rest := by
  unfold next
  generalize cursor.skipBlanks = start at hstart ⊢
  simp only
  split
  · next h => cases hstart.symm.trans h
  · next h => exact absurd (List.cons.inj (hstart.symm.trans h)).1 hc.1
  · next h => exact absurd (List.cons.inj (hstart.symm.trans h)).1 hc.2.1
  · next h => exact absurd (List.cons.inj (hstart.symm.trans h)).1 hc.2.2
  · next h =>
    rcases List.cons.inj (hstart.symm.trans h) with ⟨rfl, rfl⟩
    exact absurd ⟨rfl, rfl⟩ hquoted
  · next h =>
    rcases List.cons.inj (hstart.symm.trans h) with ⟨rfl, rfl⟩
    rfl

/-- A step over a word ends where the word does, and the word is no longer than that. -/
theorem next_word {c : Char} {tail rest : List Char} (hword : ∀ d ∈ c :: tail, isWordChar d = true)
    (hrest : EndsWord rest) (offset : Nat) :
    ∃ token place, next ⟨offset, c :: (tail ++ rest)⟩ = .token token ⟨place, rest⟩ ∧
      token.lexeme = .ofWord c tail false := by
  rcases List.forall_mem_cons.1 hword with ⟨hc, htail⟩
  rcases isWordChar_iff.1 hc with ⟨hblank, hmarks⟩
  have htake : (tail ++ rest).takeWhile isWordChar = tail :=
    takeWhile_run htail fun d hd => (hrest d hd).1
  have hbehind : ¬ rest.head? = some '"' := fun h => (hrest '"' h).2 rfl
  have hquoted : ¬ (c = ':' ∧ (tail ++ rest).head? = some '"') := by
    -- the character behind a colon is one of the word, or ends it
    rintro ⟨-, hquote⟩
    cases tail with
    | nil => exact hbehind hquote
    | cons d tail =>
      obtain rfl : d = '"' := Option.some.inj hquote
      exact absurd (htail '"' List.mem_cons_self) (by decide)
  have hstart : skipBlanks ⟨offset, c :: (tail ++ rest)⟩ = ⟨offset, c :: (tail ++ rest)⟩ :=
    skipBlanks_of_not_blank hblank offset (tail ++ rest)
  rw [next_eq_word (by rw [hstart]) hmarks hquoted, hstart, word, emit, forward]
  simp only [htake, List.drop_succ_cons, List.drop_left, hbehind, decide_false]
  exact ⟨_, _, rfl, rfl⟩

/-- A step over an encoded text behind `lead` and a quote ends behind its closing quote. -/
theorem string_encoded {start : Cursor} (lead : List Char) {value rest : List Char}
    (lexeme : String → Lexeme)
    (h : start.rest = lead ++ '"' :: (encodeBody value ++ '"' :: rest)) :
    ∃ token place, start.string lead.length lexeme (encodeBody value ++ '"' :: rest) =
        .token token ⟨place, rest⟩ ∧ token.lexeme = lexeme (String.ofList value) := by
  have hdrop : start.rest.drop (lead.length + 1 + ((encodeBody value).length + 1)) = rest := by
    have hfront : start.rest = (lead ++ '"' :: (encodeBody value ++ ['"'])) ++ rest := by simp [h]
    rw [hfront]
    exact List.drop_left' (by simp; omega)
  rw [string, scanString_encodeBody]
  simp only [emit, forward, hdrop]
  exact ⟨_, _, rfl, rfl⟩

end Cursor

/-! ## Texts and lexemes -/

/-- The text is scanned as the lexemes, wherever it stands. -/
def ScansAs (text : List Char) (lexemes : List Lexeme) : Prop :=
  ∀ offset, ∃ tokens, Tokens.scanFrom ⟨offset, text⟩ = .ok tokens ∧
    tokens.toList.map Token.lexeme = lexemes

namespace ScansAs

variable {text rest : List Char} {lexemes : List Lexeme}

/-- A text is scanned in one way only. -/
theorem unique {others : List Lexeme} (h : ScansAs text lexemes) (hother : ScansAs text others) :
    lexemes = others := by
  rcases h 0 with ⟨tokens, hscan, rfl⟩
  rcases hother 0 with ⟨more, hmore, rfl⟩
  cases hscan.symm.trans hmore
  rfl

/-- An empty text has no lexemes. -/
theorem nil : ScansAs [] [] :=
  fun _ => ⟨_, Tokens.scanFrom_of_finished rfl, rfl⟩

/-- A blank adds no lexeme. -/
theorem blank {c : Char} (h : isBlank c = true) (hrest : ScansAs rest lexemes) :
    ScansAs (c :: rest) lexemes := by
  intro offset
  rcases hrest (offset + 1) with ⟨tokens, hscan, hlexemes⟩
  refine ⟨tokens, ?_, hlexemes⟩
  rw [← hscan]
  exact Tokens.scanFrom_congr (Cursor.next_of_blank h offset rest)

/-- Spaces add no lexeme. -/
theorem spaces (n : Nat) (hrest : ScansAs rest lexemes) :
    ScansAs (List.replicate n ' ' ++ rest) lexemes := by
  induction n with
  | zero => exact hrest
  | succ n ih => exact ih.blank (by decide)

/-- The lexeme of the first step stands in front of the others. -/
theorem step {lexeme : Lexeme} (hrest : ScansAs rest lexemes)
    (hstep : ∀ offset, ∃ token place, Cursor.next ⟨offset, text⟩ = .token token ⟨place, rest⟩ ∧
      token.lexeme = lexeme) :
    ScansAs text (lexeme :: lexemes) := by
  intro offset
  rcases hstep offset with ⟨token, place, hnext, htoken⟩
  rcases hrest place with ⟨tokens, hscan, hlexemes⟩
  refine ⟨⟨token :: tokens.toList, tokens.size⟩, ?_, ?_⟩
  · rw [Tokens.scanFrom_of_token hnext, hscan]
    rfl
  · rw [List.map_cons, htoken, hlexemes]

/-- An opening parenthesis. -/
theorem opening (hrest : ScansAs rest lexemes) : ScansAs ('(' :: rest) (.opening :: lexemes) :=
  hrest.step fun _ => ⟨_, _, rfl, rfl⟩

/-- A closing parenthesis. -/
theorem closing (hrest : ScansAs rest lexemes) : ScansAs (')' :: rest) (.closing :: lexemes) :=
  hrest.step fun _ => ⟨_, _, rfl, rfl⟩

/-- A word that ends where the rest starts. -/
theorem word {c : Char} {tail : List Char} (hword : ∀ d ∈ c :: tail, isWordChar d = true)
    (hends : EndsWord rest) (hrest : ScansAs rest lexemes) :
    ScansAs (c :: tail ++ rest) (.ofWord c tail false :: lexemes) :=
  hrest.step (Cursor.next_word hword hends)

/-- A quoted text. -/
theorem string (value : List Char) (hrest : ScansAs rest lexemes) :
    ScansAs (encode value ++ rest) (.string (String.ofList value) :: lexemes) := by
  apply hrest.step
  intro offset
  have htext : encode value ++ rest = '"' :: (encodeBody value ++ '"' :: rest) := by
    simp [encode]
  have hnext : Cursor.next ⟨offset, '"' :: (encodeBody value ++ '"' :: rest)⟩ =
      Cursor.string ⟨offset, '"' :: (encodeBody value ++ '"' :: rest)⟩ 0 .string
        (encodeBody value ++ '"' :: rest) := rfl
  rw [htext, hnext]
  exact Cursor.string_encoded [] _ rfl

/-- A quoted symbol. -/
theorem quotedSymbol (name : List Char) (hrest : ScansAs rest lexemes) :
    ScansAs (':' :: (encode name ++ rest)) (.symbol ⟨String.ofList name⟩ :: lexemes) := by
  apply hrest.step
  intro offset
  have htext : encode name ++ rest = '"' :: (encodeBody name ++ '"' :: rest) := by
    simp [encode]
  have hnext : Cursor.next ⟨offset, ':' :: '"' :: (encodeBody name ++ '"' :: rest)⟩ =
      Cursor.string ⟨offset, ':' :: '"' :: (encodeBody name ++ '"' :: rest)⟩ 1 (.symbol ⟨·⟩)
        (encodeBody name ++ '"' :: rest) := rfl
  rw [htext, hnext]
  exact Cursor.string_encoded [':'] _ rfl

end ScansAs

end RubyTree.Sexp
