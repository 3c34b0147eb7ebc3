import Mathlib.Data.List.Forall2
import RubyTree.Proofs.Sexp.Scanning
import RubyTree.Sexp.Reader

/-!
# Tokens tile their text

Every token is cut out of the text: it is not empty, its text is what stands in
its range, and it starts where the token before it ends or behind that.  What is
skipped is blank, apart from the colon in front of a quote that is never closed.

The reports of faulty tokens are also computed as they arise, from the place where
the scanner stands, and compared with those that follow from the tokens.

Main results:

- `next_eq_emit`: one step emits a token behind the blanks, or one character further.
- `Cut` says how a token is cut out of a text, and `Scans.tiles` that all tokens of a
  scan are.
- `Scans.reports`: the reports of a scan are those of its tokens.
- `tokens_tile` puts this together for a whole text.
-/

namespace RubyTree.Sexp

open RubyTree.Text

/-! ## Stretches of a text -/

/-- All characters are blank. -/
def AllBlank (stretch : List Char) : Prop :=
  ∀ c ∈ stretch, isBlank c = true

/-- What stands between two offsets of a text. -/
def between (text : List Char) (start stop : Nat) : List Char :=
  (text.take stop).drop start

theorem between_succ {text rest : List Char} {c : Char} {start stop : Nat} (hle : start ≤ stop)
    (h : text.drop stop = c :: rest) :
    between text start (stop + 1) = between text start stop ++ [c] := by
  have hlt : stop < text.length := by
    have hlength := congrArg List.length h
    rw [List.length_drop, List.length_cons] at hlength
    omega
  have hget : text[stop]? = some c := by
    rw [← List.head?_drop, h]
    rfl
  rw [between, between, List.take_add_one, hget, Option.toList_some,
    List.drop_append_of_le_length (by rw [List.length_take]; omega)]

/-- The cursor stands in the text, in front of what the text holds behind its offset. -/
structure Cursor.In (text : List Char) (cursor : Cursor) : Prop where
  /-- The offset is not behind the end. -/
  offset_le : cursor.offset ≤ text.length
  /-- The rest is what stands behind the offset. -/
  rest_eq : cursor.rest = text.drop cursor.offset

namespace Cursor

variable {text : List Char} {cursor : Cursor}

theorem In.length_rest (h : cursor.In text) :
    cursor.rest.length = text.length - cursor.offset := by
  rw [h.rest_eq, List.length_drop]

/-- Nothing is left to read exactly at the end of the text. -/
theorem In.rest_eq_nil_iff (h : cursor.In text) :
    cursor.rest = [] ↔ cursor.offset = text.length := by
  have hle := h.offset_le
  rw [← List.length_eq_zero_iff, h.length_rest]
  omega

/-- A move forward that stays within the rest stays in the text. -/
theorem In.forward (h : cursor.In text) {n : Nat} (hn : n ≤ cursor.rest.length) :
    (cursor.forward n).In text := by
  have hlength := h.length_rest
  have hle := h.offset_le
  constructor
  · show cursor.offset + n ≤ text.length
    omega
  · show cursor.rest.drop n = text.drop (cursor.offset + n)
    rw [h.rest_eq, List.drop_drop]

/-- The next characters of the rest stand between two offsets of the text. -/
theorem In.take_rest (h : cursor.In text) (n : Nat) :
    cursor.rest.take n = between text cursor.offset (cursor.offset + n) := by
  rw [h.rest_eq, between, List.take_drop]

/-- Skipping blanks stays in the text. -/
theorem In.skipBlanks (h : cursor.In text) : cursor.skipBlanks.In text :=
  h.forward (List.takeWhile_prefix _).length_le

/-- What is skipped in front of a token is blank. -/
theorem In.allBlank_skipped (h : cursor.In text) :
    AllBlank (between text cursor.offset cursor.skipBlanks.offset) := by
  intro c hc
  have hskipped : between text cursor.offset cursor.skipBlanks.offset =
      cursor.rest.takeWhile isBlank := by
    rw [Cursor.skipBlanks, Cursor.forward, ← h.take_rest]
    exact (List.prefix_iff_eq_take.1 (List.takeWhile_prefix isBlank)).symm
  rw [hskipped] at hc
  exact List.mem_takeWhile_imp hc

end Cursor

/-! ## One step -/

namespace Cursor

variable {start cursor after : Cursor} {token : Token}

@[simp] theorem forward_zero (cursor : Cursor) : cursor.forward 0 = cursor := rfl

/-- A string is emitted from its first character on, or from its quote on if it is not closed. -/
theorem string_eq_emit {lead : Nat} {lexeme : String → Lexeme} {body : List Char}
    (hlength : start.rest.length = lead + 1 + body.length)
    (h : start.string lead lexeme body = .token token after) :
    (∃ lexeme size, .token token after = start.emit lexeme size ∧ 0 < size ∧
      size ≤ start.rest.length) ∨
    .token token after =
      (start.forward lead).emit (.faulty .unterminatedString) (1 + body.length) := by
  unfold string at h
  cases hscan : scanString body with
  | closed value size =>
    have hsize : 0 < size ∧ size ≤ body.length := size_scanString (by rw [hscan]; rfl)
    rw [hscan] at h
    exact .inl ⟨_, lead + 1 + size, h.symm, by omega, by omega⟩
  | unclosed =>
    rw [hscan] at h
    exact .inr h.symm
  | failed cause size =>
    rw [hscan] at h
    cases h

/-- A step emits its token behind the blanks.  Only where the string of a quoted symbol is not
closed, the token starts one character further, and then it reaches to the end of the text. -/
theorem next_eq_emit (h : cursor.next = .token token after) :
    (∃ lexeme size, .token token after = cursor.skipBlanks.emit lexeme size ∧ 0 < size ∧
      size ≤ cursor.skipBlanks.rest.length) ∨
    ∃ body, cursor.skipBlanks.rest = ':' :: '"' :: body ∧
      .token token after =
        (cursor.skipBlanks.forward 1).emit (.faulty .unterminatedString) (1 + body.length) := by
  unfold next at h
  generalize cursor.skipBlanks = start at h ⊢
  simp only at h
  split at h
  · cases h
  · next hrest => exact .inl ⟨_, 1, h.symm, by simp, by simp [hrest]⟩
  · next hrest => exact .inl ⟨_, 1, h.symm, by simp, by simp [hrest]⟩
  · next body hrest =>
    have hlength : start.rest.length = 0 + 1 + body.length := by simp [hrest]; omega
    rcases string_eq_emit hlength h with hemit | hemit
    · exact .inl hemit
    · exact .inl ⟨_, 1 + body.length, hemit, by omega, by omega⟩
  · next body hrest =>
    have hlength : start.rest.length = 1 + 1 + body.length := by simp [hrest]; omega
    rcases string_eq_emit hlength h with hemit | hemit
    · exact .inl hemit
    · exact .inr ⟨body, hrest, hemit⟩
  · next c rest _ _ _ _ hrest =>
    have htail : (rest.takeWhile isWordChar).length ≤ rest.length :=
      (List.takeWhile_prefix isWordChar).length_le
    exact .inl ⟨_, _, h.symm, Nat.succ_pos _, by simp [hrest, htail]⟩

end Cursor

/-! ## Tokens cut out of a text -/

/-- The token is a piece of the text: it is not empty, ends within the text, and its text is what
stands in its range. -/
structure Token.PieceOf (text : List Char) (token : Token) : Prop where
  /-- The token is not empty. -/
  start_lt_stop : token.range.start < token.range.stop
  /-- It ends within the text. -/
  stop_le : token.range.stop ≤ text.length
  /-- Its text is what stands in its range. -/
  text_eq : token.text.toList = token.range.slice text

/-- What may stand between a place and a token with other tokens behind it: blanks, and in front of
a last token that is an unclosed string also a colon. -/
def Gap (text : List Char) (place : Nat) (token : Token) (back : List Token) : Prop :=
  AllBlank (between text place token.range.start) ∨
    ∃ blanks, between text place token.range.start = blanks ++ [':'] ∧ AllBlank blanks ∧
      token.lexeme = .faulty .unterminatedString ∧ token.text.toList.head? = some '"' ∧ back = []

/-- How a token is cut out of a text, behind a place and in front of other tokens. -/
structure Cut (text : List Char) (place : Nat) (token : Token) (back : List Token) : Prop
    extends Token.PieceOf text token where
  /-- It does not start before the place. -/
  place_le : place ≤ token.range.start
  /-- What is skipped in front of it. -/
  gap : Gap text place token back

namespace Cursor

variable {text : List Char} {start cursor after : Cursor} {token : Token}

/-- An emitted token is a piece of the text, and the cursor behind it stands at its end. -/
theorem In.emit (hin : start.In text) {lexeme : Lexeme} {size : Nat} (hpos : 0 < size)
    (hsize : size ≤ start.rest.length) (h : .token token after = start.emit lexeme size) :
    token.PieceOf text ∧ after.In text ∧ token.range.start = start.offset ∧
      token.range.stop = after.offset := by
  cases h
  have hafter : (start.forward size).In text := hin.forward hsize
  refine ⟨⟨Nat.lt_add_of_pos_right hpos, hafter.offset_le, ?_⟩, hafter, rfl, rfl⟩
  rw [String.toList_ofList]
  exact hin.take_rest size

/-- In front of the string of a quoted symbol that is not closed, the colon is skipped, and nothing
is left behind the string. -/
theorem In.emit_unclosed (hin : cursor.In text) {body : List Char}
    (hrest : cursor.skipBlanks.rest = ':' :: '"' :: body)
    (h : .token token after =
      (cursor.skipBlanks.forward 1).emit (.faulty .unterminatedString) (1 + body.length)) :
    token.PieceOf text ∧ after.In text ∧ token.range.stop = after.offset ∧
      cursor.offset ≤ token.range.start ∧ after.rest = [] ∧ Gap text cursor.offset token [] := by
  have hskip := hin.skipBlanks
  have hle : cursor.offset ≤ cursor.skipBlanks.offset := Nat.le_add_right _ _
  have hquote : (cursor.skipBlanks.forward 1).rest = '"' :: body := by
    show cursor.skipBlanks.rest.drop 1 = '"' :: body
    rw [hrest]
    rfl
  have hquoteIn : (cursor.skipBlanks.forward 1).In text := hskip.forward (by simp [hrest])
  have hsize : 1 + body.length = (cursor.skipBlanks.forward 1).rest.length := by
    rw [hquote, List.length_cons]
    omega
  rcases hquoteIn.emit (by omega) hsize.le h with ⟨hpiece, hafter, hstart, hstop⟩
  have hgap : between text cursor.offset token.range.start =
      between text cursor.offset cursor.skipBlanks.offset ++ [':'] := by
    rw [hstart]
    exact between_succ hle (by rw [← hskip.rest_eq, hrest])
  cases h
  refine ⟨hpiece, hafter, hstop, hle.trans (Nat.le_succ _), ?_, .inr ?_⟩
  · show (cursor.skipBlanks.forward 1).rest.drop (1 + body.length) = []
    rw [hsize, List.drop_length]
  · refine ⟨_, hgap, hin.allBlank_skipped, rfl, ?_, rfl⟩
    simp [hquote, Nat.add_comm 1]

/-- A step cuts its token out of the text, and ends behind it.  Where a colon is skipped in front of
the token, nothing is left behind it. -/
theorem In.next (hin : cursor.In text) (h : cursor.next = .token token after) :
    token.PieceOf text ∧ after.In text ∧ token.range.stop = after.offset ∧
      cursor.offset ≤ token.range.start ∧
      ∀ back, (after.rest = [] → back = []) → Gap text cursor.offset token back := by
  rcases next_eq_emit h with ⟨lexeme, size, hemit, hpos, hsize⟩ | ⟨body, hrest, hemit⟩
  · rcases hin.skipBlanks.emit hpos hsize hemit with ⟨hpiece, hafter, hstart, hstop⟩
    refine ⟨hpiece, hafter, hstop, ?_, fun back _ => .inl ?_⟩
    · rw [hstart]
      exact Nat.le_add_right _ _
    · rw [hstart]
      exact hin.allBlank_skipped
  · rcases hin.emit_unclosed hrest hemit with ⟨hpiece, hafter, hstop, hle, hend, hgap⟩
    refine ⟨hpiece, hafter, hstop, hle, fun back hback => ?_⟩
    rw [hback hend]
    exact hgap

end Cursor

/-! ## All tokens of a scan -/

/-- Where the last of some tokens ends, or `place` where there is none. -/
def stopOf (place : Nat) : List Token → Nat
  | [] => place
  | token :: rest => stopOf token.range.stop rest

/-- At the end of the text there is no further token, and nothing is skipped. -/
theorem Cursor.next_of_rest_nil {cursor : Cursor} (h : cursor.rest = []) :
    cursor.next = .finished cursor := by
  simp [next, skipBlanks, h]

/-- At the end of the text no token is left. -/
theorem Scans.toList_of_rest_nil {cursor : Cursor} {tokens : Tokens} (h : Scans cursor tokens)
    (hrest : cursor.rest = []) : tokens.toList = [] := by
  cases h with
  | finished => rfl
  | token hnext => cases (Cursor.next_of_rest_nil hrest).symm.trans hnext

/-- All tokens of a scan are cut out of the text one behind the other, and behind the last one
there are only blanks up to the end. -/
theorem Scans.tiles {text : List Char} {cursor : Cursor} {tokens : Tokens}
    (h : Scans cursor tokens) (hin : cursor.In text) :
    tokens.size = text.length ∧
      (∀ front token back, tokens.toList = front ++ token :: back →
        Cut text (stopOf cursor.offset front) token back) ∧
      AllBlank (between text (stopOf cursor.offset tokens.toList) text.length) := by
  induction h with
  | finished hnext =>
    rcases Cursor.next_eq_finished hnext with ⟨rfl, hrest⟩
    have hend := hin.skipBlanks.rest_eq_nil_iff.1 hrest
    refine ⟨hend, by simp, ?_⟩
    rw [← hend]
    exact hin.allBlank_skipped
  | token hnext hscans ih =>
    rcases hin.next hnext with ⟨hpiece, hafter, hstop, hle, hgap⟩
    rcases ih hafter with ⟨hsize, hcuts, hblank⟩
    rw [← hstop] at hcuts hblank
    refine ⟨hsize, ?_, hblank⟩
    intro front token back hfront
    cases front with
    | nil =>
      rcases List.cons.inj hfront with ⟨rfl, rfl⟩
      exact ⟨hpiece, hle, hgap _ hscans.toList_of_rest_nil⟩
    | cons first front =>
      rcases List.cons.inj hfront with ⟨rfl, hothers⟩
      exact hcuts front token back hothers

/-! ## Reports as they arise -/

/-- The report of a fault that starts at an offset, made where the scanner stands at `place` in a
text of some size: it covers at least one character, and none behind the end. -/
def Fault.report (fault : Fault) (size start place : Nat) : Except RangeError Diagnostic :=
  (Range.ofBounds start (min (max place (start + 1)) size)).map fun range =>
    .error fault.problem range fault.detail?

/-- The reports of a scan in a text of some size, each made at the step that meets the fault. -/
def scanReports (size : Nat) (cursor : Cursor) : Except RangeError (List Diagnostic) :=
  match _step : cursor.next with
  | .finished _ => .ok []
  | .failed _ _ => .ok []
  | .token token after =>
    match token.lexeme with
    | .faulty fault =>
      match fault.report size token.range.start after.offset with
      | .error cause => .error cause
      | .ok report => (scanReports size after).map (report :: ·)
    | _ => scanReports size after
termination_by cursor.rest.length
decreasing_by
  all_goals
    have hlt := cursor.length_next_lt (by simp [_step])
    rw [_step] at hlt
    exact hlt

/-- A faulty token is reported in its own range. -/
theorem Token.diagnostic?_of_faulty {token : Token} {fault : Fault}
    (h : token.lexeme = .faulty fault) :
    token.diagnostic? = some (.error fault.problem token.range fault.detail?) := by
  simp only [diagnostic?, h]

/-- The report of a piece of the text is made in the range of the piece. -/
theorem Token.PieceOf.report {text : List Char} {token : Token} (h : token.PieceOf text)
    (fault : Fault) :
    fault.report text.length token.range.start token.range.stop =
      .ok (.error fault.problem token.range fault.detail?) := by
  have hlt := h.start_lt_stop
  have hle := h.stop_le
  have hbounds : Range.ofBounds token.range.start
      (min (max token.range.stop (token.range.start + 1)) text.length) = .ok token.range :=
    Range.ofBounds_eq_ok_iff.2 ⟨rfl, by omega⟩
  rw [Fault.report, hbounds]
  rfl

theorem scanReports_of_finished {size : Nat} {cursor place : Cursor}
    (h : cursor.next = .finished place) : scanReports size cursor = .ok [] := by
  rw [scanReports]
  split
  · rfl
  · rfl
  · next hother => cases h.symm.trans hother

/-- A token adds its report in front of those behind it. -/
theorem scanReports_of_token {text : List Char} {cursor after : Cursor} {token : Token}
    (hin : cursor.In text) (h : cursor.next = .token token after) :
    scanReports text.length cursor =
      (scanReports text.length after).map (token.diagnostic?.toList ++ ·) := by
  rcases hin.next h with ⟨hpiece, -, hstop, -⟩
  rw [scanReports]
  split
  · next hother => cases h.symm.trans hother
  · next hother => cases h.symm.trans hother
  · next hother =>
    cases h.symm.trans hother
    cases hlexeme : token.lexeme with
    | faulty fault =>
      simp only [Token.diagnostic?_of_faulty hlexeme, ← hstop, hpiece.report fault]
      rfl
    | opening | closing | identifier | symbol | string | int | float =>
      have hsound : token.diagnostic? = none := by simp only [Token.diagnostic?, hlexeme]
      simp only [hsound]
      cases scanReports text.length after <;> rfl

/-- The reports that are made during a scan are those of its faulty tokens, in their order. -/
theorem Scans.reports {text : List Char} {cursor : Cursor} {tokens : Tokens}
    (h : Scans cursor tokens) (hin : cursor.In text) :
    scanReports text.length cursor = .ok tokens.diagnostics := by
  induction h with
  | finished hnext => exact scanReports_of_finished hnext
  | @token _ _ token _ hnext _ ih =>
    rw [scanReports_of_token hin hnext, ih (hin.next hnext).2.1]
    unfold Tokens.diagnostics
    cases hreport : token.diagnostic? <;> simp [Except.map, hreport]

/-- The token is no lexeme. -/
def Token.isFaulty (token : Token) : Bool :=
  match token.lexeme with
  | .faulty _ => true
  | _ => false

/-- The report is the one of a faulty token, in the range of the token. -/
def Token.IsReportedBy (token : Token) (report : Diagnostic) : Prop :=
  ∃ fault, token.lexeme = .faulty fault ∧
    report = .error fault.problem token.range fault.detail?

/-- Faulty tokens and their reports stand side by side. -/
theorem forall₂_diagnostics (tokens : List Token) :
    List.Forall₂ Token.IsReportedBy (tokens.filter Token.isFaulty)
      (tokens.filterMap Token.diagnostic?) := by
  induction tokens with
  | nil => exact .nil
  | cons token tokens ih =>
    by_cases hfaulty : ∃ fault, token.lexeme = .faulty fault
    · rcases hfaulty with ⟨fault, hfault⟩
      have hreport := Token.diagnostic?_of_faulty hfault
      have hhead : token.isFaulty = true := by simp [Token.isFaulty, hfault]
      rw [List.filter_cons_of_pos hhead, List.filterMap_cons_some hreport]
      exact .cons ⟨fault, hfault, rfl⟩ ih
    · have hreport : token.diagnostic? = none := by
        unfold Token.diagnostic?
        split
        · next fault hfault => exact absurd ⟨fault, hfault⟩ hfaulty
        · rfl
      have hhead : ¬ token.isFaulty = true := by
        unfold Token.isFaulty
        split
        · next fault hfault => exact absurd ⟨fault, hfault⟩ hfaulty
        · simp
      rw [List.filter_cons_of_neg hhead, List.filterMap_cons_none hreport]
      exact ih

/-! ## Whole texts -/

theorem Cursor.ofText_in (text : String) : (Cursor.ofText text).In text.toList :=
  ⟨Nat.zero_le _, rfl⟩

/-- The tokens of a text tile it.  They end with the empty range at the end of the text; each is a
piece of the text behind the one before it; between them there are only blanks, apart from the colon
in front of an unclosed string, which is the last token.  The reports that arise during the scan are
those of the faulty tokens, one for each, in order, and in the range of the token. -/
theorem tokens_tile {text : String} {tokens : Tokens} (h : Tokens.ofText text = .ok tokens) :
    endRange tokens.size = ⟨text.length, text.length, Nat.le_refl text.length⟩ ∧
      (∀ front token back, tokens.toList = front ++ token :: back →
        Cut text.toList (stopOf 0 front) token back) ∧
      AllBlank (between text.toList (stopOf 0 tokens.toList) text.length) ∧
      scanReports text.length (.ofText text) = .ok tokens.diagnostics ∧
      List.Forall₂ Token.IsReportedBy (tokens.toList.filter Token.isFaulty) tokens.diagnostics := by
  have hscans : Scans (.ofText text) tokens := scanFrom_eq_ok_iff.1 h
  have hin := Cursor.ofText_in text
  rcases hscans.tiles hin with ⟨hsize, hcuts, hblank⟩
  have hreports := hscans.reports hin
  rw [String.length_toList] at hsize hblank hreports
  exact ⟨congrArg endRange hsize, hcuts, hblank, hreports, forall₂_diagnostics _⟩

/-- Behind a parenthesis and a character that starts no word, the string of a quoted symbol is not
closed: its colon is skipped together with the blank, and both faults are reported. -/
theorem tokens_tile_unclosed_symbol :
    let tokens : Tokens := ⟨[⟨.opening, ⟨0, 1, by decide⟩, "("⟩,
      ⟨.faulty (.unexpectedCharacter '#'), ⟨1, 2, by decide⟩, "#"⟩,
      ⟨.faulty .unterminatedString, ⟨4, 6, by decide⟩, "\"b"⟩], 6⟩
    Tokens.ofText "(# :\"b" = .ok tokens ∧
      between "(# :\"b".toList 2 4 = [' ', ':'] ∧
      scanReports 6 (.ofText "(# :\"b") = .ok tokens.diagnostics ∧
      tokens.diagnostics.map (·.range) = [⟨1, 2, by decide⟩, ⟨4, 6, by decide⟩] := by
  intro tokens
  have hbody : scanString ['b'] = .unclosed := by
    rw [scanString_plain (by decide) (by decide), scanString]
    rfl
  have hstep : Cursor.next ⟨2, [' ', ':', '"', 'b']⟩ =
      Cursor.string ⟨3, [':', '"', 'b']⟩ 1 (.symbol ⟨·⟩) ['b'] := rfl
  have hsymbol : Cursor.next ⟨2, [' ', ':', '"', 'b']⟩ =
      .token ⟨.faulty .unterminatedString, ⟨4, 6, by decide⟩, "\"b"⟩ ⟨6, []⟩ := by
    rw [hstep, Cursor.string, hbody]
    rfl
  have hword : Cursor.next ⟨1, ['#', ' ', ':', '"', 'b']⟩ =
      .token ⟨.faulty (.unexpectedCharacter '#'), ⟨1, 2, by decide⟩, "#"⟩
        ⟨2, [' ', ':', '"', 'b']⟩ := by
    decide +kernel
  have hscans : Scans (.ofText "(# :\"b") tokens :=
    .token rfl (.token hword (.token hsymbol (.finished rfl)))
  have htext : Tokens.ofText "(# :\"b" = .ok tokens := scanFrom_eq_ok_iff.2 hscans
  rcases tokens_tile htext with ⟨-, -, -, hreports, -⟩
  exact ⟨htext, by decide, hreports, by decide⟩

end RubyTree.Sexp
