import RubyTree.Proofs.Sexp.Tiling

/-!
# Progress of a scanner

A scanner can be asked for a token as often as one likes, also behind a bad escape.
It then goes on in the middle of the string that held the escape, at a place that no
completed scan comes to.  So its progress is shown for every place in a text.

Main results:

- `Scanner.call` is one call: its reply, and the scanner afterwards.
- `Cursor.In.next_after`: from every place in a text, a step ends in the text, and
  further on if it is not the one at the end.
- `Scanner.Advances` says what one call does, and `Scanner.advances_call` that every
  call of a scanner that stands in its text does.
- `Scanner.min_le_offset_afterCalls`: as many calls as the text has characters come to
  its end.
- `Scanner.calls_advance` puts this together for any number of calls.
-/

namespace RubyTree.Sexp

open RubyTree.Text

/-! ## Calls -/

/-- A scanner in use: where it stands in its text, and what it has reported. -/
structure Scanner where
  /-- The place behind what was read. -/
  cursor : Cursor
  /-- The reports, in the order in which they were made. -/
  reports : List Diagnostic
deriving DecidableEq

namespace Scanner

/-- What a call replies. -/
inductive Reply where
  /-- There is no further token.  The end of the text is an empty range. -/
  | finished (range : Range)
  /-- The next token. -/
  | token (token : Token)
  /-- A bad escape in a string. -/
  | badEscape (cause : EscapeError)
  /-- There is no range for the report of a fault. -/
  | badRange (cause : RangeError)
deriving DecidableEq

/-- The reports that come with a reply. -/
def Reply.reports : Reply → List Diagnostic
  | .token found => found.diagnostic?.toList
  | _ => []

/-- Asks for the next token of a text of some size.  The scanner stands behind what was read, also
if that is refused, and a fault is reported where the token of the fault ends. -/
def call (scanner : Scanner) (size : Nat) : Reply × Scanner :=
  match scanner.cursor.next with
  | .finished place => (.finished (endRange place.offset), ⟨place, scanner.reports⟩)
  | .failed cause place => (.badEscape cause, ⟨place, scanner.reports⟩)
  | .token token place =>
    match token.lexeme with
    | .faulty fault =>
      match fault.report size token.range.start place.offset with
      | .error cause => (.badRange cause, ⟨place, scanner.reports⟩)
      | .ok report => (.token token, ⟨place, scanner.reports ++ [report]⟩)
    | _ => (.token token, ⟨place, scanner.reports⟩)

/-- The scanner of a text after some calls. -/
def afterCalls (text : String) : Nat → Scanner
  | 0 => ⟨.ofText text, []⟩
  | n + 1 => ((afterCalls text n).call text.length).2

/-- The reply to the call that comes after some others. -/
def reply (text : String) (n : Nat) : Reply :=
  ((afterCalls text n).call text.length).1

end Scanner

/-! ## One step from any place -/

namespace Cursor

variable {text : List Char} {cursor : Cursor}

/-- A step from a place in a text ends in the text.  It does not go back, and it moves on unless
there is no further token. -/
theorem In.next_after (hin : cursor.In text) :
    cursor.next.after.In text ∧ cursor.offset ≤ cursor.next.after.offset ∧
      ((∀ place, cursor.next ≠ .finished place) → cursor.offset < cursor.next.after.offset) := by
  have hskip := hin.skipBlanks
  have hle : cursor.offset ≤ cursor.skipBlanks.offset := Nat.le_add_right _ _
  rcases cursor.next_after with ⟨hend, -⟩ | ⟨n, hpos, hlength, hafter⟩
  · rw [hend]
    exact ⟨hskip, hle, fun hmore => absurd rfl (hmore _)⟩
  · have hlt : cursor.skipBlanks.offset < (cursor.skipBlanks.forward n).offset :=
      Nat.lt_add_of_pos_right hpos
    rw [hafter]
    exact ⟨hskip.forward hlength, hle.trans hlt.le, fun _ => hle.trans_lt hlt⟩

/-- At the end of the text there is no further token, and a step stays where it is. -/
theorem In.next_of_offset_eq (hin : cursor.In text) (h : cursor.offset = text.length) :
    cursor.next = .finished cursor :=
  next_of_rest_nil (hin.rest_eq_nil_iff.2 h)

end Cursor

/-! ## One call -/

namespace Scanner

variable {text : List Char} {size : Nat} {scanner : Scanner} {place : Cursor}

/-- At the end of the text a call reports nothing. -/
theorem call_of_finished (h : scanner.cursor.next = .finished place) :
    scanner.call size = (.finished (endRange place.offset), ⟨place, scanner.reports⟩) := by
  rw [call, h]

/-- At a bad escape a call reports nothing, and the scanner goes on behind the escape. -/
theorem call_of_failed {cause : EscapeError} (h : scanner.cursor.next = .failed cause place) :
    scanner.call size = (.badEscape cause, ⟨place, scanner.reports⟩) := by
  rw [call, h]

/-- A call that reads a token adds its report, if it has one; there always is a range for it. -/
theorem call_of_token {token : Token} (hin : scanner.cursor.In text)
    (h : scanner.cursor.next = .token token place) :
    scanner.call text.length =
      (.token token, ⟨place, scanner.reports ++ token.diagnostic?.toList⟩) := by
  rcases hin.next h with ⟨hpiece, -, hstop, -⟩
  rw [call, h]
  cases hlexeme : token.lexeme with
  | faulty fault =>
    simp only [hlexeme, Token.diagnostic?_of_faulty hlexeme, ← hstop, hpiece.report fault,
      Option.toList_some]
  | opening | closing | identifier | symbol | string | int | float =>
    have hsound : token.diagnostic? = none := by simp only [Token.diagnostic?, hlexeme]
    simp only [hlexeme, hsound, Option.toList_none, List.append_nil]

/-- What a call does to a scanner of a text. -/
structure Advances (text : List Char) (before : Scanner) (reply : Reply) (after : Scanner) :
    Prop where
  /-- The scanner stands in the text, not behind its end. -/
  in_text : after.cursor.In text
  /-- It does not go back. -/
  offset_le : before.cursor.offset ≤ after.cursor.offset
  /-- It moves on, unless there is no further token. -/
  offset_lt : (∀ range, reply ≠ .finished range) → before.cursor.offset < after.cursor.offset
  /-- Reports are added behind those that are there, and only those of the reply. -/
  reports_eq : after.reports = before.reports ++ reply.reports
  /-- Every report has a range. -/
  ne_badRange : ∀ cause, reply ≠ .badRange cause
  /-- Without a further token the scanner stands at the end of the text. -/
  finished : ∀ range, reply = .finished range →
    range = endRange text.length ∧ after.cursor.offset = text.length
  /-- At the end of the text nothing changes. -/
  settled : before.cursor.offset = text.length →
    reply = .finished (endRange text.length) ∧ after = before

/-- Every call of a scanner that stands in its text advances it. -/
theorem advances_call (hin : scanner.cursor.In text) :
    Advances text scanner (scanner.call text.length).1 (scanner.call text.length).2 := by
  rcases hin.next_after with ⟨hafter, hle, hlt⟩
  have hsettled := hin.next_of_offset_eq
  cases hnext : scanner.cursor.next with
  | finished place =>
    have hend : place.offset = text.length := by
      rcases Cursor.next_eq_finished hnext with ⟨rfl, hrest⟩
      exact hin.skipBlanks.rest_eq_nil_iff.1 hrest
    rw [hnext] at hafter hle hsettled
    rw [call_of_finished hnext, hend]
    refine ⟨hafter, hle, fun hmore => absurd rfl (hmore _), by simp [Reply.reports], by simp,
      ?_, ?_⟩
    · rintro range ⟨⟩
      exact ⟨rfl, hend⟩
    · intro hoffset
      cases hsettled hoffset
      exact ⟨rfl, rfl⟩
  | failed cause place =>
    rw [hnext] at hafter hle hlt hsettled
    rw [call_of_failed hnext]
    exact ⟨hafter, hle, fun _ => hlt (by simp), by simp [Reply.reports], by simp, by simp,
      fun hoffset => by cases hsettled hoffset⟩
  | token token place =>
    rw [hnext] at hafter hle hlt hsettled
    rw [call_of_token hin hnext]
    exact ⟨hafter, hle, fun _ => hlt (by simp), rfl, by simp, by simp,
      fun hoffset => by cases hsettled hoffset⟩

/-! ## Many calls -/

/-- After any calls the scanner stands in its text. -/
theorem in_afterCalls (text : String) (n : Nat) : (afterCalls text n).cursor.In text.toList := by
  induction n with
  | zero => exact Cursor.ofText_in text
  | succ n ih =>
    have hcall := (advances_call ih).in_text
    rwa [String.length_toList] at hcall

/-- Every call advances the scanner, whatever calls came before. -/
theorem advances_afterCalls (text : String) (n : Nat) :
    Advances text.toList (afterCalls text n) (reply text n) (afterCalls text (n + 1)) := by
  have hcall := advances_call (in_afterCalls text n)
  rwa [String.length_toList] at hcall

/-- Each call comes one character further at least, up to the end of the text. -/
theorem min_le_offset_afterCalls (text : String) (n : Nat) :
    min n text.length ≤ (afterCalls text n).cursor.offset := by
  induction n with
  | zero => simp
  | succ n ih =>
    have hcall := advances_afterCalls text n
    have hle := hcall.offset_le
    by_cases hfinished : ∃ range, reply text n = .finished range
    · rcases hfinished with ⟨range, hrange⟩
      have hend := (hcall.finished range hrange).2
      rw [String.length_toList] at hend
      omega
    · have hlt := hcall.offset_lt fun range hrange => hfinished ⟨range, hrange⟩
      omega

/-- The reports after any calls are those of the replies, in their order. -/
theorem reports_afterCalls (text : String) (n : Nat) :
    (afterCalls text n).reports = (List.range n).flatMap fun k => (reply text k).reports := by
  induction n with
  | zero => rfl
  | succ n ih =>
    rw [(advances_afterCalls text n).reports_eq, ih, List.range_succ, List.flatMap_append,
      List.flatMap_singleton]

/-- A scanner advances with every call, also behind bad escapes.  It stays in its text and does not
go back, moves on with each token and each refusal, and only adds to its reports, so that they are
those of the replies.  After as many calls as the text has characters, every call replies the empty
range at the end of the text and changes nothing. -/
theorem calls_advance (text : String) (n : Nat) :
    Advances text.toList (afterCalls text n) (reply text n) (afterCalls text (n + 1)) ∧
      ((afterCalls text n).reports = (List.range n).flatMap fun k => (reply text k).reports) ∧
      (text.length ≤ n →
        reply text n = .finished (endRange text.length) ∧
          afterCalls text (n + 1) = afterCalls text n) := by
  have hcall := advances_afterCalls text n
  refine ⟨hcall, reports_afterCalls text n, fun hn => ?_⟩
  have hle := (in_afterCalls text n).offset_le
  have hcome := min_le_offset_afterCalls text n
  rw [String.length_toList] at hle
  have hend : (afterCalls text n).cursor.offset = text.length := by omega
  rw [← String.length_toList] at hend ⊢
  exact hcall.settled hend

/-- Behind a bad escape the scanner stands in front of a quote, which now opens a string; that
string is not closed.  After this the scanner is at the end of the text. -/
theorem calls_advance_bad_escape :
    let text := "\"\\u\x7bzz\x7d\" :a"
    let unclosed : Token := ⟨.faulty .unterminatedString, ⟨7, 11, by decide⟩, "\" :a"⟩
    reply text 0 = .badEscape (.notHexadecimal "zz") ∧
      (afterCalls text 0).cursor.offset < (afterCalls text 1).cursor.offset ∧
      reply text 1 = .token unclosed ∧
      (afterCalls text 1).cursor.offset < (afterCalls text 2).cursor.offset ∧
      (afterCalls text 2).reports = unclosed.diagnostic?.toList ∧
      text.length ≤ 11 ∧ reply text 11 = .finished (endRange 11) ∧
      afterCalls text 12 = afterCalls text 11 := by
  intro text unclosed
  have hescape : reply text 0 = .badEscape (.notHexadecimal "zz") := by
    decide +kernel
  have hstring : reply text 1 = .token unclosed := by
    decide +kernel
  have hlength : text.length = 11 := by decide
  rcases calls_advance text 0 with ⟨hfirst, -, -⟩
  rcases calls_advance text 1 with ⟨hsecond, -, -⟩
  rcases calls_advance text 2 with ⟨-, hreports, -⟩
  rcases (calls_advance text 11).2.2 hlength.le with ⟨hend, hsame⟩
  rw [hlength] at hend
  refine ⟨hescape, hfirst.offset_lt (by simp [hescape]), hstring,
    hsecond.offset_lt (by simp [hstring]), ?_, hlength.le, hend, hsame⟩
  rw [hreports]
  simp only [List.range_succ, List.range_zero, List.nil_append, List.flatMap_append,
    List.flatMap_singleton, hescape, hstring, Reply.reports]

end Scanner

end RubyTree.Sexp
