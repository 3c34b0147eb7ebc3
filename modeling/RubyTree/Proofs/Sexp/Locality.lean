import RubyTree.Proofs.Sexp.OpenEscape
import RubyTree.Proofs.Sexp.Tiling

/-!
# Tokens do not depend on later text

Text that is put behind a blank changes no token in front of it.  There is one
exception: an escape in braces that is open in the first text is closed by the
first brace of the second one, and then scanning breaks off.

Main results:

- `Cursor.next_shift`: a step does not depend on where the text stands.
- `Cursor.next_extend`: a step over a token is the same in front of other text that
  ends words, unless it comes to an open escape.
- `Scans.extend` and `exists_badString_extend` follow from it for all steps of a scan.
- `ofText_append_iff`: when the tokens of two texts in a row are those of the first
  one and those of the second one.
-/

namespace RubyTree

open RubyTree.Text

/-! ## Moving tokens -/

/-- The range moved behind `n` more characters. -/
def Text.Range.shift (n : Nat) (range : Range) : Range :=
  ⟨range.start + n, range.stop + n, Nat.add_le_add_right range.start_le_stop n⟩

/-- The report moved behind `n` more characters. -/
def Diagnostic.shift (n : Nat) (report : Diagnostic) : Diagnostic :=
  ⟨report.problem, report.detail, report.range.shift n, report.severity⟩

namespace Sexp

/-- The token moved behind `n` more characters. -/
def Token.shift (n : Nat) (token : Token) : Token :=
  ⟨token.lexeme, token.range.shift n, token.text⟩

/-- The tokens moved behind `n` more characters. -/
def Tokens.shift (n : Nat) (tokens : Tokens) : Tokens :=
  ⟨tokens.toList.map (Token.shift n), tokens.size + n⟩

/-- Tokens with others behind them. -/
def Tokens.append (front back : Tokens) : Tokens :=
  ⟨front.toList ++ back.toList, back.size⟩

/-- The cursor moved behind `n` more characters. -/
def Cursor.shift (n : Nat) (cursor : Cursor) : Cursor :=
  ⟨cursor.offset + n, cursor.rest⟩

/-- The outcome of a step moved behind `n` more characters. -/
def Scan.shift (n : Nat) : Scan → Scan
  | .finished place => .finished (place.shift n)
  | .token read after => .token (read.shift n) (after.shift n)
  | .failed cause after => .failed cause (after.shift n)

/-- A moved faulty token has a moved report. -/
theorem Token.diagnostic?_shift (n : Nat) (token : Token) :
    (token.shift n).diagnostic? = token.diagnostic?.map (Diagnostic.shift n) := by
  unfold diagnostic?
  cases h : token.lexeme <;> simp [Token.shift, h, Diagnostic.shift, Diagnostic.error]

theorem Tokens.diagnostics_shift (n : Nat) (tokens : Tokens) :
    (tokens.shift n).diagnostics = tokens.diagnostics.map (Diagnostic.shift n) := by
  simp only [diagnostics, Tokens.shift, List.filterMap_map, List.map_filterMap]
  congr 1
  funext token
  exact token.diagnostic?_shift n

namespace Cursor

theorem forward_shift (cursor : Cursor) (n size : Nat) :
    (cursor.shift n).forward size = (cursor.forward size).shift n := by
  simp only [forward, shift, Cursor.mk.injEq, and_true]
  omega

theorem emit_shift (cursor : Cursor) (n : Nat) (lexeme : Lexeme) (size : Nat) :
    (cursor.shift n).emit lexeme size = (cursor.emit lexeme size).shift n := by
  rw [emit, forward_shift]
  simp only [emit, Scan.shift, Token.shift, Text.Range.shift, Text.Range.ofLength, shift,
    Scan.token.injEq, Token.mk.injEq, Text.Range.mk.injEq, and_true, true_and]
  omega

theorem string_shift (cursor : Cursor) (n lead : Nat) (lexeme : String → Lexeme)
    (body : List Char) :
    (cursor.shift n).string lead lexeme body = (cursor.string lead lexeme body).shift n := by
  unfold string
  cases scanString body with
  | closed value size => exact emit_shift cursor n _ _
  | unclosed =>
    simp only [forward_shift]
    exact emit_shift _ n _ _
  | failed cause size =>
    simp only [forward_shift]
    rfl

/-- A step does not depend on where the text stands. -/
theorem next_shift (cursor : Cursor) (n : Nat) : (cursor.shift n).next = cursor.next.shift n := by
  have hskip : (cursor.shift n).skipBlanks = cursor.skipBlanks.shift n := forward_shift cursor n _
  unfold next
  rw [hskip]
  generalize cursor.skipBlanks = start
  have hrest : (start.shift n).rest = start.rest := rfl
  simp only [hrest]
  split
  · rfl
  · exact emit_shift start n _ _
  · exact emit_shift start n _ _
  · exact string_shift start n _ _ _
  · exact string_shift start n _ _ _
  · exact emit_shift start n _ _

end Cursor

/-- A scan does not depend on where the text stands. -/
theorem Scans.shift {cursor : Cursor} {tokens : Tokens} (h : Scans cursor tokens) (n : Nat) :
    Scans (cursor.shift n) (tokens.shift n) := by
  induction h with
  | @finished cursor place hnext =>
    have hmoved : (cursor.shift n).next = .finished (place.shift n) := by
      rw [Cursor.next_shift, hnext]
      rfl
    exact .finished hmoved
  | @token cursor after token tokens hnext _ ih =>
    have hmoved : (cursor.shift n).next = .token (token.shift n) (after.shift n) := by
      rw [Cursor.next_shift, hnext]
      rfl
    exact .token hmoved ih

/-! ## Text in front of other text -/

/-- The cursor with other text behind its rest. -/
def Cursor.extend (back : List Char) (cursor : Cursor) : Cursor :=
  ⟨cursor.offset, cursor.rest ++ back⟩

/-- Behind the blanks stands a string, or a symbol in quotes, with an open escape in it. -/
def Cursor.OpenString (cursor : Cursor) : Prop :=
  ∃ body place,
    (cursor.skipBlanks.rest = '"' :: body ∨ cursor.skipBlanks.rest = ':' :: '"' :: body) ∧
      StringReaches body place ∧ OpenEscape place

/-- Where a word ends is not changed by text behind it that ends words. -/
theorem EndsWord.takeWhile_append {back : List Char} (h : EndsWord back) (rest : List Char) :
    (rest ++ back).takeWhile isWordChar = rest.takeWhile isWordChar := by
  have hback : back.takeWhile isWordChar = [] := by
    cases back with
    | nil => rfl
    | cons c back => exact List.takeWhile_cons_of_neg (by simp [(h c rfl).1])
  rw [List.takeWhile_append]
  split
  · next hall =>
    rw [hback, List.append_nil]
    exact ((List.takeWhile_prefix isWordChar).eq_of_length hall).symm
  · rfl

namespace Cursor

variable {back : List Char} {start cursor after : Cursor} {token : Token}

theorem forward_extend {n : Nat} (h : n ≤ cursor.rest.length) :
    (cursor.extend back).forward n = (cursor.forward n).extend back := by
  simp only [forward, extend, List.drop_append_of_le_length h]

/-- An emitted token is the same in front of other text. -/
theorem emit_extend {lexeme : Lexeme} {size : Nat} (hsize : size ≤ cursor.rest.length)
    (h : cursor.emit lexeme size = .token token after) :
    (cursor.extend back).emit lexeme size = .token token (after.extend back) := by
  cases h
  rw [emit, forward_extend hsize]
  simp only [extend, List.take_append_of_le_length hsize]

/-- Where a token follows, the same blanks are skipped in front of other text. -/
theorem skipBlanks_extend (h : cursor.skipBlanks.rest ≠ []) :
    (cursor.extend back).skipBlanks = cursor.skipBlanks.extend back := by
  have htake : (cursor.rest ++ back).takeWhile isBlank = cursor.rest.takeWhile isBlank := by
    rw [List.takeWhile_append, if_neg]
    intro hall
    apply h
    show cursor.rest.drop (cursor.rest.takeWhile isBlank).length = []
    rw [hall, List.drop_length]
  rw [skipBlanks, skipBlanks, ← forward_extend (List.takeWhile_prefix isBlank).length_le]
  simp only [extend, htake]

/-- Where no token follows, a step in front of other text is a step from that text on. -/
theorem next_extend_of_blank (h : cursor.skipBlanks.rest = []) :
    (cursor.extend back).next = next ⟨cursor.skipBlanks.offset, back⟩ := by
  have hprefix := List.takeWhile_prefix (l := cursor.rest) isBlank
  have hlength : (cursor.rest.takeWhile isBlank).length = cursor.rest.length :=
    Nat.le_antisymm hprefix.length_le (List.drop_eq_nil_iff.1 h)
  have htake : (cursor.rest ++ back).takeWhile isBlank =
      cursor.rest ++ back.takeWhile isBlank := by
    rw [List.takeWhile_append, if_pos hlength]
  have hskip : (cursor.extend back).skipBlanks =
      skipBlanks ⟨cursor.skipBlanks.offset, back⟩ := by
    simp only [skipBlanks, forward, extend, htake, hlength, List.length_append, Nat.add_assoc,
      List.drop_length_add_append]
  unfold next
  rw [hskip]

/-- A string is read the same in front of other text, unless an open escape is closed by it. -/
theorem string_extend {lead : Nat} {lexeme : String → Lexeme} {body : List Char}
    (hlength : start.rest.length = lead + 1 + body.length)
    (h : start.string lead lexeme body = .token token after)
    (hsound : ∀ fault, token.lexeme ≠ .faulty fault)
    (hopen : '\x7d' ∈ back → ¬ ∃ place, StringReaches body place ∧ OpenEscape place) :
    (start.extend back).string lead lexeme (body ++ back) =
      .token token (after.extend back) := by
  unfold string at h ⊢
  cases hscan : scanString body with
  | closed value size =>
    have hsize : 0 < size ∧ size ≤ body.length := size_scanString (by rw [hscan]; rfl)
    rw [hscan] at h
    rw [scanString_append hscan hopen]
    exact emit_extend (by omega) h
  | unclosed =>
    rw [hscan] at h
    cases h
    exact absurd rfl (hsound .unterminatedString)
  | failed cause size =>
    rw [hscan] at h
    cases h

/-- A word is read the same in front of text that ends words. -/
theorem word_extend {c : Char} {rest : List Char} (hends : EndsWord back)
    (hrest : start.rest = c :: rest) (h : start.word c rest = .token token after) :
    (start.extend back).word c (rest ++ back) = .token token (after.extend back) := by
  have htail : (rest.takeWhile isWordChar).length ≤ rest.length :=
    (List.takeWhile_prefix isWordChar).length_le
  have hbehind : ((rest ++ back).drop (rest.takeWhile isWordChar).length).head? = some '"' ↔
      (rest.drop (rest.takeWhile isWordChar).length).head? = some '"' := by
    rw [List.drop_append_of_le_length htail]
    cases rest.drop (rest.takeWhile isWordChar).length with
    | nil =>
      rw [List.nil_append]
      exact iff_of_false (fun hquote => (hends '"' hquote).2 rfl) (by simp)
    | cons d more => exact Iff.rfl
  unfold word at h ⊢
  simp only [hends.takeWhile_append, hbehind]
  exact emit_extend (by simp [hrest, htail]) h

/-- A step over a sound token is the same in front of text that ends words, unless an open escape
in the token is closed by that text. -/
theorem next_extend (hends : EndsWord back) (h : cursor.next = .token token after)
    (hsound : ∀ fault, token.lexeme ≠ .faulty fault)
    (hopen : '\x7d' ∈ back → ¬ cursor.OpenString) :
    (cursor.extend back).next = .token token (after.extend back) := by
  have hne : cursor.skipBlanks.rest ≠ [] := by
    intro hnil
    rw [next] at h
    simp only [hnil] at h
    cases h
  unfold OpenString at hopen
  unfold next at h ⊢
  rw [skipBlanks_extend hne]
  generalize cursor.skipBlanks = start at h hne hopen ⊢
  simp only at h
  split at h
  · cases h
  · next rest hrest =>
    have hback : (start.extend back).rest = '(' :: (rest ++ back) := by simp [extend, hrest]
    simp only [hback]
    exact emit_extend (by simp [hrest]) h
  · next rest hrest =>
    have hback : (start.extend back).rest = ')' :: (rest ++ back) := by simp [extend, hrest]
    simp only [hback]
    exact emit_extend (by simp [hrest]) h
  · next body hrest =>
    have hback : (start.extend back).rest = '"' :: (body ++ back) := by simp [extend, hrest]
    simp only [hback]
    refine string_extend (by simp [hrest]; omega) h hsound fun hbrace hplace => ?_
    rcases hplace with ⟨place, hplace⟩
    exact hopen hbrace ⟨body, place, .inl hrest, hplace⟩
  · next body hrest =>
    have hback : (start.extend back).rest = ':' :: '"' :: (body ++ back) := by
      simp [extend, hrest]
    simp only [hback]
    refine string_extend (by simp [hrest]; omega) h hsound fun hbrace hplace => ?_
    rcases hplace with ⟨place, hplace⟩
    exact hopen hbrace ⟨body, place, .inr hrest, hplace⟩
  · next c rest hopening hclosing hquote hcolon hrest =>
    have hback : (start.extend back).rest = c :: (rest ++ back) := by simp [extend, hrest]
    simp only [hback]
    split
    · next hother => cases hother
    · next hother => exact (hopening (List.cons.inj hother).1).elim
    · next hother => exact (hclosing (List.cons.inj hother).1).elim
    · next hother => exact (hquote (List.cons.inj hother).1).elim
    · next body hother =>
      -- the quote behind a colon is not the first character of the other text
      rcases List.cons.inj hother with ⟨hc, hmore⟩
      cases rest with
      | nil =>
        rw [List.nil_append] at hmore
        exact absurd rfl (hends '"' (by rw [hmore]; rfl)).2
      | cons d rest =>
        rcases List.cons.inj hmore with ⟨rfl, -⟩
        exact (hcolon rest hc rfl).elim
    · next hother =>
      rcases List.cons.inj hother with ⟨rfl, rfl⟩
      exact word_extend hends hrest h

/-- An open escape that is closed by the text behind is a bad one. -/
theorem OpenString.badString_extend (h : cursor.OpenString)
    (hnext : cursor.next = .token token after) (hsound : ∀ fault, token.lexeme ≠ .faulty fault)
    (hbrace : '\x7d' ∈ back) : (cursor.extend back).BadString := by
  rcases h with ⟨body, place, hbody, hreaches, hopen⟩
  have hclosed : ∃ value size, scanString body = .closed value size := by
    unfold next at hnext
    rcases hbody with hbody | hbody <;>
    · simp only [hbody, string] at hnext
      cases hscan : scanString body with
      | closed value size => exact ⟨value, size, rfl⟩
      | unclosed =>
        rw [hscan] at hnext
        cases hnext
        exact absurd rfl (hsound .unterminatedString)
      | failed cause size =>
        rw [hscan] at hnext
        cases hnext
  rcases hclosed with ⟨value, size, hscan⟩
  rcases exists_badEscape_append hreaches hopen hscan hbrace with ⟨bad, hreaches, hbad⟩
  refine ⟨body ++ back, bad, ?_, hreaches, hbad⟩
  have hne : cursor.skipBlanks.rest ≠ [] := by rcases hbody with hbody | hbody <;> simp [hbody]
  rw [skipBlanks_extend hne]
  rcases hbody with hbody | hbody
  · exact .inl (by simp [extend, hbody])
  · exact .inr (by simp [extend, hbody])

end Cursor

/-! ## All steps of a scan -/

/-- The tokens are lexemes. -/
def AllSound (tokens : List Token) : Prop :=
  ∀ token ∈ tokens, ∀ fault, token.lexeme ≠ .faulty fault

variable {back : List Char} {cursor place : Cursor} {front others : Tokens}

/-- The tokens of a scan stand in front of those of a text behind, unless the scan comes to an open
escape that is closed by that text. -/
theorem Scans.extend (h : Scans cursor front) (hsound : AllSound front.toList)
    (hends : EndsWord back)
    (hopen : '\x7d' ∈ back → ¬ ∃ place, cursor.Reaches place ∧ place.OpenString)
    (hothers : Scans ⟨front.size, back⟩ others) :
    Scans (cursor.extend back) (front.append others) := by
  induction h with
  | @finished cursor place hnext =>
    rcases Cursor.next_eq_finished hnext with ⟨rfl, hrest⟩
    exact hothers.congr (Cursor.next_extend_of_blank hrest)
  | @token cursor after token tokens hnext _ ih =>
    rcases List.forall_mem_cons.1 hsound with ⟨htoken, htokens⟩
    have hhere : '\x7d' ∈ back → ¬ cursor.OpenString :=
      fun hbrace hstring => hopen hbrace ⟨cursor, .here cursor, hstring⟩
    have hbehind : '\x7d' ∈ back → ¬ ∃ place, after.Reaches place ∧ place.OpenString :=
      fun hbrace hplace => by
        rcases hplace with ⟨place, hplace, hstring⟩
        exact hopen hbrace ⟨place, .step hnext hplace, hstring⟩
    exact .token (Cursor.next_extend hends hnext htoken hhere) (ih htokens hbehind hothers)

/-- A scan that comes to an open escape comes to a bad string in front of text that holds a closing
brace. -/
theorem Scans.exists_badString_extend (h : Scans cursor front) (hsound : AllSound front.toList)
    (hends : EndsWord back) (hbrace : '\x7d' ∈ back) (hreaches : cursor.Reaches place)
    (hopen : place.OpenString) :
    ∃ bad, (cursor.extend back).Reaches bad ∧ bad.BadString := by
  induction hreaches generalizing front with
  | here cursor =>
    cases h with
    | finished hnext =>
      rcases hopen with ⟨body, -, hbody, -⟩
      rw [(Cursor.next_eq_finished hnext).2] at hbody
      rcases hbody with hbody | hbody <;> cases hbody
    | token hnext _ =>
      have htoken := hsound _ List.mem_cons_self
      exact ⟨_, .here _, hopen.badString_extend hnext htoken hbrace⟩
  | @step cursor after place token hnext _ ih =>
    cases h with
    | finished hother => cases hnext.symm.trans hother
    | token hother hscans =>
      cases hnext.symm.trans hother
      rcases List.forall_mem_cons.1 hsound with ⟨htoken, htokens⟩
      by_cases hhere : cursor.OpenString
      · exact ⟨_, .here _, hhere.badString_extend hnext htoken hbrace⟩
      · rcases ih hscans htokens hopen with ⟨bad, hbad, hstring⟩
        have hstep := Cursor.next_extend hends hnext htoken fun _ => hhere
        exact ⟨bad, .step hstep hbad, hstring⟩

/-! ## Two texts in a row -/

/-- Scanning the text comes to a string with an open escape in it. -/
def HasOpenEscape (text : String) : Prop :=
  ∃ place, (Cursor.ofText text).Reaches place ∧ place.OpenString

/-- The text behind a blank is scanned as it is alone, further on in the text. -/
theorem scans_behind_blank {text : String} {tokens : Tokens}
    (h : Tokens.ofText text = .ok tokens) (size : Nat) :
    Scans ⟨size, ' ' :: text.toList⟩ (tokens.shift (size + 1)) := by
  have hscans : Scans (.ofText text) tokens := scanFrom_eq_ok_iff.1 h
  have hmoved := hscans.shift (size + 1)
  have hplace : (Cursor.ofText text).shift (size + 1) = ⟨size + 1, text.toList⟩ := by
    simp [Cursor.shift, Cursor.ofText]
  rw [hplace] at hmoved
  exact hmoved.congr (Cursor.next_of_blank (by decide) size text.toList)

variable {a b : String}

theorem ofText_append (a b : String) :
    Cursor.ofText (a ++ " " ++ b) = (Cursor.ofText a).extend (' ' :: b.toList) := by
  simp [Cursor.ofText, Cursor.extend]

theorem endsWord_blank (rest : List Char) : EndsWord (' ' :: rest) := by
  rintro c ⟨⟩
  decide

/-- The tokens of two texts with a blank between them, where no open escape is closed. -/
theorem ofText_append_eq_ok (hfront : Tokens.ofText a = .ok front)
    (hsound : AllSound front.toList) (hback : Tokens.ofText b = .ok others)
    (hopen : ¬ (HasOpenEscape a ∧ '\x7d' ∈ b.toList)) :
    Tokens.ofText (a ++ " " ++ b) = .ok (front.append (others.shift (a.length + 1))) := by
  have hscans : Scans (.ofText a) front := scanFrom_eq_ok_iff.1 hfront
  have hsize : front.size = a.length :=
    (hscans.tiles (Cursor.ofText_in a)).1.trans String.length_toList
  have hbehind : Scans ⟨front.size, ' ' :: b.toList⟩ (others.shift (a.length + 1)) := by
    rw [hsize]
    exact scans_behind_blank hback a.length
  have hlocal : '\x7d' ∈ ' ' :: b.toList →
      ¬ ∃ place, (Cursor.ofText a).Reaches place ∧ place.OpenString :=
    fun hbrace hplace => hopen ⟨hplace, by simpa using hbrace⟩
  rw [Tokens.ofText, ofText_append]
  exact scanFrom_eq_ok_iff.2 (hscans.extend hsound (endsWord_blank _) hlocal hbehind)

/-- Scanning two texts breaks off where the second one closes an open escape of the first one. -/
theorem ofText_append_eq_error (hfront : Tokens.ofText a = .ok front)
    (hsound : AllSound front.toList) (hopen : HasOpenEscape a) (hbrace : '\x7d' ∈ b.toList) :
    ∃ cause, Tokens.ofText (a ++ " " ++ b) = .error cause := by
  have hscans : Scans (.ofText a) front := scanFrom_eq_ok_iff.1 hfront
  rcases hopen with ⟨place, hreaches, hstring⟩
  rw [Tokens.ofText, ofText_append]
  exact error_scanFrom_iff.2 (hscans.exists_badString_extend hsound (endsWord_blank _)
    (List.mem_cons_of_mem _ hbrace) hreaches hstring)

/-- The tokens of two texts with a blank between them are the tokens of the first one and, moved
behind it, those of the second one, with the reports of the second one.  This holds exactly when it
is not the case that the first text comes to an open escape and the second one holds a closing
brace; in that case scanning breaks off. -/
theorem ofText_append_iff (a b : String) {front back : Tokens}
    (hfront : Tokens.ofText a = .ok front) (hclean : front.diagnostics = [])
    (hback : Tokens.ofText b = .ok back) :
    (Tokens.ofText (a ++ " " ++ b) = .ok (front.append (back.shift (a.length + 1))) ↔
      ¬ (HasOpenEscape a ∧ '\x7d' ∈ b.toList)) ∧
    ((∃ cause, Tokens.ofText (a ++ " " ++ b) = .error cause) ↔
      HasOpenEscape a ∧ '\x7d' ∈ b.toList) ∧
    (front.append (back.shift (a.length + 1))).diagnostics =
      back.diagnostics.map (Diagnostic.shift (a.length + 1)) := by
  have hsound : AllSound front.toList := Tokens.diagnostics_eq_nil_iff.1 hclean
  have hreports : (front.append (back.shift (a.length + 1))).diagnostics =
      back.diagnostics.map (Diagnostic.shift (a.length + 1)) := by
    rw [← Tokens.diagnostics_shift]
    unfold Tokens.diagnostics at hclean ⊢
    rw [Tokens.append, List.filterMap_append, hclean, List.nil_append]
  by_cases hopen : HasOpenEscape a ∧ '\x7d' ∈ b.toList
  · rcases ofText_append_eq_error hfront hsound hopen.1 hopen.2 with ⟨cause, hcause⟩
    refine ⟨iff_of_false ?_ (not_not_intro hopen), iff_of_true ⟨cause, hcause⟩ hopen, hreports⟩
    simp [hcause]
  · have htokens := ofText_append_eq_ok hfront hsound hback hopen
    refine ⟨iff_of_true htokens hopen, iff_of_false ?_ hopen, hreports⟩
    simp [htokens]

/-- A string that ends in an open escape: the letter stands for itself, and so does the brace. -/
theorem ofText_open_escape :
    Tokens.ofText "\"\\u\x7b\"" =
      .ok ⟨[⟨.string "u\x7b", ⟨0, 5, by decide⟩, "\"\\u\x7b\""⟩], 5⟩ := by
  have hopen : '\x7d' ∉ ['"'] := by decide
  have hread : readEscape 'u' ['\x7b', '"'] = (.ok ['u'], 0) :=
    readEscape_of_codes (readUnicode_open hopen)
  have hbody : scanString ['\\', 'u', '\x7b', '"'] = .closed ['u', '\x7b'] 4 := by
    rw [scanString_escape_ok (by rw [hread]), hread, List.drop_zero,
      scanString_plain (by decide) (by decide), scanString_quote]
    rfl
  have hstep : Cursor.next (.ofText "\"\\u\x7b\"") =
      Cursor.string (.ofText "\"\\u\x7b\"") 0 .string ['\\', 'u', '\x7b', '"'] := rfl
  have hnext : Cursor.next (.ofText "\"\\u\x7b\"") =
      .token ⟨.string "u\x7b", ⟨0, 5, by decide⟩, "\"\\u\x7b\""⟩ ⟨5, []⟩ := by
    rw [hstep, Cursor.string, hbody]
    rfl
  exact scanFrom_eq_ok_iff.2 (.token hnext (.finished rfl))

/-- An open escape alone does no harm: in front of a character that starts no word its string is
read as before, and the report of the character is moved behind it. -/
theorem ofText_append_open_escape :
    let front : Tokens := ⟨[⟨.string "u\x7b", ⟨0, 5, by decide⟩, "\"\\u\x7b\""⟩], 5⟩
    let back : Tokens := ⟨[⟨.faulty (.unexpectedCharacter '#'), ⟨0, 1, by decide⟩, "#"⟩], 1⟩
    Tokens.ofText "\"\\u\x7b\"" = .ok front ∧ front.diagnostics = [] ∧
      Tokens.ofText "#" = .ok back ∧
      Tokens.ofText ("\"\\u\x7b\"" ++ " " ++ "#") = .ok (front.append (back.shift 6)) ∧
      (front.append (back.shift 6)).diagnostics.map (·.range) = [⟨6, 7, by decide⟩] := by
  intro front back
  have hnext : Cursor.next (.ofText "#") =
      .token ⟨.faulty (.unexpectedCharacter '#'), ⟨0, 1, by decide⟩, "#"⟩ ⟨1, []⟩ := by
    decide +kernel
  have hback : Tokens.ofText "#" = .ok back :=
    scanFrom_eq_ok_iff.2 (.token hnext (.finished rfl))
  rcases ofText_append_iff _ _ ofText_open_escape rfl hback with ⟨hiff, -, hreports⟩
  refine ⟨ofText_open_escape, rfl, hback, hiff.2 (by simp), ?_⟩
  exact (congrArg (List.map (·.range)) hreports).trans rfl

/-- A brace in the second text is taken for the end of an escape in the first one, and its closing
quote for a code point. -/
theorem not_ofText_append : ¬ ∀ (a b : String) (front back : Tokens),
    Tokens.ofText a = .ok front → front.diagnostics = [] → Tokens.ofText b = .ok back →
      Tokens.ofText (a ++ " " ++ b) = .ok (front.append (back.shift (a.length + 1))) := by
  intro h
  have hback : ∃ back, Tokens.ofText "\"\x7d\"" = .ok back := by
    rcases ScansAs.string ['\x7d'] .nil 0 with ⟨back, hscan, -⟩
    exact ⟨back, hscan⟩
  rcases hback with ⟨back, hback⟩
  have hsound : AllSound [⟨.string "u\x7b", ⟨0, 5, by decide⟩, "\"\\u\x7b\""⟩] := by
    simp [AllSound]
  have hopen : HasOpenEscape "\"\\u\x7b\"" :=
    ⟨_, .here _, _, _, .inl rfl, .here _, ['"'], rfl, by decide⟩
  have hbrace : '\x7d' ∈ ("\"\x7d\"" : String).toList := by decide
  rcases ofText_append_eq_error ofText_open_escape hsound hopen hbrace with ⟨cause, hcause⟩
  cases hcause.symm.trans (h _ _ _ back ofText_open_escape rfl hback)

end Sexp

end RubyTree
