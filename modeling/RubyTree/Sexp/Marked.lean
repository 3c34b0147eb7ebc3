import RubyTree.Sexp.Reader

/-!
# Marked readings

An escape in a string may name a surrogate.  The tree that is read has the
replacement character in its place.  The marked reading of the same text has a
private character there, so that both trees together tell the code points of every
string.

Main results:

- `stringCodes` are the code points of a string, and `scanString_eq_closed` says that
  scanning it gives their characters.
- `Token.marked` is a token of the marked reading, and `Node.markedOfText` its tree.
-/

namespace RubyTree.Sexp

open RubyTree.Text

/-! ## Code points of strings -/

/-- The code points of a string behind its opening quote, up to the closing one or to an escape
that is in error. -/
def stringCodes : List Char → List Nat
  | [] => []
  | '"' :: _ => []
  | '\\' :: c :: rest =>
    match (escapeCodes c rest).1 with
    | .ok codes => codes ++ stringCodes (rest.drop (escapeCodes c rest).2)
    | .error _ => []
  | c :: rest => c.toNat :: stringCodes rest
termination_by text => text.length
decreasing_by
  · simp only [List.length_drop, List.length_cons]
    omega
  · simp

/-- A string is scanned as the characters of its code points. -/
theorem scanString_eq_closed {text value : List Char} {n : Nat}
    (h : scanString text = .closed value n) : value = (stringCodes text).map charAt := by
  fun_induction scanString text generalizing value n with
  | case1 => cases h
  | case2 rest =>
    cases h
    rw [stringCodes]
    rfl
  | case3 c rest chars hchars ih =>
    have hcodes : ∃ codes, (escapeCodes c rest).1 = .ok codes ∧ chars = codes.map charAt := by
      rw [readEscape] at hchars
      cases hread : (escapeCodes c rest).1 with
      | error cause =>
        rw [hread] at hchars
        cases hchars
      | ok codes =>
        rw [hread] at hchars
        cases hchars
        exact ⟨codes, rfl, rfl⟩
    rcases hcodes with ⟨codes, hread, rfl⟩
    rcases StringScan.eq_closed_of_prepend h with ⟨back, size, hscan, rfl, -⟩
    rw [stringCodes, hread, List.map_append, ih hscan]
    rfl
  | case4 => cases h
  | case5 c rest hquote hescape ih =>
    rcases StringScan.eq_closed_of_prepend h with ⟨back, size, hscan, rfl, -⟩
    rw [stringCodes, List.map_cons, charAt_toNat, ih hscan]
    · rfl
    · exact hquote
    · exact hescape

/-- The marked form of the string behind an opening quote. -/
def markedString (behindQuote : List Char) : String :=
  String.ofList ((stringCodes behindQuote).map markedCharAt)

/-! ## Marked tokens -/

/-- The lexeme of a token of a text, with its string marked. -/
def Token.markedLexeme (text : List Char) (token : Token) : Lexeme :=
  match token.lexeme, text.drop token.range.start with
  | .string _, _ :: behindQuote => .string (markedString behindQuote)
  | .symbol _, ':' :: '"' :: behindQuote => .symbol ⟨markedString behindQuote⟩
  | lexeme, _ => lexeme

/-- A token of a text, with its string marked. -/
def Token.marked (text : List Char) (token : Token) : Token :=
  ⟨token.markedLexeme text, token.range, token.text⟩

end RubyTree.Sexp

namespace RubyTree.Node

open RubyTree.Sexp

/-- The node that a text holds, with its strings marked. -/
def markedOfText (text : String) : Option (Node Unit) :=
  match Tokens.ofText text with
  | .error _ => none
  | .ok tokens => (readRoot tokens.size (tokens.toList.map (Token.marked text.toList))).node

end RubyTree.Node
