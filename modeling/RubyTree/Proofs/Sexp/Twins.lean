import RubyTree.Proofs.Access.Alike
import RubyTree.Proofs.Sexp.Grammar
import RubyTree.Proofs.Sexp.Tiling
import RubyTree.Proofs.Sexp.Words
import RubyTree.Proofs.Text.Encoding
import RubyTree.Sexp.Marked

/-!
# Trees and their marked readings

The tree of a text and its marked reading are twins: they have the same types at the same
places, and their strings and symbols are twins as texts.  Spelling a literal keeps this,
since neither of the characters that stand for a surrogate is written in a way of its own.

Main results:

- `Literal.twins_spelling`: the spellings of twins are twins.
- `Value.keepsShape_twin`: so accessors answer alike on twins.
- `Scans.twins`: the tokens of a text and the marked tokens are twins.
- `exists_markedOfText`: every tree that is read has a marked reading, which is its twin.
-/

namespace RubyTree

open RubyTree.Text

namespace Sexp

/-! ## Spellings -/

/-- Only characters of ASCII have an escape. -/
theorem escaped_of_not_ascii {c : Char} (h : 0x80 ≤ c.toNat) : escaped c = [c] := by
  have hne : ∀ d : Char, d.toNat < 0x80 → c ≠ d := by
    rintro d hd rfl
    omega
  have htable : ∀ entry ∈ escapeTable, entry.2.toNat < 0x80 := by decide
  have hfind : escapeTable.find? (·.2 = c) = none := by
    rw [List.find?_eq_none]
    intro entry hentry
    simpa using (hne entry.2 (htable entry hentry)).symm
  have hmarks : ¬ (c = '\\' ∨ c = '"') := by
    rw [not_or]
    exact ⟨hne '\\' (by decide), hne '"' (by decide)⟩
  rw [escaped, escapeLetter?, if_neg hmarks, if_neg (hne ' ' (by decide)), hfind]
  rfl

theorem twins_escaped {plain marked : Char} (h : Twin plain marked) :
    List.Forall₂ Twin (escaped plain) (escaped marked) := by
  rcases h.eq_or_not_ascii with rfl | ⟨hplain, hmarked⟩
  · exact twins_refl _
  · rw [escaped_of_not_ascii hplain, escaped_of_not_ascii hmarked]
    exact .cons h .nil

/-- Behind a character of ASCII in one of two twins the same stands in the other one. -/
theorem twin_ascii {plain marked c : Char} (h : Twin plain marked) (hc : c.toNat < 0x80)
    (heq : plain = c ∨ marked = c) : plain = c ∧ marked = c := by
  rcases h.eq_or_not_ascii with rfl | ⟨hplain, hmarked⟩
  · exact ⟨heq.elim id id, heq.elim id id⟩
  · rcases heq with rfl | rfl
    · omega
    · omega

/-- Twins are twins between quotes.  The induction is on the encoding, which takes the start of an
interpolation as a whole: the marked string has one at the same places. -/
theorem twins_encodeBody {plain marked : List Char} (h : List.Forall₂ Twin plain marked) :
    List.Forall₂ Twin (encodeBody plain) (encodeBody marked) := by
  fun_induction encodeBody plain generalizing marked with
  | case1 =>
    cases h
    exact .nil
  | case2 rest ih =>
    rcases List.forall₂_cons_left_iff.1 h with ⟨hash, _, hhash, hbehind, rfl⟩
    rcases List.forall₂_cons_left_iff.1 hbehind with ⟨brace, marked, hbrace, hrest, rfl⟩
    obtain rfl : hash = '#' := (twin_ascii hhash (by decide) (.inl rfl)).2
    obtain rfl : brace = '\x7b' := (twin_ascii hbrace (by decide) (.inl rfl)).2
    exact .cons (.same _) (.cons (.same _) (.cons (.same _) (ih hrest)))
  | case3 c rest hinterpolation ih =>
    rcases List.forall₂_cons_left_iff.1 h with ⟨d, marked, hhead, hrest, rfl⟩
    have hmarked : encodeBody (d :: marked) = escaped d ++ encodeBody marked := by
      rw [encodeBody]
      intro more hd hmore
      subst hd hmore
      rcases List.forall₂_cons_right_iff.1 hrest with ⟨brace, back, hbrace, -, rfl⟩
      exact hinterpolation back (twin_ascii hhead (by decide) (.inr rfl)).1
        (congrArg (· :: back) (twin_ascii hbrace (by decide) (.inr rfl)).1)
    rw [hmarked]
    exact List.rel_append (twins_escaped hhead) (ih hrest)

theorem twins_encode {plain marked : List Char} (h : List.Forall₂ Twin plain marked) :
    List.Forall₂ Twin (encode plain) (encode marked) :=
  .cons (.same _) (List.rel_append (twins_encodeBody h) (twins_refl _))

/-- Symbols without quotes are written in ASCII. -/
theorem toNat_lt_of_writesSymbols {c : Char} (h : writesSymbols c = true) : c.toNat < 0x80 := by
  rcases Bool.or_eq_true_iff.1 h with halnum | hmark
  · have hrange := toNat_of_isAlphanum halnum
    omega
  · have hmarks : symbolMarks.all (fun mark => decide (mark.toNat < 0x80)) = true := by decide
    exact of_decide_eq_true (List.all_eq_true.1 hmarks c (List.contains_iff_mem.1 hmark))

/-- A symbol without quotes has no twin but itself. -/
theorem eq_of_isPlainSymbol {plain marked : List Char} (h : List.Forall₂ Twin plain marked)
    (hsymbol : isPlainSymbol plain = true ∨ isPlainSymbol marked = true) : plain = marked := by
  have hascii : (∀ c ∈ plain, c.toNat < 0x80) ∨ ∀ c ∈ marked, c.toNat < 0x80 := by
    rcases hsymbol with hsymbol | hsymbol
    · have hwrites := (writesSymbols_of_plainSymbol hsymbol).2
      exact .inl fun c hc => toNat_lt_of_writesSymbols (hwrites c hc)
    · have hwrites := (writesSymbols_of_plainSymbol hsymbol).2
      exact .inr fun c hc => toNat_lt_of_writesSymbols (hwrites c hc)
  clear hsymbol
  induction h with
  | nil => rfl
  | @cons a b plain marked hhead _ ih =>
    simp only [List.forall_mem_cons] at hascii
    have heq : a = b := by
      rcases hhead.eq_or_not_ascii with heq | ⟨ha, hb⟩
      · exact heq
      · rcases hascii with ⟨hlt, -⟩ | ⟨hlt, -⟩
        · omega
        · omega
    rw [heq, ih (hascii.imp And.right And.right)]

end Sexp

/-! ## Literals -/

/-- The literals are the same, or strings or symbols with twins for texts. -/
inductive Literal.Twin : Literal → Literal → Prop
  /-- The same literal. -/
  | same (literal : Literal) : Twin literal literal
  /-- Two strings. -/
  | str {plain marked : String} (h : Twins plain marked) :
      Twin (.str plain) (.str marked)
  /-- Two symbols. -/
  | sym {plain marked : String} (h : Twins plain marked) :
      Twin (.sym ⟨plain⟩) (.sym ⟨marked⟩)

/-- Twins are absent together. -/
theorem Literal.Twin.eq_nil_iff {plain marked : Literal} (h : plain.Twin marked) :
    plain = .nil ↔ marked = .nil := by
  cases h with
  | same => exact Iff.rfl
  | str | sym => simp

/-- The spellings of twins are twins. -/
theorem Literal.twins_spelling {plain marked : Literal} (h : plain.Twin marked) :
    List.Forall₂ Text.Twin plain.spelling marked.spelling := by
  cases h with
  | same => exact twins_refl _
  | str htexts => exact Sexp.twins_encode htexts
  | @sym plain marked htexts =>
    rw [Literal.spelling, Literal.spelling, Sexp.symbolSpelling, Sexp.symbolSpelling]
    by_cases hsymbol : Sexp.isPlainSymbol plain.toList = true ∨
        Sexp.isPlainSymbol marked.toList = true
    · rw [Sexp.eq_of_isPlainSymbol htexts hsymbol]
      exact twins_refl _
    · rw [not_or] at hsymbol
      rw [if_neg hsymbol.1, if_neg hsymbol.2]
      exact .cons (.same _) (Sexp.twins_encode htexts)

/-! ## Trees -/

variable {α β : Type}

mutual

/-- Two trees have the same types, and twins for literals. -/
def Node.Twin : Node α → Node β → Prop
  | ⟨_, s, as⟩, ⟨_, t, bs⟩ => s = t ∧ Value.AllTwin as bs

/-- Two values are twins: as literals, as nodes, or item by item. -/
def Value.Twin : Value α → Value β → Prop
  | .lit a, .lit b => a.Twin b
  | .node a, .node b => a.Twin b
  | .list as, .list bs => Value.AllTwin as bs
  | _, _ => False

/-- Two lists of values are twins item by item. -/
def Value.AllTwin : List (Value α) → List (Value β) → Prop
  | [], [] => True
  | a :: as, b :: bs => a.Twin b ∧ Value.AllTwin as bs
  | _, _ => False

end

theorem Value.allTwin_iff {as : List (Value α)} {bs : List (Value β)} :
    Value.AllTwin as bs ↔ List.Forall₂ Value.Twin as bs := by
  induction as generalizing bs with
  | nil => cases bs <;> simp [Value.AllTwin]
  | cons a as ih => cases bs <;> simp [Value.AllTwin, ih]

theorem Node.twin_iff {a : Node α} {b : Node β} :
    a.Twin b ↔ a.type = b.type ∧ List.Forall₂ Value.Twin a.children b.children := by
  rcases a with ⟨_, _, as⟩
  rcases b with ⟨_, _, bs⟩
  rw [Node.Twin, Value.allTwin_iff]

/-- Twins have one shape. -/
theorem Value.keepsShape_twin : KeepsShape (Value.Twin (α := α) (β := β)) where
  shape {x y} h := by
    match x, y with
    | .lit l, .lit m => exact .lit (Literal.Twin.eq_nil_iff h)
    | .node a, .node b =>
      have htwin := (Node.twin_iff (a := a) (b := b)).1 h
      exact .node htwin.1 htwin.2
    | .list xs, .list ys => exact .list (Value.allTwin_iff.1 h)
  nil := Literal.Twin.same .nil
  list h := Value.allTwin_iff.2 h

namespace Sexp

/-! ## Tokens -/

/-- The lexemes are the same, or strings or symbols with twins for texts. -/
inductive Lexeme.Twin : Lexeme → Lexeme → Prop
  /-- The same lexeme. -/
  | same (lexeme : Lexeme) : Twin lexeme lexeme
  /-- Two strings. -/
  | string {plain marked : String} (h : Twins plain marked) :
      Twin (.string plain) (.string marked)
  /-- Two symbols. -/
  | symbol {plain marked : String} (h : Twins plain marked) :
      Twin (.symbol ⟨plain⟩) (.symbol ⟨marked⟩)

/-- A string that is scanned and its marked form are twins. -/
theorem twins_markedString {behindQuote value : List Char} {size : Nat}
    (h : scanString behindQuote = .closed value size) :
    Twins (String.ofList value) (markedString behindQuote) := by
  rw [scanString_eq_closed h, markedString, Twins, String.toList_ofList, String.toList_ofList]
  exact twins_map _

/-- A token that is neither a string nor a quoted symbol is not marked. -/
theorem Token.markedLexeme_eq {text : List Char} {token : Token}
    (hstring : ∀ value, token.lexeme ≠ .string value)
    (hquoted : ∀ behindQuote, text.drop token.range.start ≠ ':' :: '"' :: behindQuote) :
    token.markedLexeme text = token.lexeme := by
  unfold markedLexeme
  split
  · next hlexeme _ => exact absurd hlexeme (hstring _)
  · next htext => exact absurd htext (hquoted _)
  · rfl

/-- No word is a string. -/
theorem Lexeme.ofWord_ne_string (c : Char) (tail : List Char) (beforeQuote : Bool)
    (value : String) : Lexeme.ofWord c tail beforeQuote ≠ .string value := by
  unfold Lexeme.ofWord
  intro h
  split at h
  · split at h <;> cases h
  · simp only at h
    split at h
    · split at h
      · split at h <;> cases h
      · split at h <;> cases h
    · split at h <;> cases h

/-- The token of a string and the marked token are twins. -/
theorem Cursor.twin_string {text behindQuote : List Char} {start after : Cursor} {lead : Nat}
    {lexeme : String → Lexeme} {token : Token}
    (hlexeme : ∀ plain marked, Twins plain marked → (lexeme plain).Twin (lexeme marked))
    (hmarked : ∀ value size stretch,
      Token.markedLexeme text ⟨lexeme value, .ofLength ⟨start.offset⟩ ⟨size⟩, stretch⟩ =
        lexeme (markedString behindQuote))
    (h : start.string lead lexeme behindQuote = .token token after) :
    token.lexeme.Twin (token.markedLexeme text) := by
  unfold Cursor.string at h
  cases hscan : scanString behindQuote with
  | closed value size =>
    rw [hscan] at h
    cases h
    rw [hmarked]
    exact hlexeme _ _ (twins_markedString hscan)
  | unclosed =>
    rw [hscan] at h
    cases h
    exact .same _
  | failed cause size =>
    rw [hscan] at h
    cases h

/-- The token of one step and the marked token are twins. -/
theorem Cursor.In.twin_next {text : List Char} {cursor after : Cursor} {token : Token}
    (hin : cursor.In text) (h : cursor.next = .token token after) :
    token.lexeme.Twin (token.markedLexeme text) := by
  have hskip := hin.skipBlanks
  unfold Cursor.next at h
  generalize cursor.skipBlanks = start at h hskip
  have htext : text.drop start.offset = start.rest := hskip.rest_eq.symm
  simp only at h
  split at h
  · cases h
  · cases h
    exact .same _
  · cases h
    exact .same _
  · next behindQuote hrest =>
    have hdrop : text.drop start.offset = '"' :: behindQuote := htext.trans hrest
    refine Cursor.twin_string (fun _ _ => .string) (fun value size stretch => ?_) h
    simp only [Token.markedLexeme, Range.ofLength, hdrop]
  · next behindQuote hrest =>
    have hdrop : text.drop start.offset = ':' :: '"' :: behindQuote := htext.trans hrest
    refine Cursor.twin_string (fun _ _ => .symbol) (fun value size stretch => ?_) h
    simp only [Token.markedLexeme, Range.ofLength, hdrop]
  · next c rest _ _ _ hquoted hrest =>
    cases h
    rw [Token.markedLexeme_eq (Lexeme.ofWord_ne_string _ _ _)]
    · exact .same _
    · intro behindQuote hbehind
      have hdrop : text.drop start.offset = ':' :: '"' :: behindQuote := hbehind
      rw [htext, hrest] at hdrop
      rcases List.cons.inj hdrop with ⟨rfl, rfl⟩
      exact hquoted behindQuote rfl rfl

/-- The tokens of a text and the marked tokens are twins. -/
theorem Scans.twins {text : List Char} {cursor : Cursor} {tokens : Tokens} (h : Scans cursor tokens)
    (hin : cursor.In text) :
    List.Forall₂ Lexeme.Twin (tokens.toList.map Token.lexeme)
      ((tokens.toList.map (Token.marked text)).map Token.lexeme) := by
  induction h with
  | finished => exact .nil
  | token hnext _ ih => exact .cons (hin.twin_next hnext) (ih (hin.next hnext).2.1)

/-! ## Readings -/

/-- Twins of a lexeme that writes a literal write a twin of it. -/
theorem Lexeme.Twin.exists_leaf {plain marked : Lexeme} {literal : Literal}
    (h : plain.Twin marked) (hleaf : plain.leaf? = some literal) :
    ∃ twin, marked.leaf? = some twin ∧ literal.Twin twin := by
  cases h with
  | same => exact ⟨literal, hleaf, .same _⟩
  | string htexts =>
    cases hleaf
    exact ⟨_, rfl, .str htexts⟩
  | symbol htexts =>
    cases hleaf
    exact ⟨_, rfl, .sym htexts⟩

/-- What stands in front and what stands behind have twins of their own. -/
theorem forall₂_append_left {ρ σ : Type} {related : ρ → σ → Prop} {front back : List ρ}
    {others : List σ} (h : List.Forall₂ related (front ++ back) others) :
    ∃ first last, others = first ++ last ∧ List.Forall₂ related front first ∧
      List.Forall₂ related back last := by
  induction front generalizing others with
  | nil => exact ⟨[], others, rfl, .nil, h⟩
  | cons x front ih =>
    rcases List.forall₂_cons_left_iff.1 h with ⟨y, others, hhead, hrest, rfl⟩
    rcases ih hrest with ⟨first, last, rfl, hfront, hback⟩
    exact ⟨y :: first, last, rfl, .cons hhead hfront, hback⟩

mutual

/-- Twins of the lexemes of a node spell a twin of the node. -/
theorem SpellsNode.exists_twin {lexemes others : List Lexeme} {node : Node Unit}
    (h : SpellsNode lexemes node) (htwins : List.Forall₂ Lexeme.Twin lexemes others) :
    ∃ other : Node Unit, SpellsNode others other ∧ node.Twin other := by
  cases h with
  | node htype hitems =>
    rcases List.forall₂_cons_left_iff.1 htwins with ⟨_, _, ⟨⟩, hbehind, rfl⟩
    rcases List.forall₂_cons_left_iff.1 hbehind with ⟨_, _, ⟨⟩, hinside, rfl⟩
    rcases forall₂_append_left hinside with ⟨items, last, rfl, hitemTwins, hlast⟩
    rcases List.forall₂_cons_left_iff.1 hlast with ⟨_, _, ⟨⟩, ⟨⟩, rfl⟩
    rcases hitems.exists_twin hitemTwins with ⟨children, hspells, hchildren⟩
    exact ⟨_, .node htype hspells, rfl, Value.allTwin_iff.2 hchildren⟩

theorem SpellsItems.exists_twin {lexemes others : List Lexeme} {values : List (Value Unit)}
    (h : SpellsItems lexemes values) (htwins : List.Forall₂ Lexeme.Twin lexemes others) :
    ∃ twins : List (Value Unit), SpellsItems others twins ∧
      List.Forall₂ Value.Twin values twins := by
  cases h with
  | nil =>
    cases htwins
    exact ⟨[], .nil, .nil⟩
  | cons hitem hitems =>
    rcases forall₂_append_left htwins with ⟨front, rest, rfl, hfront, hrest⟩
    rcases hitem.exists_twin hfront with ⟨value, hvalue, hvalueTwin⟩
    rcases hitems.exists_twin hrest with ⟨values, hvalues, hvaluesTwins⟩
    exact ⟨value :: values, .cons hvalue hvalues, .cons hvalueTwin hvaluesTwins⟩

theorem SpellsItem.exists_twin {lexemes others : List Lexeme} {value : Value Unit}
    (h : SpellsItem lexemes value) (htwins : List.Forall₂ Lexeme.Twin lexemes others) :
    ∃ twin : Value Unit, SpellsItem others twin ∧ value.Twin twin := by
  match value, h with
  | .node _, .node hnode =>
    rcases hnode.exists_twin htwins with ⟨other, hother, htwin⟩
    exact ⟨.node other, .node hother, htwin⟩
  | .lit _, h =>
    rcases h.exists_leaf with ⟨lexeme, rfl, hleaf⟩
    rcases List.forall₂_cons_left_iff.1 htwins with ⟨marked, _, hmarked, ⟨⟩, rfl⟩
    rcases hmarked.exists_leaf hleaf with ⟨literal, hliteral, htwin⟩
    exact ⟨.lit literal, .of_leaf hliteral, htwin⟩

end

/-- A text that holds a node holds a twin of it in its marked reading. -/
theorem exists_markedOfText {text : String} {node : Node Unit} (h : Node.ofText text = .ok node) :
    ∃ marked : Node Unit, Node.markedOfText text = some marked ∧ node.Twin marked := by
  rcases ofText_eq_ok_iff.1 h with ⟨tokens, htokens, -, hspells⟩
  have hin : (Cursor.ofText text).In text.toList := ⟨Nat.zero_le _, rfl⟩
  have htwins := (scanFrom_eq_ok_iff.1 htokens).twins hin
  rcases hspells.exists_twin htwins with ⟨marked, hmarked, htwin⟩
  refine ⟨marked, ?_, htwin⟩
  rw [Node.markedOfText, htokens]
  exact congrArg Reading.node (readRoot_spellsNode hmarked)

end Sexp

end RubyTree
