import RubyTree.Proofs.Binary64.ReadBack
import RubyTree.Proofs.Sexp.Grammar
import RubyTree.Proofs.Sexp.Scanning
import RubyTree.Proofs.Sexp.Words
import RubyTree.Sexp.Printer

/-!
# Reading undoes printing

A printed tree is scanned as lexemes that spell the tree, whatever stands behind
it.  The induction follows the printer: a literal is one lexeme in front of the
lexemes of its younger siblings, a node is two lexemes, its children, and a
closing parenthesis.

Main results:

- `Node.isSpellable` says which trees can be written: type names are words, and
  floating-point literals are finite.
- `ScansAs.literal`: a spelled literal is one lexeme with the literal as its value.
- `scansAs_render`: a printed node is scanned as lexemes that spell it.
- `ofText_print`: a printed tree is read as the same tree.
-/

namespace RubyTree

open RubyTree.Text RubyTree.Sexp

/-! ## Trees that can be written -/

/-- The literal is not an infinity, and is a number if it is a binary value. -/
def Literal.isSpellable : Literal → Bool
  | .float (.finite _ _) => true
  | .float _ => false
  | _ => true

/-- The name of the type starts with a letter, or with an underscore if underscores are kept.  It
holds no dash and only characters of words: no blanks, parentheses or double quotes. -/
def NodeType.isSpellable (options : Options) (type : NodeType) : Bool :=
  match type.name.toList with
  | [] => false
  | c :: tail =>
    (isLetter c || !options.dasherize && c = '_') &&
      (c :: tail).all fun d => isWordChar d && d ≠ '-'

variable {α : Type}

mutual

/-- The types and literals of the tree can be written, and no list is among its values. -/
def Node.isSpellable (options : Options) : Node α → Bool
  | ⟨_, type, children⟩ => type.isSpellable options && Value.allSpellable options children

/-- The values can be written. -/
def Value.allSpellable (options : Options) : List (Value α) → Bool
  | [] => true
  | .lit literal :: rest => literal.isSpellable && Value.allSpellable options rest
  | .node node :: rest => node.isSpellable options && Value.allSpellable options rest
  | .list _ :: _ => false

end

namespace Sexp

/-! ## Literals -/

namespace ScansAs

variable {rest : List Char} {lexemes : List Lexeme}

/-- A word that is a numeral is scanned as its number. -/
theorem numeral {word : List Char} {numeral : Numeral}
    (hcharacters : ∀ c ∈ word, writesNumerals c = true)
    (hword : Numeral.ofWord? word = some numeral) (hends : EndsWord rest)
    (hrest : ScansAs rest lexemes) :
    ScansAs (word ++ rest)
      ((if numeral.isWhole then .int numeral.toInt else .float numeral.toBinary64) :: lexemes) := by
  cases word with
  | nil => cases hword
  | cons c tail =>
    have hcolon := (isWordChar_of_writesNumerals (hcharacters c List.mem_cons_self)).2
    have hscan := word (fun d hd => (isWordChar_of_writesNumerals (hcharacters d hd)).1) hends hrest
    rwa [ofWord_numeral hcolon hword] at hscan

/-- A name is scanned as an identifier. -/
theorem name {c : Char} {tail : List Char} (hfirst : isLetter c = true ∨ c = '_')
    (hword : ∀ d ∈ c :: tail, isWordChar d = true) (hends : EndsWord rest)
    (hrest : ScansAs rest lexemes) :
    ScansAs (c :: tail ++ rest) (.identifier (String.ofList (c :: tail)) :: lexemes) := by
  have hscan := word hword hends hrest
  rwa [ofWord_name hfirst] at hscan

/-- ASCII letters are scanned as an identifier. -/
theorem letters {c : Char} {tail : List Char} (h : ∀ d ∈ c :: tail, d.isAlpha = true)
    (hends : EndsWord rest) (hrest : ScansAs rest lexemes) :
    ScansAs (c :: tail ++ rest) (.identifier (String.ofList (c :: tail)) :: lexemes) := by
  apply name (.inl (isLetter_of_isAlpha (h c List.mem_cons_self))) _ hends hrest
  intro d hd
  apply isWordChar_of_isAlphanum
  exact Bool.or_eq_true_iff.2 (.inl (h d hd))

/-- A whole number is scanned as itself. -/
theorem int (n : Int) (hends : EndsWord rest) (hrest : ScansAs rest lexemes) :
    ScansAs (intSpelling n ++ rest) (.int n :: lexemes) := by
  have hdigits := allDigits_toDigits n.natAbs
  have hcharacters : ∀ c ∈ intSpelling n, writesNumerals c = true :=
    List.forall_mem_append.2 ⟨writesNumerals_sign _, hdigits.writesNumerals⟩
  have hword := ofWord?_whole (decide (n < 0)) Nat.toDigits_ne_nil hdigits
  have hscan := numeral hcharacters hword hends hrest
  simpa [Numeral.isWhole, Numeral.toInt, ofDigits_toDigits, signed_natAbs] using hscan

/-- A finite binary value is scanned as itself. -/
theorem float (negative : Bool) (rank : Fin rankCount) (hends : EndsWord rest)
    (hrest : ScansAs rest lexemes) :
    ScansAs (Binary64.display (.finite negative rank) ++ rest)
      (.float (.finite negative rank) :: lexemes) := by
  rcases Binary64.ofWord?_display negative rank with ⟨numeral, hword, hwhole, hvalue⟩
  have hscan := ScansAs.numeral (Binary64.writesNumerals_display negative rank) hword hends hrest
  rwa [hwhole, hvalue] at hscan

/-- A symbol is scanned as itself, with quotes or without. -/
theorem symbol (name : List Char) (hends : EndsWord rest) (hrest : ScansAs rest lexemes) :
    ScansAs (symbolSpelling name ++ rest) (.symbol ⟨String.ofList name⟩ :: lexemes) := by
  unfold symbolSpelling
  split
  · next hplain =>
    rcases isWordChar_of_plainSymbol hplain with ⟨hne, hword⟩
    have hscan := word (List.forall_mem_cons.2 ⟨(by decide : isWordChar ':' = true), hword⟩)
      hends hrest
    rwa [ofWord_symbol hne] at hscan
  · exact quotedSymbol name hrest

/-- A literal is scanned as one lexeme that writes it. -/
theorem literal {literal : Literal} (h : literal.isSpellable = true) (hends : EndsWord rest)
    (hrest : ScansAs rest lexemes) :
    ∃ lexeme, lexeme.leaf? = some literal ∧
      ScansAs (literal.spelling ++ rest) (lexeme :: lexemes) := by
  cases literal with
  | nil => exact ⟨_, rfl, letters (List.all_eq_true.1 (by decide)) hends hrest⟩
  | bool value =>
    cases value with
    | false => exact ⟨_, rfl, letters (List.all_eq_true.1 (by decide)) hends hrest⟩
    | true => exact ⟨_, rfl, letters (List.all_eq_true.1 (by decide)) hends hrest⟩
  | int value => exact ⟨_, rfl, int value hends hrest⟩
  | float value =>
    cases value with
    | finite negative rank => exact ⟨_, rfl, float negative rank hends hrest⟩
    | infinite negative => cases h
    | nan => cases h
  | str value =>
    have hscan := string value.toList hrest
    rw [String.ofList_toList] at hscan
    exact ⟨_, rfl, hscan⟩
  | sym value =>
    have hscan := symbol value.name.toList hends hrest
    rw [String.ofList_toList] at hscan
    exact ⟨_, rfl, hscan⟩

end ScansAs

/-! ## Types -/

/-- The printed name of a type starts as a name does, and is a word. -/
theorem typeName_isWord {options : Options} {type : NodeType}
    (h : type.isSpellable options = true) :
    ∃ c tail, options.typeName type = c :: tail ∧ (isLetter c = true ∨ c = '_') ∧
      ∀ d ∈ c :: tail, isWordChar d = true := by
  unfold NodeType.isSpellable at h
  unfold Options.typeName
  cases hname : type.name.toList with
  | nil => simp [hname] at h
  | cons c tail =>
    simp only [hname, Bool.and_eq_true, Bool.or_eq_true, List.all_eq_true] at h
    rcases h with ⟨hfirst, hword⟩
    split
    · next hdashes =>
      have hletter : isLetter c = true := by simpa [hdashes] using hfirst
      have hline : c ≠ '_' := by
        rintro rfl
        rw [not_isLetter_mark (c := '_') (by simp)] at hletter
        cases hletter
      refine ⟨c, tail.map _, by rw [List.map_cons, if_neg hline], .inl hletter, ?_⟩
      refine List.forall_mem_cons.2 ⟨(hword c List.mem_cons_self).1, fun d hd => ?_⟩
      rcases List.mem_map.1 hd with ⟨e, he, rfl⟩
      split
      · decide
      · exact (hword e (List.mem_cons_of_mem c he)).1
    · exact ⟨c, tail, rfl, hfirst.imp id fun h => by simpa using h.2,
        fun d hd => (hword d hd).1⟩

/-- The word of a printed type gives the type back. -/
theorem typeName_undashed {options : Options} {type : NodeType}
    (h : type.isSpellable options = true) :
    type.name.toList =
      (options.typeName type).map fun c => if c = '-' then '_' else c := by
  have hdash : ∀ c ∈ type.name.toList, c ≠ '-' := by
    unfold NodeType.isSpellable at h
    split at h
    · cases h
    · next c tail hname =>
      intro d hd
      have hall := List.all_eq_true.1 (Bool.and_eq_true_iff.1 h).2 d (hname ▸ hd)
      simpa using (Bool.and_eq_true_iff.1 hall).2
  unfold Options.typeName
  split
  · rw [List.map_map]
    apply (List.map_id' _).symm.trans (List.map_congr_left _)
    intro c hc
    by_cases hline : c = '_'
    · simp [hline]
    · simp [hline, hdash c hc]
  · apply (List.map_id' _).symm.trans (List.map_congr_left _)
    intro c hc
    rw [if_neg (hdash c hc)]

/-! ## Trees -/

/-- What is printed behind a child ends words. -/
theorem endsWord_renderAll {options : Options} (hstyle : options.style = .sexp) (depth : Nat)
    (children : List (Value α)) (rest : List Char) :
    EndsWord (Value.renderAll options depth children ++ (')' :: rest)) := by
  have hends : ([' ', '\n', ')'].all fun c => !isWordChar c && c != '"') = true := by decide
  have hfront : ∀ (c : Char) (text : List Char), c ∈ [' ', '\n', ')'] → EndsWord (c :: text) := by
    rintro c text hc d ⟨⟩
    simpa using List.all_eq_true.1 hends c hc
  cases children with
  | nil => exact hfront ')' rest (by simp)
  | cons child children =>
    cases child with
    | lit literal =>
      simp only [Value.renderAll, hstyle, Style.separator, List.append_assoc, List.cons_append]
      exact hfront ' ' _ (by simp)
    | node node =>
      simp only [Value.renderAll, hstyle, Style.lineBreak, List.append_assoc, List.cons_append]
      exact hfront '\n' _ (by simp)
    | list items =>
      simp only [Value.renderAll, hstyle, Style.separator, List.append_assoc, List.cons_append]
      exact hfront ' ' _ (by simp)

mutual

/-- A printed node is scanned as lexemes that spell it, whatever stands behind it. -/
theorem scansAs_render {options : Options} (hstyle : options.style = .sexp) (depth : Nat)
    (node : Node α) (h : node.isSpellable options = true) {rest : List Char}
    {lexemes : List Lexeme} (hrest : ScansAs rest lexemes) :
    ∃ front, SpellsNode front node.bare ∧
      ScansAs (node.render options depth ++ rest) (front ++ lexemes) := by
  match node with
  | ⟨mark, type, children⟩ =>
    rcases Bool.and_eq_true_iff.1 h with ⟨htype, hchildren⟩
    obtain ⟨items, hitems, hscan⟩ :=
      scansAs_renderAll hstyle (depth + 1) children hchildren hrest
    rcases typeName_isWord htype with ⟨c, tail, hname, hfirst, hword⟩
    have hspells : SpellsNode
        (.opening :: .identifier (String.ofList (c :: tail)) :: (items ++ [.closing]))
        ⟨(), type, Value.mapAll (fun _ => ()) children⟩ := by
      refine .node ?_ hitems
      rw [String.toList_ofList, ← hname]
      exact typeName_undashed htype
    refine ⟨_, hspells, ?_⟩
    have hends := endsWord_renderAll hstyle (depth + 1) children rest
    have htext := ((ScansAs.name hfirst hword hends hscan).opening).spaces
      (options.indent * depth).toNat
    simpa [Node.render, Options.margin, hstyle, Style.opening, hname] using htext

/-- The printed children of a node and its closing parenthesis are scanned as lexemes that spell
the children, and the parenthesis. -/
theorem scansAs_renderAll {options : Options} (hstyle : options.style = .sexp) (depth : Nat)
    (children : List (Value α)) (h : Value.allSpellable options children = true)
    {rest : List Char} {lexemes : List Lexeme} (hrest : ScansAs rest lexemes) :
    ∃ front, SpellsItems front (Value.mapAll (fun _ => ()) children) ∧
      ScansAs (Value.renderAll options depth children ++ (')' :: rest))
        (front ++ .closing :: lexemes) := by
  match children with
  | [] => exact ⟨[], .nil, hrest.closing⟩
  | .lit literal :: children =>
    rcases Bool.and_eq_true_iff.1 h with ⟨hliteral, hchildren⟩
    rcases scansAs_renderAll hstyle depth children hchildren hrest with ⟨items, hitems, hscan⟩
    have hends := endsWord_renderAll hstyle depth children rest
    rcases hscan.literal hliteral hends with ⟨lexeme, hleaf, htext⟩
    refine ⟨[lexeme] ++ items, .cons (.of_leaf hleaf) hitems, ?_⟩
    have hblank := htext.blank (by decide : isBlank ' ' = true)
    simpa [Value.renderAll, hstyle, Style.separator] using hblank
  | .node node :: children =>
    rcases Bool.and_eq_true_iff.1 h with ⟨hnode, hchildren⟩
    rcases scansAs_renderAll hstyle depth children hchildren hrest with ⟨items, hitems, hscan⟩
    rcases scansAs_render hstyle depth node hnode hscan with ⟨front, hfront, htext⟩
    refine ⟨front ++ items, .cons (.node hfront) hitems, ?_⟩
    have hblank := htext.blank (by decide : isBlank '\n' = true)
    simpa [Value.renderAll, hstyle, Style.lineBreak] using hblank
  | .list items :: children => cases h

end

/-! ## Reading a printed tree -/

/-- A tree that can be written is printed as a text that is read as the same tree: with the same
types and literals at the same places, and without its marks. -/
theorem ofText_print (options : Options) (hstyle : options.style = .sexp) (node : Node α)
    (h : node.isSpellable options = true) :
    Node.ofText (node.print options) = .ok node.bare := by
  rcases scansAs_render hstyle 0 node h .nil with ⟨front, hspells, hscan⟩
  rw [List.append_nil, List.append_nil] at hscan
  rcases hscan 0 with ⟨tokens, htokens, hlexemes⟩
  rw [← hlexemes] at hspells
  refine ofText_eq_ok_iff.2 ⟨tokens, ?_, ?_, hspells⟩
  · rw [Node.print, Tokens.ofText, Cursor.ofText, String.toList_ofList]
    exact htokens
  · intro token htoken
    exact hspells.not_faulty token.lexeme (List.mem_map_of_mem htoken)

/-- Without any indent, a type with an underscore, symbols that need quotes, a text that starts an
interpolation, the greatest negative value and the negative zero all come back. -/
theorem ofText_print_unindented :
    let options : Options := ⟨.sexp, -3, true⟩
    let tree : Node Unit := ⟨(), .ofName "op_asgn",
      [.node ⟨(), .ofName "lvasgn", [.lit (.sym ⟨"a \"\\"⟩), .lit (.sym ⟨""⟩)]⟩,
        .lit (.sym ⟨"+"⟩), .lit (.str "#\x7ba\x7d\n"),
        .lit (.float (.finite true ⟨1, by decide⟩)), .lit (.float (.finite true ⟨0, by decide⟩)),
        .lit (.int (-1)), .lit (.bool true), .lit .nil]⟩
    options.style = .sexp ∧ tree.isSpellable options = true ∧
      Node.ofText (tree.print options) = .ok tree := by
  intro options tree
  have hspellable : tree.isSpellable options = true := by decide +kernel
  exact ⟨rfl, hspellable, ofText_print options rfl tree hspellable⟩

end Sexp

end RubyTree
