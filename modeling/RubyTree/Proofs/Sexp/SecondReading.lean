import RubyTree.Proofs.Sexp.Refusal
import RubyTree.Proofs.Sexp.RoundTrip
import RubyTree.Proofs.Tree.Throughout

/-!
# Reading a tree a second time

A tree that was read from a text has type names that are words, and no literal
that is not a number.  Printed and read again it comes back, unless a dash is
printed in front of a type name or a literal is infinite: an infinity overflows
from a long numeral, but is printed as a word.

The failures are seen on the lexemes of the printed text.  Behind an opening
parenthesis stands a name, and elsewhere no name but a keyword; the grammar needs
both, and the two exceptional shapes break one of them wherever they are.

Main results:

- `ofText_holds`: the types and literals of a tree that was read.
- `WellPlaced` is the condition on lexemes: `SpellsNode.wellPlaced` derives it from the
  grammar, and `scansAs_render_iff` measures printed trees against it.
- `ofText_print_iff`: which trees come back from a second reading, and what happens
  to the others.
-/

namespace RubyTree

open RubyTree.Text RubyTree.Sexp

/-! ## Trees that can be written -/

variable {α : Type}

mutual

/-- A tree can be written exactly when all its types and literals can. -/
theorem Node.isSpellable_iff {options : Options} (node : Node α) :
    node.isSpellable options = true ↔
      node.Holds (·.isSpellable options = true) (·.isSpellable = true) := by
  match node with
  | ⟨mark, type, children⟩ =>
    rw [Node.isSpellable, Bool.and_eq_true, Value.allSpellable_iff children, Node.Holds]

theorem Value.allSpellable_iff {options : Options} (children : List (Value α)) :
    Value.allSpellable options children = true ↔
      Value.AllHold (·.isSpellable options = true) (·.isSpellable = true) children := by
  match children with
  | [] => simp [Value.allSpellable, Value.AllHold]
  | .lit literal :: rest =>
    rw [Value.allSpellable, Bool.and_eq_true, Value.allSpellable_iff rest, Value.AllHold]
  | .node node :: rest =>
    rw [Value.allSpellable, Bool.and_eq_true, Node.isSpellable_iff node,
      Value.allSpellable_iff rest, Value.AllHold]
  | .list items :: rest => simp [Value.allSpellable, Value.AllHold]

end

/-! ## What is read -/

/-- The name of the type is a word that starts with a letter or an underscore and holds no dash. -/
def NodeType.IsName (type : NodeType) : Prop :=
  ∃ c tail, type.name.toList = c :: tail ∧ (isLetter c = true ∨ c = '_') ∧
    ∀ d ∈ c :: tail, d ≠ '-' ∧ isBlank d = false ∧ d ≠ '(' ∧ d ≠ ')' ∧ d ≠ '"'

/-- What a tree must be like to come back when it is printed and read: where underscores are printed
as dashes, no type name starts with one, and no literal is infinite. -/
def Node.ComesBack (options : Options) (node : Node α) : Prop :=
  (options.dasherize = true →
    ∀ m ∈ node :: node.descendants, m.type.name.toList.head? ≠ some '_') ∧
  ∀ m ∈ node :: node.descendants, ∀ negative,
    .lit (.float (.infinite negative)) ∉ m.children

namespace Sexp

/-- What is known of a lexeme that was read from a text: a name is a word that starts with a letter
or an underscore, and a binary value is a number. -/
def Lexeme.IsScanned : Lexeme → Prop
  | .identifier word => ∃ c tail, word = String.ofList (c :: tail) ∧
      (isLetter c = true ∨ c = '_') ∧ ∀ d ∈ c :: tail, isWordChar d = true
  | .float value => value ≠ .nan
  | _ => True

/-- A numeral is a number, if only an infinite one. -/
theorem toBinary64_ne_nan (numeral : Numeral) : numeral.toBinary64 ≠ .nan := by
  unfold Numeral.toBinary64 Binary64.ofDecimal Binary64.ofRank
  split <;> simp

/-- A word is a lexeme of its kind. -/
theorem isScanned_ofWord {c : Char} {tail : List Char}
    (hword : ∀ d ∈ c :: tail, isWordChar d = true) (beforeQuote : Bool) :
    (Lexeme.ofWord c tail beforeQuote).IsScanned := by
  have hname : Lexeme.IsScanned (if isLetter c ∨ c = '_'
      then .identifier (String.ofList (c :: tail)) else .faulty (.unexpectedCharacter c)) := by
    split
    · next hfirst => exact ⟨c, tail, rfl, hfirst, hword⟩
    · trivial
  unfold Lexeme.ofWord
  split
  · split <;> trivial
  · simp only
    split
    · next numeral _ =>
      split
      · exact hname
      · split
        · trivial
        · exact toBinary64_ne_nan numeral
    · exact hname

namespace Cursor

theorem isBlank_of_skipBlanks {cursor : Cursor} {c : Char} {rest : List Char}
    (h : cursor.skipBlanks.rest = c :: rest) : isBlank c = false := by
  have hdrop : cursor.rest.dropWhile isBlank = c :: rest :=
    (drop_takeWhile isBlank cursor.rest).symm.trans h
  exact head_dropWhile hdrop

/-- A string is a lexeme of the kind that it is read as, or faulty. -/
theorem isScanned_string {start after : Cursor} {lead : Nat} {lexeme : String → Lexeme}
    {body : List Char} {token : Token} (hlexeme : ∀ value, (lexeme value).IsScanned)
    (h : start.string lead lexeme body = .token token after) : token.lexeme.IsScanned := by
  unfold string at h
  split at h
  · cases h
    exact hlexeme _
  · cases h
    trivial
  · cases h

/-- A step reads a lexeme of its kind. -/
theorem isScanned_next {cursor after : Cursor} {token : Token}
    (h : cursor.next = .token token after) : token.lexeme.IsScanned := by
  have hfirst : ∀ c rest, cursor.skipBlanks.rest = c :: rest → isBlank c = false :=
    fun _ _ => isBlank_of_skipBlanks
  unfold next at h
  generalize cursor.skipBlanks = start at h hfirst
  simp only at h
  split at h
  · cases h
  · cases h
    trivial
  · cases h
    trivial
  · exact isScanned_string (by simp [Lexeme.IsScanned]) h
  · exact isScanned_string (by simp [Lexeme.IsScanned]) h
  · next c rest hopening hclosing hquote _ hrest =>
    cases h
    apply isScanned_ofWord
    refine List.forall_mem_cons.2 ⟨?_, fun d hd => List.mem_takeWhile_imp hd⟩
    exact isWordChar_iff.2 ⟨hfirst c rest hrest, hopening, hclosing, hquote⟩

end Cursor

/-- All lexemes of a scan are of their kinds. -/
theorem Scans.isScanned {cursor : Cursor} {tokens : Tokens} (h : Scans cursor tokens) :
    ∀ token ∈ tokens.toList, token.lexeme.IsScanned := by
  induction h with
  | finished => simp
  | token hnext _ ih => exact List.forall_mem_cons.2 ⟨Cursor.isScanned_next hnext, ih⟩

/-- The type of a node that is spelled with a name has a name without dashes. -/
theorem isName_of_isScanned {word : String} {type : NodeType}
    (hword : (Lexeme.identifier word).IsScanned)
    (htype : type.name.toList = word.toList.map fun c => if c = '-' then '_' else c) :
    type.IsName := by
  rcases hword with ⟨c, tail, rfl, hfirst, hchars⟩
  have hdash : c ≠ '-' := by
    rintro rfl
    rcases hfirst with hletter | hline
    · rw [not_isLetter_mark (by simp)] at hletter
      cases hletter
    · cases hline
  rw [String.toList_ofList, List.map_cons, if_neg hdash] at htype
  have hchar : ∀ d ∈ c :: tail, ∀ e, e = (if d = '-' then '_' else d) →
      e ≠ '-' ∧ isBlank e = false ∧ e ≠ '(' ∧ e ≠ ')' ∧ e ≠ '"' := by
    rintro d hd e rfl
    split
    · decide
    · next hd' => exact ⟨hd', isWordChar_iff.1 (hchars d hd)⟩
  refine ⟨c, _, htype, hfirst, List.forall_mem_cons.2 ⟨?_, ?_⟩⟩
  · exact hchar c List.mem_cons_self c (if_neg hdash).symm
  · intro e he
    rcases List.mem_map.1 he with ⟨d, hd, rfl⟩
    exact hchar d (List.mem_cons_of_mem c hd) _ rfl

mutual

theorem SpellsNode.holds {lexemes : List Lexeme} {node : Node Unit} (h : SpellsNode lexemes node)
    (hscanned : ∀ lexeme ∈ lexemes, lexeme.IsScanned) :
    node.Holds NodeType.IsName (· ≠ .float .nan) := by
  cases h with
  | node htype hitems =>
    rcases List.forall_mem_cons.1 (List.forall_mem_cons.1 hscanned).2 with ⟨hword, hinside⟩
    exact ⟨isName_of_isScanned hword htype, hitems.holds (List.forall_mem_append.1 hinside).1⟩

theorem SpellsItems.holds {lexemes : List Lexeme} {values : List (Value Unit)}
    (h : SpellsItems lexemes values) (hscanned : ∀ lexeme ∈ lexemes, lexeme.IsScanned) :
    Value.AllHold NodeType.IsName (· ≠ .float .nan) values := by
  cases h with
  | nil => trivial
  | cons hitem hitems =>
    rcases List.forall_mem_append.1 hscanned with ⟨hfront, hrest⟩
    have hvalues := hitems.holds hrest
    cases hitem with
    | node hnode => exact ⟨hnode.holds hfront, hvalues⟩
    | absent | yes | no | symbol | string | int => exact ⟨by simp, hvalues⟩
    | float value =>
      have hvalue : value ≠ .nan := hfront (.float value) List.mem_cons_self
      exact ⟨by simpa using hvalue, hvalues⟩

end

/-- The types of a tree that was read have names, and none of its literals is not a number. -/
theorem ofText_holds {text : String} {node : Node Unit} (h : Node.ofText text = .ok node) :
    node.Holds NodeType.IsName (· ≠ .float .nan) := by
  rcases ofText_eq_ok_iff.1 h with ⟨tokens, htokens, -, hspells⟩
  have hscans : Scans (.ofText text) tokens := scanFrom_eq_ok_iff.1 htokens
  exact hspells.holds (List.forall_mem_map.2 hscans.isScanned)

/-! ## Well-placed names -/

/-- A name stands behind every opening parenthesis, and everywhere else there are only literals and
closing parentheses. -/
def WellPlaced : List Lexeme → Prop
  | [] => True
  | .opening :: .identifier _ :: rest => WellPlaced rest
  | .opening :: _ => False
  | .closing :: rest => WellPlaced rest
  | lexeme :: rest => lexeme.leaf?.isSome = true ∧ WellPlaced rest

variable {lexeme : Lexeme} {lexemes : List Lexeme}

theorem wellPlaced_opening : WellPlaced (.opening :: lexeme :: lexemes) ↔
    (∃ word, lexeme = .identifier word) ∧ WellPlaced lexemes := by
  cases lexeme <;> simp [WellPlaced]

theorem wellPlaced_closing : WellPlaced (.closing :: lexemes) ↔ WellPlaced lexemes :=
  Iff.rfl

theorem wellPlaced_leaf (h : lexeme ≠ .opening ∧ lexeme ≠ .closing) :
    WellPlaced (lexeme :: lexemes) ↔ lexeme.leaf?.isSome = true ∧ WellPlaced lexemes := by
  cases lexeme <;> simp_all [WellPlaced]

mutual

/-- The lexemes of a spelled node are well placed. -/
theorem SpellsNode.wellPlaced {front back : List Lexeme} {node : Node Unit}
    (h : SpellsNode front node) (hback : WellPlaced back) : WellPlaced (front ++ back) := by
  cases h with
  | @node word type items children htype hitems =>
    have hinside : WellPlaced (items ++ .closing :: back) :=
      hitems.wellPlaced (wellPlaced_closing.2 hback)
    simpa [wellPlaced_opening] using hinside

theorem SpellsItems.wellPlaced {front back : List Lexeme} {values : List (Value Unit)}
    (h : SpellsItems front values) (hback : WellPlaced back) : WellPlaced (front ++ back) := by
  cases h with
  | nil => exact hback
  | cons hitem hitems =>
    rw [List.append_assoc]
    exact hitem.wellPlaced (hitems.wellPlaced hback)

theorem SpellsItem.wellPlaced {front back : List Lexeme} {value : Value Unit}
    (h : SpellsItem front value) (hback : WellPlaced back) : WellPlaced (front ++ back) := by
  cases h with
  | node hnode => exact hnode.wellPlaced hback
  | absent | yes | no | symbol | string | int | float => exact ⟨rfl, hback⟩

end

/-! ## Printed types and literals -/

variable {options : Options} {type : NodeType} {literal : Literal} {rest : List Char}

/-- A type with a name can be written unless a dash is printed in front of it. -/
theorem isSpellable_iff_of_isName (h : type.IsName) :
    type.isSpellable options = true ↔
      (options.dasherize = true → type.name.toList.head? ≠ some '_') := by
  rcases h with ⟨c, tail, hname, hfirst, hchars⟩
  have hall : ((c :: tail).all fun d => isWordChar d && d ≠ '-') = true := by
    apply List.all_eq_true.2
    intro d hd
    rw [isWordChar_iff.2 (hchars d hd).2]
    simpa using (hchars d hd).1
  have hline : isLetter '_' = false := not_isLetter_mark (by simp)
  rw [NodeType.isSpellable, hname]
  simp only [hall, Bool.and_true, List.head?_cons, ne_eq, Option.some.injEq]
  rcases hfirst with hletter | rfl
  · have hne : c ≠ '_' := by
      rintro rfl
      rw [hline] at hletter
      cases hletter
    simp [hletter, hne]
  · cases options.dasherize <;> simp [hline]

/-- Only infinities cannot be written among the literals that are read. -/
theorem isSpellable_iff_of_ne_nan (h : literal ≠ .float .nan) :
    literal.isSpellable = true ↔ ∀ negative, literal ≠ .float (.infinite negative) := by
  unfold Literal.isSpellable
  split
  · simp
  · next value hfinite =>
    cases value with
    | finite negative rank => exact absurd rfl (hfinite negative rank)
    | infinite negative => simp
    | nan => exact absurd rfl h
  · next hfloat => exact iff_of_true rfl fun negative => hfloat _

/-- A word that starts with a dash is no name. -/
theorem ofWord_dash_ne_identifier (tail : List Char) (word : String) :
    Lexeme.ofWord '-' tail false ≠ .identifier word := by
  have hmark : ¬ (isLetter '-' = true ∨ '-' = '_') := by
    rw [not_isLetter_mark (by simp)]
    decide
  unfold Lexeme.ofWord
  rw [if_neg (by decide)]
  simp only [if_neg hmark]
  split
  · rw [if_neg (by simp)]
    split <;> simp
  · simp

/-- The printed name of a type is scanned as one lexeme, which is a name exactly if the type can be
written. -/
theorem scansAs_typeName (options : Options) (h : type.IsName) {lexemes : List Lexeme}
    (hends : EndsWord rest) (hrest : ScansAs rest lexemes) :
    ∃ lexeme, ScansAs (options.typeName type ++ rest) (lexeme :: lexemes) ∧
      ((∃ word, lexeme = .identifier word) ↔ type.isSpellable options = true) := by
  by_cases hspellable : type.isSpellable options = true
  · rcases typeName_isWord hspellable with ⟨c, tail, htype, hfirst, hword⟩
    rw [htype]
    exact ⟨_, .name hfirst hword hends hrest, iff_of_true ⟨_, rfl⟩ hspellable⟩
  · -- the underscore in front is printed as a dash, which may start a number but no name
    have hdash : options.dasherize = true ∧ type.name.toList.head? = some '_' := by
      simpa [isSpellable_iff_of_isName h] using hspellable
    rcases h with ⟨c, tail, hname, -, hchars⟩
    obtain rfl : c = '_' := by simpa [hname] using hdash.2
    have htype : options.typeName type = '-' :: tail.map fun c => if c = '_' then '-' else c := by
      rw [Options.typeName, if_pos hdash.1, hname]
      rfl
    have hword : ∀ d ∈ '-' :: tail.map (fun c => if c = '_' then '-' else c),
        isWordChar d = true := by
      refine List.forall_mem_cons.2 ⟨by decide, List.forall_mem_map.2 fun d hd => ?_⟩
      split
      · decide
      · exact isWordChar_iff.2 (hchars d (List.mem_cons_of_mem _ hd)).2
    rw [htype]
    refine ⟨_, .word hword hends hrest, iff_of_false ?_ hspellable⟩
    rintro ⟨word, hidentifier⟩
    exact ofWord_dash_ne_identifier _ _ hidentifier

/-- The spelling of a literal is scanned as one lexeme, which is well placed exactly if the literal
can be written. -/
theorem scansAs_spelling (h : literal ≠ .float .nan) {lexemes : List Lexeme}
    (hends : EndsWord rest) (hrest : ScansAs rest lexemes) :
    ∃ lexeme, ScansAs (literal.spelling ++ rest) (lexeme :: lexemes) ∧
      (WellPlaced (lexeme :: lexemes) ↔ literal.isSpellable = true ∧ WellPlaced lexemes) := by
  by_cases hspellable : literal.isSpellable = true
  · rcases hrest.literal hspellable hends with ⟨lexeme, hleaf, hscan⟩
    have hplace : lexeme ≠ .opening ∧ lexeme ≠ .closing := by
      constructor
      all_goals
        rintro rfl
        cases hleaf
    refine ⟨lexeme, hscan, ?_⟩
    rw [wellPlaced_leaf hplace, hleaf]
    simp [hspellable]
  · have hinfinite : ∃ negative, literal = .float (.infinite negative) :=
      not_forall_not.1 (mt (isSpellable_iff_of_ne_nan h).2 hspellable)
    rcases hinfinite with ⟨negative, rfl⟩
    -- an infinity is printed as a word that is no keyword, or as one that starts with a dash
    cases negative with
    | false =>
      have hletters : ∀ d ∈ ['i', 'n', 'f'], d.isAlpha = true := List.all_eq_true.1 (by decide)
      refine ⟨_, .letters hletters hends hrest, ?_⟩
      simp [WellPlaced, Lexeme.leaf?, keyword?, hspellable]
    | true =>
      have hword : ∀ d ∈ ['-', 'i', 'n', 'f'], isWordChar d = true := List.all_eq_true.1 (by decide)
      have hlexeme : Lexeme.ofWord '-' ['i', 'n', 'f'] false =
          .faulty (.unexpectedCharacter '-') := by decide +kernel
      refine ⟨_, .word hword hends hrest, ?_⟩
      simp [hlexeme, WellPlaced, Lexeme.leaf?, Lexeme.literal?, hspellable]

/-! ## Printed trees -/

mutual

/-- A printed tree is scanned as lexemes that are well placed exactly if the tree can be written. -/
theorem scansAs_render_iff (hstyle : options.style = .sexp) (depth : Nat) (node : Node α)
    (h : node.Holds NodeType.IsName (· ≠ .float .nan)) {rest : List Char} {lexemes : List Lexeme}
    (hrest : ScansAs rest lexemes) :
    ∃ front, ScansAs (node.render options depth ++ rest) front ∧
      (WellPlaced front ↔ node.isSpellable options = true ∧ WellPlaced lexemes) := by
  match node with
  | ⟨mark, type, children⟩ =>
    rcases h with ⟨htype, hchildren⟩
    obtain ⟨items, hitems, hplaced⟩ :=
      scansAs_renderAll_iff hstyle (depth + 1) children hchildren hrest
    have hends := endsWord_renderAll hstyle (depth + 1) children rest
    obtain ⟨name, hname, hidentifier⟩ := scansAs_typeName options htype hends hitems
    refine ⟨.opening :: name :: items, ?_, ?_⟩
    · have htext := hname.opening.spaces (options.indent * depth).toNat
      simpa [Node.render, Options.margin, hstyle, Style.opening] using htext
    · rw [wellPlaced_opening, hidentifier, hplaced, Node.isSpellable, Bool.and_eq_true, and_assoc]

/-- The printed children of a node and its closing parenthesis are scanned as lexemes that are well
placed exactly if the children can be written. -/
theorem scansAs_renderAll_iff (hstyle : options.style = .sexp) (depth : Nat)
    (children : List (Value α)) (h : Value.AllHold NodeType.IsName (· ≠ .float .nan) children)
    {rest : List Char} {lexemes : List Lexeme} (hrest : ScansAs rest lexemes) :
    ∃ front, ScansAs (Value.renderAll options depth children ++ (')' :: rest)) front ∧
      (WellPlaced front ↔ Value.allSpellable options children = true ∧ WellPlaced lexemes) := by
  match children with
  | [] => exact ⟨_, hrest.closing, by simp [wellPlaced_closing, Value.allSpellable]⟩
  | .lit literal :: children =>
    rcases h with ⟨hliteral, hchildren⟩
    rcases scansAs_renderAll_iff hstyle depth children hchildren hrest with ⟨items, hitems, hplaced⟩
    have hends := endsWord_renderAll hstyle depth children rest
    rcases scansAs_spelling hliteral hends hitems with ⟨lexeme, hlexeme, hleaf⟩
    refine ⟨lexeme :: items, ?_, ?_⟩
    · have hblank := hlexeme.blank (by decide : isBlank ' ' = true)
      simpa [Value.renderAll, hstyle, Style.separator] using hblank
    · rw [hleaf, hplaced, Value.allSpellable, Bool.and_eq_true, and_assoc]
  | .node node :: children =>
    rcases h with ⟨hnode, hchildren⟩
    rcases scansAs_renderAll_iff hstyle depth children hchildren hrest with ⟨items, hitems, hplaced⟩
    rcases scansAs_render_iff hstyle depth node hnode hitems with ⟨front, hfront, hfirst⟩
    refine ⟨front, ?_, ?_⟩
    · have hblank := hfront.blank (by decide : isBlank '\n' = true)
      simpa [Value.renderAll, hstyle, Style.lineBreak] using hblank
    · rw [hfirst, hplaced, Value.allSpellable, Bool.and_eq_true, and_assoc]
  | .list items :: children => cases h

end

/-! ## The second reading -/

/-- A text that is scanned as lexemes that spell a node is read as that node. -/
theorem ofText_of_scansAs {text : String} {lexemes : List Lexeme} {node : Node Unit}
    (hscan : ScansAs text.toList lexemes) (hspells : SpellsNode lexemes node) :
    Node.ofText text = .ok node := by
  rcases hscan 0 with ⟨tokens, htokens, rfl⟩
  refine ofText_eq_ok_iff.2 ⟨tokens, htokens, fun token htoken => ?_, hspells⟩
  exact hspells.not_faulty token.lexeme (List.mem_map_of_mem htoken)

/-- A text whose lexemes are not well placed is refused with an error in the report. -/
theorem ofText_of_not_wellPlaced {text : String} {lexemes : List Lexeme}
    (hscan : ScansAs text.toList lexemes) (h : ¬ WellPlaced lexemes) :
    ∃ reports, Node.ofText text = .error (.malformed reports) ∧ hasErrors reports = true := by
  rcases hscan 0 with ⟨tokens, htokens, rfl⟩
  rcases ofText_of_tokens htokens with ⟨node, hnode⟩ | hrefused
  · rcases ofText_eq_ok_iff.1 hnode with ⟨other, hother, -, hspells⟩
    cases hother.symm.trans htokens
    have hplaced : WellPlaced (tokens.toList.map Token.lexeme ++ []) := hspells.wellPlaced trivial
    rw [List.append_nil] at hplaced
    exact absurd hplaced h
  · exact hrefused

/-- A tree that was read comes back exactly if it can be written. -/
theorem isSpellable_iff_comesBack {options : Options} {node : Node α}
    (h : node.Holds NodeType.IsName (· ≠ .float .nan)) :
    node.isSpellable options = true ↔ node.ComesBack options := by
  have hread := (Node.holds_iff node).1 h
  rw [Node.isSpellable_iff, Node.holds_iff]
  constructor
  · intro hspellable
    constructor
    · intro hdashes m hm
      exact (isSpellable_iff_of_isName (hread m hm).1).1 (hspellable m hm).1 hdashes
    · intro m hm negative hchild
      cases (hspellable m hm).2 _ hchild
  · rintro ⟨hdashes, hfinite⟩ m hm
    refine ⟨(isSpellable_iff_of_isName (hread m hm).1).2 fun hdasherize => hdashes hdasherize m hm,
      fun child hchild => ?_⟩
    have hleaf := (hread m hm).2 child hchild
    cases child with
    | lit literal =>
      refine (isSpellable_iff_of_ne_nan hleaf).2 fun negative => ?_
      rintro rfl
      exact hfinite m hm negative hchild
    | node child => trivial
    | list items => cases hleaf

/-- A tree that was read has names for types, without dashes.  It comes back from a second reading
exactly if neither an underscore that is printed as a dash starts a type name nor a literal is
infinite.  Otherwise its printed text is refused with an error in the report. -/
theorem ofText_print_iff {text : String} {node : Node Unit} (h : Node.ofText text = .ok node) :
    (∀ m ∈ node :: node.descendants, m.type.IsName) ∧
      ∀ options : Options, options.style = .sexp →
        (Node.ofText (node.print options) = .ok node ↔ node.ComesBack options) ∧
        (¬ node.ComesBack options → ∃ reports,
          Node.ofText (node.print options) = .error (.malformed reports) ∧
            hasErrors reports = true) := by
  have hread := ofText_holds h
  refine ⟨fun m hm => ((Node.holds_iff node).1 hread m hm).1, fun options hstyle => ?_⟩
  have hprint : (node.print options).toList = node.render options 0 ++ [] := by
    rw [Node.print, String.toList_ofList, List.append_nil]
  rw [← isSpellable_iff_comesBack hread]
  have hrefused : ¬ node.isSpellable options = true → ∃ reports,
      Node.ofText (node.print options) = .error (.malformed reports) ∧
        hasErrors reports = true := by
    intro hspellable
    rcases scansAs_render_iff hstyle 0 node hread .nil with ⟨lexemes, hscan, hplaced⟩
    rw [← hprint] at hscan
    exact ofText_of_not_wellPlaced hscan fun hwell => hspellable (hplaced.1 hwell).1
  refine ⟨⟨fun hok => ?_, fun hspellable => ?_⟩, hrefused⟩
  · by_contra hspellable
    rcases hrefused hspellable with ⟨reports, hreports, -⟩
    cases hok.symm.trans hreports
  · rcases scansAs_render hstyle 0 node hspellable .nil with ⟨front, hspells, hscan⟩
    rw [← hprint, List.append_nil] at hscan
    rw [Node.bare_unit] at hspells
    exact ofText_of_scansAs hscan hspells

/-- A type whose name starts with an underscore comes back, but not where underscores are printed
as dashes. -/
theorem ofText_print_iff_underscore :
    let tree : Node Unit := ⟨(), .ofName "_a", []⟩
    Node.ofText "(_a)" = .ok tree ∧ Node.ofText (tree.print ⟨.sexp, 2, false⟩) = .ok tree ∧
      ∃ reports, Node.ofText (tree.print .standard) = .error (.malformed reports) ∧
        hasErrors reports = true := by
  intro tree
  have hspells : SpellsNode (.opening :: .identifier "_a" :: ([] ++ [.closing])) tree :=
    .node (by simp) .nil
  have hends : EndsWord [')'] := by
    rintro c ⟨⟩
    decide
  have hword : ∀ d ∈ ['_', 'a'], isWordChar d = true := List.all_eq_true.1 (by decide)
  have hscan : ScansAs "(_a)".toList [.opening, .identifier "_a", .closing] :=
    (ScansAs.name (.inr rfl) hword hends (.closing .nil)).opening
  have hread : Node.ofText "(_a)" = .ok tree := ofText_of_scansAs hscan hspells
  have hnodes : tree :: tree.descendants = [tree] := rfl
  refine ⟨hread, ((ofText_print_iff hread).2 ⟨.sexp, 2, false⟩ rfl).1.2 ?_,
    ((ofText_print_iff hread).2 .standard rfl).2 ?_⟩
  · simp [Node.ComesBack, hnodes, tree]
  · simp [Node.ComesBack, hnodes, tree, Options.standard]

end Sexp

end RubyTree
