import Mathlib.Data.List.Basic
import RubyTree.Sexp.Reader

/-!
# The grammar of node trees

The lexemes that spell a node are a parenthesis, the word of its type, its items
and a closing parenthesis.  An item is a node or a single lexeme.  The grammar is
a relation between lexemes and trees that does not mention frames, reports or
recovery; the reader is measured against it.

Main results:

- `SpellsNode` is the grammar, with `SpellsItem` and `SpellsItems` for the children.
- `readItems_spellsItems`: on spelled items the reader adds their values to the
  innermost frame and reports nothing.
- `exists_spellsItems`: where nothing is reported, the innermost frame is closed
  behind spelled items.
- `reading_accepts_grammar`: a node is read without a report exactly where the
  grammar derives it, and the tree is the one of the derivation.
-/

namespace RubyTree.Sexp

open RubyTree.Text

/-! ## The grammar -/

mutual

/-- The lexemes spell the node.  A dash in the word of the type stands for an underscore. -/
inductive SpellsNode : List Lexeme → Node Unit → Prop
  /-- Type and items between parentheses. -/
  | node {word : String} {type : NodeType} {items : List Lexeme} {children : List (Value Unit)}
      (htype : type.name.toList = word.toList.map fun c => if c = '-' then '_' else c)
      (hitems : SpellsItems items children) :
      SpellsNode (.opening :: .identifier word :: (items ++ [.closing])) ⟨(), type, children⟩

/-- The lexemes spell the values one after the other. -/
inductive SpellsItems : List Lexeme → List (Value Unit) → Prop
  /-- No lexemes spell no values. -/
  | nil : SpellsItems [] []
  /-- One more item in front. -/
  | cons {front rest : List Lexeme} {value : Value Unit} {values : List (Value Unit)}
      (hitem : SpellsItem front value) (hitems : SpellsItems rest values) :
      SpellsItems (front ++ rest) (value :: values)

/-- The lexemes spell the value. -/
inductive SpellsItem : List Lexeme → Value Unit → Prop
  /-- A node. -/
  | node {lexemes : List Lexeme} {node : Node Unit} (hnode : SpellsNode lexemes node) :
      SpellsItem lexemes (.node node)
  /-- The word `nil`. -/
  | absent : SpellsItem [.identifier "nil"] (.lit .nil)
  /-- The word `true`. -/
  | yes : SpellsItem [.identifier "true"] (.lit (.bool true))
  /-- The word `false`. -/
  | no : SpellsItem [.identifier "false"] (.lit (.bool false))
  /-- A symbol. -/
  | symbol (value : Symbol) : SpellsItem [.symbol value] (.lit (.sym value))
  /-- A string. -/
  | string (value : String) : SpellsItem [.string value] (.lit (.str value))
  /-- A whole number. -/
  | int (value : Int) : SpellsItem [.int value] (.lit (.int value))
  /-- A binary value. -/
  | float (value : Binary64) : SpellsItem [.float value] (.lit (.float value))

end

mutual

/-- No faulty lexeme spells a part of a node. -/
theorem SpellsNode.not_faulty {lexemes : List Lexeme} {node : Node Unit}
    (h : SpellsNode lexemes node) : ∀ lexeme ∈ lexemes, ∀ fault, lexeme ≠ .faulty fault := by
  cases h with
  | node htype hitems =>
    intro lexeme hlexeme
    simp only [List.mem_cons, List.mem_append, List.not_mem_nil, or_false] at hlexeme
    rcases hlexeme with rfl | rfl | hinside | rfl
    · simp
    · simp
    · exact hitems.not_faulty lexeme hinside
    · simp

/-- No faulty lexeme spells a part of some items. -/
theorem SpellsItems.not_faulty {lexemes : List Lexeme} {values : List (Value Unit)}
    (h : SpellsItems lexemes values) : ∀ lexeme ∈ lexemes, ∀ fault, lexeme ≠ .faulty fault := by
  cases h with
  | nil => simp
  | cons hitem hitems => exact List.forall_mem_append.2 ⟨hitem.not_faulty, hitems.not_faulty⟩

/-- No faulty lexeme spells a part of an item. -/
theorem SpellsItem.not_faulty {lexemes : List Lexeme} {value : Value Unit}
    (h : SpellsItem lexemes value) : ∀ lexeme ∈ lexemes, ∀ fault, lexeme ≠ .faulty fault := by
  cases h with
  | node hnode => exact hnode.not_faulty
  | absent | yes | no | symbol | string | int | float => simp

end

/-! ## Leaves -/

/-- The literal that a lexeme writes where a child is expected. -/
def Lexeme.leaf? : Lexeme → Option Literal
  | .identifier word => keyword? word
  | lexeme => lexeme.literal?

/-- A word that writes a literal is one of the three keywords. -/
theorem keyword?_eq_some {word : String} {literal : Literal} (h : keyword? word = some literal) :
    (word = "nil" ∧ literal = .nil) ∨ (word = "true" ∧ literal = .bool true) ∨
      (word = "false" ∧ literal = .bool false) := by
  unfold keyword? at h
  split at h <;> simp_all

/-- A lexeme that writes a literal spells it. -/
theorem SpellsItem.of_leaf {lexeme : Lexeme} {literal : Literal}
    (h : lexeme.leaf? = some literal) : SpellsItem [lexeme] (.lit literal) := by
  cases lexeme with
  | identifier word =>
    rcases keyword?_eq_some h with ⟨rfl, rfl⟩ | ⟨rfl, rfl⟩ | ⟨rfl, rfl⟩
    · exact .absent
    · exact .yes
    · exact .no
  | symbol value => cases h; exact .symbol value
  | string value => cases h; exact .string value
  | int value => cases h; exact .int value
  | float value => cases h; exact .float value
  | opening => cases h
  | closing => cases h
  | faulty fault => cases h

/-- A single lexeme that spells a literal is a leaf. -/
theorem SpellsItem.exists_leaf {lexemes : List Lexeme} {literal : Literal}
    (h : SpellsItem lexemes (.lit literal)) :
    ∃ lexeme, lexemes = [lexeme] ∧ lexeme.leaf? = some literal := by
  cases h with
  | absent | yes | no | symbol | string | int | float => exact ⟨_, rfl, rfl⟩

/-- The type that a word names has the name of the word with underscores for dashes. -/
theorem typeNamed_eq_iff {word : String} {type : NodeType} :
    typeNamed word = type ↔
      type.name.toList = word.toList.map fun c => if c = '-' then '_' else c := by
  constructor
  · rintro rfl
    simp [typeNamed]
  · intro h
    apply NodeType.name_injective
    rw [typeNamed, NodeType.name_ofName, ← h, String.ofList_toList]

/-! ## Frames -/

/-- Children that are added one after the other stand in front in reverse. -/
theorem Frame.foldl_add (values : List (Value Unit)) (frame : Frame) :
    values.foldl Frame.add frame =
      ⟨frame.opening, frame.type, values.reverse ++ frame.reversed⟩ := by
  induction values generalizing frame with
  | nil => rfl
  | cons value values ih => simp [ih, Frame.add]

@[simp] theorem Reading.after_nil (reading : Reading) : reading.after [] = reading := rfl

/-! ## One step of the reader -/

variable {size : Nat} {frame : Frame} {outer : List Frame} {token : Token} {rest : List Token}

/-- A leaf is added to the innermost frame. -/
theorem readItems_leaf {literal : Literal} (h : token.lexeme.leaf? = some literal) :
    readItems size frame outer (token :: rest) =
      readItems size (frame.add (.lit literal)) outer rest := by
  rw [readItems.eq_def]
  cases hl : token.lexeme with
  | identifier word =>
    have hword : keyword? word = some literal := by rwa [hl] at h
    simp only [hl, hword]
  | symbol value | string value | int value | float value =>
    rw [hl] at h
    cases h
    simp only [hl]
  | opening | closing | faulty fault =>
    rw [hl] at h
    cases h

/-- A parenthesis opens a frame around what its type is read from. -/
theorem readItems_opening (h : token.lexeme = .opening) :
    readItems size frame outer (token :: rest) =
      (readItems size (Header.read size token.range rest).frame (frame :: outer)
        (Header.read size token.range rest).rest).after
          (Header.read size token.range rest).diagnostics := by
  rw [readItems.eq_def]
  simp only [h]

/-- A closing parenthesis ends the lowest frame. -/
theorem readItems_closing_nil (h : token.lexeme = .closing) :
    readItems size frame [] (token :: rest) = ⟨frame.close, rest, []⟩ := by
  rw [readItems.eq_def]
  simp only [h]

/-- A closing parenthesis hands the innermost node to the frame around it. -/
theorem readItems_closing_cons {parent : Frame} (h : token.lexeme = .closing) :
    readItems size frame (parent :: outer) (token :: rest) =
      readItems size (parent.add (.ofNode? frame.close)) outer rest := by
  rw [readItems.eq_def]
  simp only [h]

/-- A word that is no leaf is reported and dropped. -/
theorem readItems_stray {word : String} (h : token.lexeme = .identifier word)
    (hleaf : token.lexeme.leaf? = none) :
    readItems size frame outer (token :: rest) =
      (readItems size frame outer rest).after
        [.error .unexpectedToken token.range (some (quotedString token.text))] := by
  have hword : keyword? word = none := by rwa [h] at hleaf
  rw [readItems.eq_def]
  simp only [h, hword]

/-- A word that names a type is the whole header. -/
theorem Header.read_identifier {word : String} (opening : Range)
    (h : token.lexeme = .identifier word) :
    Header.read size opening (token :: rest) =
      ⟨⟨opening, some (typeNamed word), []⟩, rest, []⟩ := by
  simp only [Header.read, h]

/-- A header without a report is a word that names the type. -/
theorem Header.read_eq_of_diagnostics {opening : Range} {tokens : List Token}
    (h : (Header.read size opening tokens).diagnostics = []) :
    ∃ token word rest, tokens = token :: rest ∧ token.lexeme = .identifier word := by
  unfold Header.read at h
  split at h
  · simp at h
  · next token rest =>
    split at h
    · next word hword => exact ⟨token, word, rest, rfl, hword⟩
    · simp at h

/-! ## What the grammar derives is read -/

mutual

/-- A spelled node is added to the innermost frame. -/
theorem readItems_spellsNode {lexemes : List Lexeme} {node : Node Unit}
    (h : SpellsNode lexemes node) (tokens rest : List Token)
    (htokens : tokens.map Token.lexeme = lexemes) (frame : Frame) (outer : List Frame) :
    readItems size frame outer (tokens ++ rest) =
      readItems size (frame.add (.node node)) outer rest := by
  cases h with
  | @node word type items children htype hitems =>
    rcases List.map_eq_cons_iff.1 htokens with ⟨opening, tokens, rfl, hopening, htokens⟩
    rcases List.map_eq_cons_iff.1 htokens with ⟨name, tokens, rfl, hname, htokens⟩
    rcases List.map_eq_append_iff.1 htokens with ⟨inside, last, rfl, hinside, hlast⟩
    rcases List.map_eq_singleton_iff.1 hlast with ⟨closing, rfl, hclosing⟩
    simp only [List.cons_append, List.append_assoc, List.nil_append]
    rw [readItems_opening hopening, Header.read_identifier _ hname, Reading.after_nil,
      readItems_spellsItems hitems inside _ hinside, readItems_closing_cons hclosing,
      Frame.foldl_add]
    simp [Frame.close, Value.ofNode?, typeNamed_eq_iff.2 htype]

/-- Spelled items are added to the innermost frame in their order. -/
theorem readItems_spellsItems {lexemes : List Lexeme} {values : List (Value Unit)}
    (h : SpellsItems lexemes values) (tokens rest : List Token)
    (htokens : tokens.map Token.lexeme = lexemes) (frame : Frame) (outer : List Frame) :
    readItems size frame outer (tokens ++ rest) =
      readItems size (values.foldl Frame.add frame) outer rest := by
  cases h with
  | nil =>
    rw [List.map_eq_nil_iff.1 htokens]
    rfl
  | cons hitem hitems =>
    rcases List.map_eq_append_iff.1 htokens with ⟨first, others, rfl, hfirst, hothers⟩
    rw [List.append_assoc, readItems_spellsItem hitem first _ hfirst,
      readItems_spellsItems hitems others _ hothers, List.foldl_cons]

/-- A spelled item is added to the innermost frame. -/
theorem readItems_spellsItem {lexemes : List Lexeme} {value : Value Unit}
    (h : SpellsItem lexemes value) (tokens rest : List Token)
    (htokens : tokens.map Token.lexeme = lexemes) (frame : Frame) (outer : List Frame) :
    readItems size frame outer (tokens ++ rest) =
      readItems size (frame.add value) outer rest := by
  cases h with
  | node hnode => exact readItems_spellsNode hnode tokens rest htokens frame outer
  | absent | yes | no | symbol | string | int | float =>
    rcases List.map_eq_singleton_iff.1 htokens with ⟨token, rfl, htoken⟩
    exact readItems_leaf (by rw [htoken]; rfl)

end

/-! ## What is read without a report is derived -/

/-- A lexeme that is neither a leaf nor a parenthesis is a stray word or no lexeme. -/
theorem Lexeme.eq_of_leaf?_eq_none {lexeme : Lexeme} (h : lexeme.leaf? = none) :
    lexeme = .opening ∨ lexeme = .closing ∨ (∃ word, lexeme = .identifier word) ∨
      ∃ fault, lexeme = .faulty fault := by
  cases lexeme with
  | opening => exact .inl rfl
  | closing => exact .inr (.inl rfl)
  | identifier word => exact .inr (.inr (.inl ⟨word, rfl⟩))
  | faulty fault => exact .inr (.inr (.inr ⟨fault, rfl⟩))
  | symbol | string | int | float => cases h

/-- Where nothing is reported, the innermost frame is closed behind spelled items.  The induction
is on the number of tokens: behind a nested node, the items of the frame go on. -/
theorem exists_spellsItems {tokens : List Token} {frame : Frame} {outer : List Frame}
    (hsound : ∀ token ∈ tokens, ∀ fault, token.lexeme ≠ .faulty fault)
    (h : (readItems size frame outer tokens).diagnostics = []) :
    ∃ items closing rest values, tokens = items ++ closing :: rest ∧
      closing.lexeme = .closing ∧ SpellsItems (items.map Token.lexeme) values := by
  induction hn : tokens.length using Nat.strongRecOn generalizing tokens frame outer with
  | ind n ih =>
    subst hn
    cases tokens with
    | nil => simp [readItems] at h
    | cons token tokens =>
      have htail : ∀ t ∈ tokens, ∀ fault, t.lexeme ≠ .faulty fault :=
        fun t ht => hsound t (List.mem_cons_of_mem token ht)
      cases hleaf : token.lexeme.leaf? with
      | some literal =>
        rw [readItems_leaf hleaf] at h
        obtain ⟨items, closing, rest, values, rfl, hclosing, hitems⟩ :=
          ih _ (by simp) htail h rfl
        exact ⟨token :: items, closing, rest, .lit literal :: values, rfl, hclosing,
          .cons (.of_leaf hleaf) hitems⟩
      | none =>
        rcases Lexeme.eq_of_leaf?_eq_none hleaf with ho | hc | ⟨word, hw⟩ | ⟨fault, hf⟩
        · rw [readItems_opening ho] at h
          rcases List.append_eq_nil_iff.1 h with ⟨hheader, hinside⟩
          rcases Header.read_eq_of_diagnostics hheader with ⟨name, word, tokens, rfl, hname⟩
          rw [Header.read_identifier _ hname] at hinside
          have hinner : ∀ t ∈ tokens, ∀ fault, t.lexeme ≠ .faulty fault :=
            fun t ht => htail t (List.mem_cons_of_mem name ht)
          obtain ⟨inside, closing, rest, children, rfl, hclosing, hitems⟩ :=
            ih _ (by simp only [List.length_cons]; omega) hinner hinside rfl
          have hnode : SpellsNode ((token :: name :: (inside ++ [closing])).map Token.lexeme)
              ⟨(), typeNamed word, children⟩ := by
            simp only [List.map_cons, List.map_append, List.map_nil, ho, hname, hclosing]
            exact .node (typeNamed_eq_iff.1 rfl) hitems
          rw [readItems_spellsItems hitems inside _ rfl, readItems_closing_cons hclosing] at hinside
          have hrest : ∀ t ∈ rest, ∀ fault, t.lexeme ≠ .faulty fault :=
            fun t ht => hinner t (by simp [ht])
          obtain ⟨items, last, rest, values, rfl, hlast, hmore⟩ :=
            ih _ (by simp; omega) hrest hinside rfl
          refine ⟨token :: name :: (inside ++ [closing]) ++ items, last, rest,
            .node ⟨(), typeNamed word, children⟩ :: values, by simp, hlast, ?_⟩
          rw [List.map_append]
          exact .cons (.node hnode) hmore
        · exact ⟨[], token, tokens, [], rfl, hc, .nil⟩
        · rw [readItems_stray hw hleaf] at h
          cases h
        · exact absurd hf (hsound token List.mem_cons_self fault)

/-! ## Whole nodes -/

/-- A derived node is read as it is, with no report, up to its closing parenthesis. -/
theorem readNode_spellsNode {front : List Token} {node : Node Unit}
    (h : SpellsNode (front.map Token.lexeme) node) (rest : List Token) :
    readNode size (front ++ rest) = ⟨some node, rest, []⟩ := by
  generalize hfront : front.map Token.lexeme = lexemes at h
  cases h with
  | @node word type items children htype hitems =>
    rcases List.map_eq_cons_iff.1 hfront with ⟨opening, front, rfl, hopening, hfront⟩
    rcases List.map_eq_cons_iff.1 hfront with ⟨name, front, rfl, hname, hfront⟩
    rcases List.map_eq_append_iff.1 hfront with ⟨inside, last, rfl, hinside, hlast⟩
    rcases List.map_eq_singleton_iff.1 hlast with ⟨closing, rfl, hclosing⟩
    simp only [List.cons_append, List.append_assoc, List.nil_append]
    rw [readNode, List.tail_cons, Header.read_identifier _ hname, Reading.after_nil,
      readItems_spellsItems hitems inside _ hinside, readItems_closing_nil hclosing,
      Frame.foldl_add]
    simp [Frame.close, typeNamed_eq_iff.2 htype]

/-- Where a node is read without a report, the grammar derives one from the same tokens. -/
theorem exists_spellsNode {tokens : List Token} {opening : Token}
    (hopening : opening.lexeme = .opening)
    (hsound : ∀ token ∈ tokens, ∀ fault, token.lexeme ≠ .faulty fault)
    (h : (readNode size (opening :: tokens)).diagnostics = []) :
    ∃ front node, front <+: opening :: tokens ∧ SpellsNode (front.map Token.lexeme) node := by
  rcases List.append_eq_nil_iff.1 h with ⟨hheader, hinside⟩
  rcases Header.read_eq_of_diagnostics hheader with ⟨name, word, tokens, rfl, hname⟩
  rw [List.tail_cons, Header.read_identifier _ hname] at hinside
  obtain ⟨items, closing, rest, children, rfl, hclosing, hitems⟩ :=
    exists_spellsItems (fun t ht => hsound t (List.mem_cons_of_mem name ht)) hinside
  refine ⟨opening :: name :: (items ++ [closing]), ⟨(), typeNamed word, children⟩,
    ⟨rest, by simp⟩, ?_⟩
  simp only [List.map_cons, List.map_append, List.map_nil, hopening, hname, hclosing]
  exact .node (typeNamed_eq_iff.1 rfl) hitems

/-- At most one prefix of some tokens is derived, and from one tree only. -/
theorem SpellsNode.unique {tokens front other : List Token} {node tree : Node Unit}
    (hfront : front <+: tokens) (h : SpellsNode (front.map Token.lexeme) node)
    (hother : other <+: tokens) (h' : SpellsNode (other.map Token.lexeme) tree) :
    other = front ∧ tree = node := by
  rcases hfront with ⟨rest, rfl⟩
  rcases hother with ⟨rest', hrest'⟩
  have hread : readNode 0 (other ++ rest') = ⟨some tree, rest', []⟩ := readNode_spellsNode h' rest'
  rw [hrest', readNode_spellsNode h rest] at hread
  simp only [Reading.mk.injEq, Option.some.injEq, and_true] at hread
  rcases hread with ⟨rfl, rfl⟩
  exact ⟨List.append_cancel_right hrest', rfl⟩

/-! ## Whole texts -/

/-- A derived node starts with its parenthesis. -/
theorem SpellsNode.head?_eq {lexemes : List Lexeme} {node : Node Unit}
    (h : SpellsNode lexemes node) : lexemes.head? = some .opening := by
  cases h
  rfl

/-- Tokens that are one derived node are read as the root. -/
theorem readRoot_spellsNode {tokens : List Token} {node : Node Unit}
    (h : SpellsNode (tokens.map Token.lexeme) node) :
    readRoot size tokens = ⟨some node, [], []⟩ := by
  have hread : readNode size (tokens ++ []) = ⟨some node, [], []⟩ := readNode_spellsNode h []
  rw [List.append_nil] at hread
  have hopening : tokens.head?.map Token.lexeme = some .opening := by
    rw [← List.head?_map, h.head?_eq]
  rw [readRoot, if_pos hopening]
  simp only [hread]

/-- A root is read without a report only from tokens that are one derived node. -/
theorem exists_spellsNode_of_readRoot {tokens : List Token}
    (hsound : ∀ token ∈ tokens, ∀ fault, token.lexeme ≠ .faulty fault)
    (h : (readRoot size tokens).diagnostics = []) :
    ∃ node, SpellsNode (tokens.map Token.lexeme) node := by
  unfold readRoot at h
  split at h
  · next hhead =>
    rcases Option.map_eq_some_iff.1 hhead with ⟨opening, hsome, hopening⟩
    rcases List.head?_eq_some_iff.1 hsome with ⟨tokens, rfl⟩
    simp only at h
    split at h
    · next hrest =>
      obtain ⟨front, node, ⟨rest, heq⟩, hnode⟩ := exists_spellsNode hopening
        (fun t ht => hsound t (List.mem_cons_of_mem opening ht)) h
      rw [← heq, readNode_spellsNode hnode rest] at hrest
      have hnil : rest = [] := hrest
      have hall : front = opening :: tokens := by rw [← heq, hnil, List.append_nil]
      exact ⟨node, hall ▸ hnode⟩
    · simp at h
  · simp at h

/-- Tokens without a report are lexemes. -/
theorem Tokens.diagnostics_eq_nil_iff {tokens : Tokens} :
    tokens.diagnostics = [] ↔ ∀ token ∈ tokens.toList, ∀ fault, token.lexeme ≠ .faulty fault := by
  rw [Tokens.diagnostics, List.filterMap_eq_nil_iff]
  apply forall₂_congr
  intro token _
  cases h : token.lexeme <;> simp [Token.diagnostic?, h]

/-- A text is read as a node exactly when its tokens are lexemes that spell the node. -/
theorem ofText_eq_ok_iff {text : String} {node : Node Unit} :
    Node.ofText text = .ok node ↔
      ∃ tokens, Tokens.ofText text = .ok tokens ∧
        (∀ token ∈ tokens.toList, ∀ fault, token.lexeme ≠ .faulty fault) ∧
        SpellsNode (tokens.toList.map Token.lexeme) node := by
  unfold Node.ofText
  cases htext : Tokens.ofText text with
  | error cause => simp
  | ok tokens =>
    constructor
    · intro h
      simp only at h
      split at h
      · next root hroot hreports =>
        rcases List.append_eq_nil_iff.1 hreports with ⟨hlexer, hreader⟩
        have hsound := Tokens.diagnostics_eq_nil_iff.1 hlexer
        rcases exists_spellsNode_of_readRoot hsound hreader with ⟨tree, htree⟩
        rw [readRoot_spellsNode htree] at hroot
        cases hroot
        cases h
        exact ⟨tokens, rfl, hsound, htree⟩
      · cases h
    · rintro ⟨_, ⟨⟩, hsound, hnode⟩
      simp only [readRoot_spellsNode hnode, Tokens.diagnostics_eq_nil_iff.2 hsound,
        List.append_nil]

/-- The reader accepts exactly the grammar.  Among tokens without a faulty one, and from a
parenthesis on, a node is read without a report exactly when a prefix is derived; the prefix and
its tree are unique, the tree is what is read, and reading stops behind the prefix.  A text is
read as a node exactly when its tokens are all lexemes and spell that node. -/
theorem reading_accepts_grammar :
    (∀ (size : Nat) (tokens : List Token) (place : Nat),
      (∀ token ∈ tokens, ∀ fault, token.lexeme ≠ .faulty fault) →
      tokens[place]?.map Token.lexeme = some .opening →
      ((readNode size (tokens.drop place)).diagnostics = [] ↔
        ∃ front node, front <+: tokens.drop place ∧ SpellsNode (front.map Token.lexeme) node) ∧
      ∀ front node, front <+: tokens.drop place → SpellsNode (front.map Token.lexeme) node →
        readNode size (tokens.drop place) =
            ⟨some node, tokens.drop (place + front.length), []⟩ ∧
          ∀ other tree, other <+: tokens.drop place →
            SpellsNode (other.map Token.lexeme) tree → other = front ∧ tree = node) ∧
    ∀ (text : String) (node : Node Unit),
      Node.ofText text = .ok node ↔
        ∃ tokens, Tokens.ofText text = .ok tokens ∧
          (∀ token ∈ tokens.toList, ∀ fault, token.lexeme ≠ .faulty fault) ∧
          SpellsNode (tokens.toList.map Token.lexeme) node := by
  refine ⟨?_, fun text node => ofText_eq_ok_iff⟩
  intro size tokens place hsound hplace
  have hread : ∀ front node, front <+: tokens.drop place →
      SpellsNode (front.map Token.lexeme) node →
      readNode size (tokens.drop place) =
        ⟨some node, tokens.drop (place + front.length), []⟩ := by
    rintro front node ⟨rest, hrest⟩ hnode
    rw [← hrest, readNode_spellsNode hnode rest, ← List.drop_drop, ← hrest, List.drop_left]
  refine ⟨⟨?_, ?_⟩, ?_⟩
  · intro h
    rcases Option.map_eq_some_iff.1 hplace with ⟨opening, hopening, hlexeme⟩
    have hdrop : tokens.drop place = opening :: tokens.drop (place + 1) :=
      List.drop_eq_getElem?_toList_append.trans (by rw [hopening]; rfl)
    rw [hdrop] at h ⊢
    exact exists_spellsNode hlexeme (fun t ht => hsound t (List.mem_of_mem_drop ht)) h
  · rintro ⟨front, node, hfront, hnode⟩
    rw [hread front node hfront hnode]
  · intro front node hfront hnode
    exact ⟨hread front node hfront hnode,
      fun other tree hother htree => SpellsNode.unique hfront hnode hother htree⟩

/-- Behind a stray parenthesis and before another one, the node between them is read. -/
theorem reading_accepts_grammar_between_strays :
    let tokens : List Token :=
      [.over 0 [')'] .closing, .over 1 ['('] .opening,
        .over 2 "op-asgn".toList (.identifier "op-asgn"), .over 10 ['1'] (.int 1),
        .over 12 "nil".toList (.identifier "nil"), .over 15 [')'] .closing,
        .over 16 [')'] .closing]
    (∀ token ∈ tokens, ∀ fault, token.lexeme ≠ .faulty fault) ∧
      tokens[1]?.map Token.lexeme = some .opening ∧
      readNode 17 (tokens.drop 1) =
        ⟨some ⟨(), .known .opAsgn, [.lit (.int 1), .lit .nil]⟩, tokens.drop 6, []⟩ := by
  intro tokens
  have hsound : ∀ token ∈ tokens, ∀ fault, token.lexeme ≠ .faulty fault := by
    simp [tokens, Token.over]
  have hitems : SpellsItems [.int 1, .identifier "nil"] [.lit (.int 1), .lit .nil] :=
    .cons (.int 1) (.cons .absent .nil)
  have htype : (NodeType.known .opAsgn).name.toList =
      "op-asgn".toList.map fun c => if c = '-' then '_' else c := by decide +kernel
  have hnode : SpellsNode (((tokens.drop 1).take 5).map Token.lexeme)
      ⟨(), .known .opAsgn, [.lit (.int 1), .lit .nil]⟩ := .node htype hitems
  exact ⟨hsound, rfl, ((reading_accepts_grammar.1 17 tokens 1 hsound rfl).2 _ _
    (List.take_prefix 5 _) hnode).1⟩

end RubyTree.Sexp
