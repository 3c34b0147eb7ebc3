import RubyTree.Proofs.Sexp.Grammar
import RubyTree.Proofs.Sexp.Tiling

/-!
# Nodes and their parentheses

In the tokens of a text that was read, every node stands between two parentheses.  Here
the nodes of a tree carry the range of the one that opens them, beside whatever else
they are marked with.

Main results:

- `OpensNode` says that each node of a tree carries the range of its parenthesis.
- `SpellsNode.exists_opensNode`: the nodes of any tree that the grammar derives can.
- `OpensNode.ranges`: in pre-order, the nodes have the opening parentheses in the order
  of the tokens.
- `pairwise_start`: the tokens of a text start one behind the other.
-/

namespace RubyTree.Sexp

open RubyTree.Text

variable {α : Type}

/-! ## Places of nodes -/

mutual

/-- The tokens stand for the node, which carries the range of its opening parenthesis, as do all
nodes below it. -/
inductive OpensNode : List Token → Node (α × Range) → Prop
  /-- The word of a type and the children, between two parentheses. -/
  | node {opening name closing : Token} {word : String} {items : List Token} {mark : α}
      {type : NodeType} {children : List (Value (α × Range))} (hopening : opening.lexeme = .opening)
      (hname : name.lexeme = .identifier word)
      (htype : type.name.toList = word.toList.map fun c => if c = '-' then '_' else c)
      (hitems : OpensItems items children) (hclosing : closing.lexeme = .closing) :
      OpensNode (opening :: name :: (items ++ [closing])) ⟨(mark, opening.range), type, children⟩

/-- The tokens stand for the values one after the other, whose nodes carry the ranges of their
opening parentheses. -/
inductive OpensItems : List Token → List (Value (α × Range)) → Prop
  /-- No tokens stand for no values. -/
  | nil : OpensItems [] []
  /-- One more node in front. -/
  | node {front rest : List Token} {node : Node (α × Range)} {values : List (Value (α × Range))}
      (hnode : OpensNode front node) (hrest : OpensItems rest values) :
      OpensItems (front ++ rest) (.node node :: values)
  /-- One more literal in front, which is a single token. -/
  | leaf {token : Token} {rest : List Token} {literal : Literal}
      {values : List (Value (α × Range))} (hleaf : token.lexeme.leaf? = some literal)
      (hrest : OpensItems rest values) : OpensItems (token :: rest) (.lit literal :: values)

end

mutual

/-- A derived tree, with any marks, can carry the ranges of its parentheses. -/
theorem SpellsNode.exists_opensNode {lexemes : List Lexeme} {tree : Node Unit}
    (h : SpellsNode lexemes tree) (tokens : List Token)
    (htokens : tokens.map Token.lexeme = lexemes) (root : Node α) (hroot : root.bare = tree) :
    ∃ placed : Node (α × Range), placed.map Prod.fst = root ∧ OpensNode tokens placed := by
  cases h with
  | @node word type items values htype hitems =>
    rcases List.map_eq_cons_iff.1 htokens with ⟨opening, tokens, rfl, hopening, htokens⟩
    rcases List.map_eq_cons_iff.1 htokens with ⟨name, tokens, rfl, hname, htokens⟩
    rcases List.map_eq_append_iff.1 htokens with ⟨inside, last, rfl, hinside, hlast⟩
    rcases List.map_eq_singleton_iff.1 hlast with ⟨closing, rfl, hclosing⟩
    rcases root with ⟨mark, kind, children⟩
    rw [Node.bare, Node.map, Node.mk.injEq] at hroot
    rcases hroot with ⟨-, rfl, hvalues⟩
    rcases hitems.exists_opensItems inside hinside children hvalues with
      ⟨placed, hplaced, hopens⟩
    refine ⟨⟨(mark, opening.range), kind, placed⟩, ?_, .node hopening hname htype hopens hclosing⟩
    rw [Node.map, hplaced]

theorem SpellsItems.exists_opensItems {lexemes : List Lexeme} {values : List (Value Unit)}
    (h : SpellsItems lexemes values) (tokens : List Token)
    (htokens : tokens.map Token.lexeme = lexemes) (children : List (Value α))
    (hchildren : Value.mapAll (fun _ => ()) children = values) :
    ∃ placed : List (Value (α × Range)),
      Value.mapAll Prod.fst placed = children ∧ OpensItems tokens placed := by
  cases h with
  | nil =>
    cases children with
    | nil =>
      rw [List.map_eq_nil_iff.1 htokens]
      exact ⟨[], rfl, .nil⟩
    | cons child rest => cases hchildren
  | @cons front back value values hitem hitems =>
    rcases List.map_eq_append_iff.1 htokens with ⟨first, others, rfl, hfirst, hothers⟩
    cases children with
    | nil => cases hchildren
    | cons child rest =>
      rcases List.cons.inj hchildren with ⟨rfl, hrest⟩
      rcases hitems.exists_opensItems others hothers rest hrest with ⟨placed, hplaced, hopens⟩
      cases child with
      | node node =>
        cases hitem with
        | node hnode =>
          rcases hnode.exists_opensNode first hfirst node rfl with ⟨inner, hinner, hopen⟩
          exact ⟨.node inner :: placed, by rw [Value.mapAll, Value.map, hinner, hplaced],
            .node hopen hopens⟩
      | lit literal =>
        rcases hitem.exists_leaf with ⟨lexeme, rfl, hleaf⟩
        rcases List.map_eq_singleton_iff.1 hfirst with ⟨token, rfl, rfl⟩
        exact ⟨.lit literal :: placed, by rw [Value.mapAll, Value.map, hplaced],
          .leaf hleaf hopens⟩
      | list items => cases hitem

end

/-! ## The order of parentheses -/

/-- The ranges of the opening parentheses. -/
def openings (tokens : List Token) : List Range :=
  (tokens.filter fun token => token.lexeme = .opening).map Token.range

theorem openings_append (front rest : List Token) :
    openings (front ++ rest) = openings front ++ openings rest := by
  rw [openings, List.filter_append, List.map_append]
  rfl

theorem openings_opening {token : Token} {rest : List Token} (h : token.lexeme = .opening) :
    openings (token :: rest) = token.range :: openings rest := by
  simp [openings, h]

theorem openings_other {token : Token} {rest : List Token} (h : token.lexeme ≠ .opening) :
    openings (token :: rest) = openings rest := by
  simp [openings, h]

mutual

/-- In pre-order, the nodes of a tree have the opening parentheses in their order. -/
theorem OpensNode.ranges {tokens : List Token} {root : Node (α × Range)}
    (h : OpensNode tokens root) :
    (root :: root.descendants).map (fun node => node.mark.2) = openings tokens := by
  cases h with
  | node hopening hname htype hitems hclosing =>
    rw [List.map_cons, Node.descendants, hitems.ranges, openings_opening hopening,
      openings_other (by simp [hname]), openings_append, openings_other (by simp [hclosing])]
    exact congrArg _ (List.append_nil _).symm

theorem OpensItems.ranges {tokens : List Token} {values : List (Value (α × Range))}
    (h : OpensItems tokens values) :
    (Value.nodesAmong values).map (fun node => node.mark.2) = openings tokens := by
  cases h with
  | nil => rfl
  | node hnode hrest =>
    rw [Value.nodesAmong, List.map_append, hnode.ranges, hrest.ranges, openings_append]
  | leaf hleaf hrest =>
    rw [Value.nodesAmong, hrest.ranges, openings_other]
    intro hopening
    rw [hopening] at hleaf
    cases hleaf

end

/-- Tokens that are cut out of a text one behind the other start in their order. -/
theorem pairwise_start {text : List Char} {place : Nat} {tokens : List Token}
    (hcuts : ∀ front token back, tokens = front ++ token :: back →
      Cut text (stopOf place front) token back) :
    (∀ token ∈ tokens, place ≤ token.range.start) ∧
      tokens.Pairwise fun a b => a.range.start < b.range.start := by
  induction tokens generalizing place with
  | nil => simp
  | cons token rest ih =>
    have hcut : Cut text place token rest := hcuts [] token rest rfl
    have hstop := hcut.start_lt_stop
    have hle := hcut.place_le
    rcases ih fun front next back hrest => hcuts (token :: front) next back (by rw [hrest]; rfl) with
      ⟨hbehind, hpairwise⟩
    refine ⟨List.forall_mem_cons.2 ⟨hle, fun next hnext => ?_⟩,
      .cons (fun next hnext => ?_) hpairwise⟩
    · exact hle.trans (hstop.le.trans (hbehind next hnext))
    · exact hstop.trans_le (hbehind next hnext)

/-- The opening parentheses of a text start one behind the other. -/
theorem pairwise_openings {text : String} {tokens : Tokens} (h : Tokens.ofText text = .ok tokens) :
    (openings tokens.toList).Pairwise fun a b => a.start < b.start := by
  have hscans : Scans (.ofText text) tokens := scanFrom_eq_ok_iff.1 h
  rcases hscans.tiles (Cursor.ofText_in text) with ⟨-, hcuts, -⟩
  exact List.pairwise_map.2 ((pairwise_start hcuts).2.filter _)

end RubyTree.Sexp
