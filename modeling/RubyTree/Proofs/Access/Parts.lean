import Mathlib.Data.List.Forall2
import RubyTree.Access.Property

/-!
# Parts of the children

Some families of nodes are read in parts: a call is its receiver, its message and its arguments, a
case its expression, its branches and what stands behind the last of them.  Put together in order,
the parts are all children, each of them once, as soon as there are as many children as parts that
stand for one child; a shorter list is read with an absent or a repeated child.  The pairs and the
double splats of a hash are picked from its children and need not be all of them.

Main results:

- `Node.IsCutInto` says that parts put together are the children of a node.
- `Node.isCutInto_ends` is the family of nodes with branches between two single children.
- `map_node_filter_hasKind`: the nodes of a kind are picked in order.
- `Node.parts_are_children` puts this together for all families.
-/

namespace RubyTree

variable {α : Type}

/-! ## Parts -/

/-- A part of the children of a node, by the property that reads it. -/
inductive Part where
  /-- A single child. -/
  | one (property : Property)
  /-- Any number of children in a row. -/
  | row (property : Property)

/-- The part is a single child. -/
def Part.isOne : Part → Bool
  | .one _ => true
  | .row _ => false

/-- The children of a node that a part gives. -/
inductive Part.Gives (node : Node α) : Part → List (Value α) → Prop
  /-- The child that the property answers. -/
  | one {property : Property} {child : Value α} (h : property.read node = .ok child) :
      Gives node (.one property) [child]
  /-- The list that the property answers. -/
  | row {property : Property} {children : List (Value α)}
      (h : property.read node = .ok (.list children)) : Gives node (.row property) children

/-- The parts, put together in order, are the children of the node. -/
def Node.IsCutInto (node : Node α) (parts : List Part) : Prop :=
  ∃ groups, List.Forall₂ (Part.Gives node) parts groups ∧ groups.flatten = node.children

namespace Node

variable {node : Node α}

/-- Parts give at least the single children among them. -/
theorem countP_isOne_le {parts : List Part} {groups : List (List (Value α))}
    (h : List.Forall₂ (Part.Gives node) parts groups) :
    parts.countP Part.isOne ≤ groups.flatten.length := by
  induction h with
  | nil => exact Nat.le_refl _
  | cons hpart hrest ih =>
    rw [List.flatten_cons, List.length_append, List.countP_cons]
    cases hpart with
    | one h =>
      rw [List.length_singleton, Part.isOne, if_pos rfl]
      omega
    | row h =>
      rw [Part.isOne, if_neg Bool.false_ne_true]
      omega

/-- Parts whose children are those of the node, as soon as it has one for each single part, cut it
exactly then. -/
theorem isCutInto_iff {parts : List Part} {groups : List (List (Value α))}
    (hgroups : List.Forall₂ (Part.Gives node) parts groups)
    (hchildren : parts.countP Part.isOne ≤ node.children.length →
      groups.flatten = node.children) :
    node.IsCutInto parts ↔ parts.countP Part.isOne ≤ node.children.length := by
  constructor
  · rintro ⟨others, hothers, hothersChildren⟩
    rw [← hothersChildren]
    exact countP_isOne_le hothers
  · intro h
    exact ⟨groups, hgroups, hchildren h⟩

/-! ## Children at the ends -/

theorem child_zero_cons (h : 1 ≤ node.children.length) :
    node.child 0 :: node.children.drop 1 = node.children := by
  rcases node with ⟨mark, type, children⟩
  cases children with
  | nil => cases h
  | cons first rest => rfl

theorem child_one_cons (h : 2 ≤ node.children.length) :
    node.child 1 :: node.children.drop 2 = node.children.drop 1 := by
  rcases node with ⟨mark, type, children⟩
  match children with
  | [] => cases h
  | [_] => exact absurd h (by simp)
  | _ :: _ :: _ => rfl

/-- What stands behind some children ends with the last child. -/
theorem dropLast_drop_append (count : Nat) (h : count < node.children.length) :
    (node.children.drop count).dropLast ++ [node.elseStatement] = node.children.drop count := by
  have hne : node.children.drop count ≠ [] := by
    intro hnil
    rw [List.drop_eq_nil_iff] at hnil
    omega
  have hlast : node.elseStatement = (node.children.drop count).getLast hne := by
    rw [elseStatement, List.getLast_drop, List.getLast?_eq_some_getLast, Option.getD_some]
  rw [hlast]
  exact List.dropLast_append_getLast hne

/-- Children with others between them are the first one, the inner ones and the last one. -/
theorem child_zero_cons_inner (h : 2 ≤ node.children.length) :
    node.child 0 :: (node.inner ++ [node.elseStatement]) = node.children := by
  rw [inner, dropLast_drop_append 1 (by omega), child_zero_cons (by omega)]

/-! ## Families -/

/-- A node with branches between two single children is cut into these parts from two children
on. -/
theorem isCutInto_ends {front branches : Property} (hfront : front.read node = .ok (node.child 0))
    (hbranches : branches.read node = .ok (.list node.inner)) :
    node.IsCutInto [.one front, .row branches, .one (.derived .elseStatement)] ↔
      2 ≤ node.children.length := by
  refine isCutInto_iff (.cons (.one hfront) (.cons (.row hbranches) (.cons (.one rfl) .nil))) ?_
  intro h
  exact child_zero_cons_inner h

/-- A node whose first child stands apart is cut into these parts from one child on. -/
theorem isCutInto_front {front behind : Property} (hfront : front.read node = .ok (node.child 0))
    (hbehind : behind.read node = .ok (.list (node.children.drop 1))) :
    node.IsCutInto [.one front, .row behind] ↔ 1 ≤ node.children.length := by
  refine isCutInto_iff (.cons (.one hfront) (.cons (.row hbehind) .nil)) ?_
  intro h
  rw [List.flatten_cons, List.flatten_singleton]
  exact child_zero_cons h

/-- A node whose last child stands apart is cut into these parts from one child on. -/
theorem isCutInto_last {front last : Property}
    (hfront : front.read node = .ok (.list node.children.dropLast))
    (hlast : last.read node = .ok node.elseStatement) :
    node.IsCutInto [.row front, .one last] ↔ 1 ≤ node.children.length := by
  refine isCutInto_iff (.cons (.row hfront) (.cons (.one hlast) .nil)) ?_
  intro h
  rw [List.flatten_cons, List.flatten_singleton]
  exact dropLast_drop_append 0 h

/-- A call is cut into its receiver, its message and its arguments from two children on. -/
theorem isCutInto_call (hreceiver : node.slot .receiver = .ok (node.child 0))
    (hmessage : node.slot .message = .ok (node.child 1))
    (harguments : node.arguments = .ok (node.children.drop 2)) :
    node.IsCutInto [.one (.slot .receiver), .one (.slot .message), .row (.derived .arguments)] ↔
      2 ≤ node.children.length := by
  have hread : (Property.derived .arguments).read node = .ok (.list (node.children.drop 2)) := by
    rw [Property.read, Derived.read, harguments]
    rfl
  refine isCutInto_iff (.cons (.one hreceiver) (.cons (.one hmessage) (.cons (.row hread) .nil))) ?_
  intro h
  have hlength : 2 ≤ node.children.length := h
  rw [List.flatten_cons, List.flatten_cons, List.flatten_singleton]
  calc node.child 0 :: node.child 1 :: node.children.drop 2
      = node.child 0 :: node.children.drop 1 := by rw [child_one_cons hlength]
    _ = node.children := child_zero_cons (by omega)

end Node

/-! ## Picked children -/

/-- The value is a node of a kind. -/
def Value.isOfKind (kind : Kind) : Value α → Bool
  | .node n => n.hasKind kind
  | _ => false

/-- The nodes of a kind among values are the values that are such nodes, in the same order. -/
theorem map_node_filter_hasKind (values : List (Value α)) (kind : Kind) :
    ((values.filterMap Value.node?).filter (·.hasKind kind)).map Value.node =
      values.filter (Value.isOfKind kind) := by
  induction values with
  | nil => rfl
  | cons value rest ih =>
    cases value with
    | lit literal => exact ih
    | list items => exact ih
    | node n =>
      have hfirst : (Value.node n :: rest).filterMap Value.node? =
          n :: rest.filterMap Value.node? := rfl
      rw [hfirst, List.filter_cons, List.filter_cons]
      by_cases h : n.hasKind kind = true
      · rw [if_pos h, if_pos (show (Value.node n).isOfKind kind = true from h), List.map_cons, ih]
      · rw [if_neg h, if_neg (show ¬ (Value.node n).isOfKind kind = true from h), ih]

/-- No value is a node of two kinds. -/
theorem Value.isOfKind_unique {value : Value α} {a b : Kind} (ha : value.isOfKind a = true)
    (hb : value.isOfKind b = true) : a = b := by
  cases value with
  | lit literal => cases ha
  | list items => cases ha
  | node n =>
    have htype : NodeType.known a = .known b :=
      (of_decide_eq_true ha).symm.trans (of_decide_eq_true hb)
    cases htype
    rfl

theorem countP_isOfKind_add {a b : Kind} (hne : a ≠ b) (values : List (Value α)) :
    values.countP (Value.isOfKind a) + values.countP (Value.isOfKind b) =
      values.countP fun value => value.isOfKind a || value.isOfKind b := by
  induction values with
  | nil => rfl
  | cons value rest ih =>
    rw [List.countP_cons, List.countP_cons, List.countP_cons, ← ih]
    by_cases ha : value.isOfKind a = true
    · have hb : ¬ value.isOfKind b = true := fun hb => hne (Value.isOfKind_unique ha hb)
      rw [if_pos ha, if_neg hb, if_pos (by rw [ha, Bool.true_or])]
      omega
    · rw [Bool.not_eq_true] at ha
      rw [ha, Bool.false_or, if_neg Bool.false_ne_true]
      omega

namespace Node

variable {node : Node α}

/-- Two lists of nodes are picked from the children, each of them in order and no position for
both. -/
def PicksApart (node : Node α) (some others : List (Node α)) : Prop :=
  ∃ placedSome placedOthers : List (Value α × Nat),
    placedSome.map Prod.fst = some.map Value.node ∧
    placedOthers.map Prod.fst = others.map Value.node ∧
    placedSome.Sublist node.children.zipIdx ∧ placedOthers.Sublist node.children.zipIdx ∧
    placedSome.Disjoint placedOthers

/-- The child nodes of a kind are the children at the positions of such nodes. -/
theorem map_fst_filter_zipIdx (node : Node α) (kind : Kind) :
    (node.children.zipIdx.filter fun placed => placed.1.isOfKind kind).map Prod.fst =
      (node.childNodesOf kind).map Value.node := by
  rw [childNodesOf, childNodes, map_node_filter_hasKind]
  conv_rhs => rw [← List.zipIdx_map_fst 0 node.children, List.filter_map]
  rfl

/-- The child nodes of two kinds are picked apart. -/
theorem picksApart_childNodesOf {a b : Kind} (hne : a ≠ b) :
    node.PicksApart (node.childNodesOf a) (node.childNodesOf b) := by
  refine ⟨_, _, map_fst_filter_zipIdx node a, map_fst_filter_zipIdx node b,
    List.filter_sublist, List.filter_sublist, ?_⟩
  intro placed ha hb
  exact hne (Value.isOfKind_unique (List.mem_filter.1 ha).2 (List.mem_filter.1 hb).2)

theorem length_childNodesOf (node : Node α) (kind : Kind) :
    (node.childNodesOf kind).length = node.children.countP (Value.isOfKind kind) := by
  rw [List.countP_eq_length_filter, ← map_node_filter_hasKind, List.length_map]
  rfl

/-- The child nodes of two kinds are as many as the children exactly if every child is one. -/
theorem length_childNodesOf_add {a b : Kind} (hne : a ≠ b) :
    (node.childNodesOf a).length + (node.childNodesOf b).length = node.children.length ↔
      ∀ child ∈ node.children, child.isOfKind a = true ∨ child.isOfKind b = true := by
  rw [length_childNodesOf, length_childNodesOf, countP_isOfKind_add hne, List.countP_eq_length]
  simp only [Bool.or_eq_true]

end Node

/-! ## All families -/

/-- Derived properties lose no child and repeat none.  A call from two children on is its receiver,
its message and its arguments; a case, a pattern match and a body with rescue clauses, each from two
children on, are the child in front, the branches and the last child; a body with an ensure clause,
from one child on, is the child in front and those behind it; a regular expression, from one child
on, is its elements and its options.  With fewer children, a child is repeated or an absent one is
read.  The pairs and the double splats of a hash are picked from the children in order and at
different positions, and they are as many as the children exactly if every child is one of them. -/
theorem Node.parts_are_children (node : Node α) :
    (node.type = .known .send ∨ node.type = .known .csend →
      (node.IsCutInto [.one (.slot .receiver), .one (.slot .message), .row (.derived .arguments)] ↔
        2 ≤ node.children.length)) ∧
    (node.type = .known .case →
      (node.IsCutInto [.one (.slot .expression), .row (.derived .whenStatements),
          .one (.derived .elseStatement)] ↔ 2 ≤ node.children.length)) ∧
    (node.type = .known .caseMatch →
      (node.IsCutInto [.one (.slot .expression), .row (.derived .inStatements),
          .one (.derived .elseStatement)] ↔ 2 ≤ node.children.length)) ∧
    (node.type = .known .rescue →
      (node.IsCutInto [.one (.slot .body), .row (.derived .rescueBodies),
          .one (.derived .elseStatement)] ↔ 2 ≤ node.children.length)) ∧
    (node.type = .known .ensure →
      (node.IsCutInto [.one (.slot .body), .row (.derived .ensureBody)] ↔
        1 ≤ node.children.length)) ∧
    (node.type = .known .regexp →
      (node.IsCutInto [.row (.derived .elements), .one (.derived .options)] ↔
        1 ≤ node.children.length)) ∧
    (node.type = .known .hash ∨ node.type = .known .hashPattern →
      ∃ pairs kwsplats, node.pairs = .ok pairs ∧ node.kwsplats = .ok kwsplats ∧
        node.PicksApart pairs kwsplats ∧
        (pairs.length + kwsplats.length = node.children.length ↔
          ∀ child ∈ node.children,
            child.isOfKind .pair = true ∨ child.isOfKind .kwsplat = true)) := by
  rcases node with ⟨mark, type, children⟩
  refine ⟨?_, ?_, ?_, ?_, ?_, ?_, ?_⟩
  · rintro (rfl | rfl)
    · exact Node.isCutInto_call rfl rfl rfl
    · exact Node.isCutInto_call rfl rfl rfl
  · rintro rfl
    exact Node.isCutInto_ends rfl rfl
  · rintro rfl
    exact Node.isCutInto_ends rfl rfl
  · rintro rfl
    exact Node.isCutInto_ends rfl rfl
  · rintro rfl
    exact Node.isCutInto_front rfl rfl
  · rintro rfl
    exact Node.isCutInto_last rfl rfl
  · intro htype
    have hhash : Node.isHash type = true := by
      rcases htype with rfl | rfl <;> rfl
    refine ⟨_, _, if_pos hhash, if_pos hhash, ?_, ?_⟩
    · exact Node.picksApart_childNodesOf (by decide)
    · exact Node.length_childNodesOf_add (by decide)

/-- A body with two clauses that look the same, and a hash with a literal between its pairs. -/
theorem Node.parts_are_children_twins :
    let clause : Node Unit := ⟨(), .known .resbody, [.lit .nil]⟩
    let body : Node Unit := ⟨(), .known .rescue,
      [.lit .nil, .node clause, .node clause, .lit (.int 1)]⟩
    let pair : Node Unit := ⟨(), .known .pair, []⟩
    let splat : Node Unit := ⟨(), .known .kwsplat, []⟩
    let hash : Node Unit := ⟨(), .known .hash,
      [.node pair, .lit (.int 1), .node splat, .node pair]⟩
    body.type = .known .rescue ∧ 2 ≤ body.children.length ∧
      body.IsCutInto [.one (.slot .body), .row (.derived .rescueBodies),
        .one (.derived .elseStatement)] ∧
      hash.type = .known .hash ∧
      ∃ pairs kwsplats, hash.pairs = .ok pairs ∧ hash.kwsplats = .ok kwsplats ∧
        hash.PicksApart pairs kwsplats ∧
        pairs.length + kwsplats.length ≠ hash.children.length := by
  intro clause body pair splat hash
  rcases Node.parts_are_children body with ⟨-, -, -, hrescue, -⟩
  rcases Node.parts_are_children hash with ⟨-, -, -, -, -, -, hpicked⟩
  rcases hpicked (.inl rfl) with ⟨pairs, kwsplats, hpairs, hkwsplats, hapart, hlengths⟩
  have hlength : 2 ≤ body.children.length := by decide
  refine ⟨rfl, hlength, (hrescue rfl).2 hlength, rfl, pairs, kwsplats, hpairs, hkwsplats, hapart,
    fun hcount => ?_⟩
  have hliteral := hlengths.1 hcount (.lit (.int 1)) (by simp [hash])
  rcases hliteral with h | h <;> cases h

end RubyTree
