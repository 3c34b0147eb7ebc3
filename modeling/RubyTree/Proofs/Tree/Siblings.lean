import Mathlib.Order.Bounds.Defs
import RubyTree.Proofs.Tree.ReadTrees

/-!
# Siblings

The siblings of a node are looked for where its parent first lists the very node.  A parent that is
set by hand need not list the node at all, and then there is no such place.  In a tree that was read
every node stands at one place only, so that looking behind and looking before undo each other.

Main results:

- `Session.Relinked` are the sessions in which parents are also set by hand, and
  `Session.Relinked.isClosed` says that whatever they link is one of their nodes.
- `Forest.AnswersBeside` says what is seen from a place among the children of a parent.
- `Forest.LinksTree` is all that looking beside the nodes of a tree depends on;
  `Forest.LinksTree.of_nextSibling` and `Forest.LinksTree.of_prevSibling` are the two laws.
- `Session.Relinked.siblings_coherent` puts this together.
-/

namespace RubyTree

open RubyTree.Sexp

/-! ## What is seen from a place -/

/-- What the children of the parent are around a node at a position, and how the node is answered
about them. -/
structure Forest.AnswersBeside (forest : Forest) (node parent : TreeNode) (position : Nat)
    (behind : List TreeValue) : Prop where
  /-- The node stands between the children before it and those behind it. -/
  children_eq : parent.children = parent.children.take position ++ .node node :: behind
  /-- The siblings are those behind it. -/
  siblings_eq : forest.siblings node = .ok behind
  /-- The next one is the first of them, absent without any. -/
  nextSibling_eq : forest.nextSibling node = .ok (behind.head?.getD .nil)
  /-- Before the first child there is nothing. -/
  prevSibling_zero : position = 0 → forest.prevSibling node = .ok .nil
  /-- The previous one is the child before. -/
  prevSibling_pos : 0 < position → ∃ value, parent.children[position - 1]? = some value ∧
    forest.prevSibling node = .ok value

namespace Forest

variable {forest : Forest} {node parent : TreeNode} {i : Nat}

/-- A node that has a position is answered about the children around it. -/
theorem answersBeside_of_position (hparent : forest.parent? node = some parent)
    (hposition : position node parent = .ok i)
    (hi : parent.children[i]? = some (.node node)) :
    forest.AnswersBeside node parent i (parent.children.drop (i + 1)) := by
  rcases List.getElem?_eq_some_iff.1 hi with ⟨hlt, hget⟩
  have hdrop : parent.children.drop i = .node node :: parent.children.drop (i + 1) := by
    rw [List.drop_eq_getElem_cons hlt, hget]
  constructor
  · rw [← hdrop, List.take_append_drop]
  · simp only [siblings, hparent, hposition, Except.map]
  · rw [List.head?_drop]
    simp only [nextSibling, hparent, hposition, Except.map]
  · intro hzero
    simp only [prevSibling, hparent, hposition, Except.map, if_pos hzero]
  · intro hpos
    have hbefore : i - 1 < parent.children.length := by omega
    refine ⟨parent.children[i - 1], List.getElem?_eq_getElem hbefore, ?_⟩
    simp only [prevSibling, hparent, hposition, Except.map, if_neg (Nat.ne_of_gt hpos),
      List.getElem?_eq_getElem hbefore, Option.getD_some]

/-- A node that has no position is refused every answer. -/
theorem unlisted_of_position (hparent : forest.parent? node = some parent)
    (hposition : position node parent = .error (.unlisted node)) :
    forest.siblings node = .error (.unlisted node) ∧
      forest.nextSibling node = .error (.unlisted node) ∧
      forest.prevSibling node = .error (.unlisted node) := by
  simp [siblings, nextSibling, prevSibling, hparent, hposition, Except.map]

/-- A node without a parent has nothing beside it. -/
theorem beside_of_parent?_eq_none (h : forest.parent? node = none) :
    forest.siblings node = .error (.noParent node) ∧ forest.nextSibling node = .ok .nil ∧
      forest.prevSibling node = .ok .nil := by
  simp [siblings, nextSibling, prevSibling, h]

/-- Where no two nodes have the same number, only the very node is taken for it. -/
theorem eq_of_isNode {nodes : List TreeNode} (hnodup : (nodes.map Node.id).Nodup)
    (hnode : node ∈ nodes) (hchildren : ∀ child ∈ parent.childNodes, child ∈ nodes) :
    ∀ value ∈ parent.children, isNode node value = true → value = .node node := by
  intro value hvalue hsame
  rcases isNode_eq_true.1 hsame with ⟨twin, rfl, hid⟩
  have htwin := hchildren twin (Node.mem_childNodes.2 hvalue)
  rw [List.inj_on_of_nodup_map hnodup htwin hnode hid]

/-- Where only the very node is taken for it, it has a position if it is listed: the first of its
places. -/
theorem exists_position_of_mem (hlisted : .node node ∈ parent.children)
    (hsame : ∀ value ∈ parent.children, isNode node value = true → value = .node node) :
    ∃ i, position node parent = .ok i ∧
      IsLeast {j | parent.children[j]? = some (.node node)} i := by
  have hself : isNode node (.node node) = true := isNode_eq_true.2 ⟨node, rfl, rfl⟩
  cases hfind : parent.children.findIdx? (isNode node) with
  | none =>
    rw [List.findIdx?_eq_none_iff] at hfind
    rw [hfind _ hlisted] at hself
    cases hself
  | some i =>
    rcases List.findIdx?_eq_some_iff_getElem.1 hfind with ⟨hlt, hnode, hbefore⟩
    refine ⟨i, by rw [position, hfind], ?_, ?_⟩
    · exact List.getElem?_eq_some_iff.2 ⟨hlt, hsame _ (List.getElem_mem hlt) hnode⟩
    · intro j hj
      rcases List.getElem?_eq_some_iff.1 hj with ⟨hjlt, hget⟩
      by_contra hji
      exact hbefore j (Nat.lt_of_not_le hji) (by rw [hget, hself])

/-- And if it is not listed, it has none. -/
theorem position_of_not_mem (hlisted : .node node ∉ parent.children)
    (hsame : ∀ value ∈ parent.children, isNode node value = true → value = .node node) :
    position node parent = .error (.unlisted node) := by
  have hfind : parent.children.findIdx? (isNode node) = none := by
    rw [List.findIdx?_eq_none_iff]
    intro value hvalue
    by_contra hnode
    rw [Bool.not_eq_false] at hnode
    exact hlisted (hsame value hvalue hnode ▸ hvalue)
  rw [position, hfind]

end Forest

/-! ## Sessions with parents set by hand -/

theorem Value.IsFrom.mono {nodes others : List TreeNode} {value : TreeValue}
    (h : value.IsFrom nodes) (hsubset : nodes ⊆ others) : value.IsFrom others := by
  cases value with
  | lit literal => trivial
  | node child => exact hsubset h
  | list items => exact h.elim

namespace Session

/-- Points a node to a parent by hand, or to none. -/
def setParent (session : Session) (node : TreeNode) (parent : Option TreeNode) : Session :=
  ⟨session.forest.setParent node parent, session.nodes⟩

/-- The sessions that constructions over literals and existing nodes lead to, readings, and changes
of parents by hand. -/
inductive Relinked : Session → Prop
  /-- Nothing is constructed yet. -/
  | fresh : Relinked fresh
  /-- A node is constructed. -/
  | construct {session : Session} (h : Relinked session) (span : Option Text.Span)
      (type : NodeType) {children : List TreeValue}
      (hchildren : ∀ child ∈ children, child.IsFrom session.nodes) :
      Relinked (session.construct span type children)
  /-- A text is read. -/
  | read {session : Session} (h : Relinked session) (text : String) :
      Relinked (session.read text)
  /-- A node is pointed to a parent, or to none. -/
  | setParent {session : Session} (h : Relinked session) {node : TreeNode}
      (hnode : node ∈ session.nodes) {parent : Option TreeNode}
      (hparent : ∀ other ∈ parent, other ∈ session.nodes) :
      Relinked (session.setParent node parent)

/-- What every session keeps: its nodes are told apart by their numbers, and child nodes and parents
are nodes of the session. -/
structure IsClosed (session : Session) : Prop where
  /-- The forest has as many nodes as were constructed. -/
  size_eq : session.forest.size = session.nodes.length
  /-- Nodes are numbered in the order of their construction. -/
  map_id : session.nodes.map Node.id = List.range session.nodes.length
  /-- Child nodes are nodes of the session. -/
  child_mem : ∀ parent ∈ session.nodes, ∀ child ∈ parent.childNodes, child ∈ session.nodes
  /-- Parents are nodes of the session. -/
  parent_mem : ∀ node parent, session.forest.parent? node = some parent → parent ∈ session.nodes

namespace IsClosed

variable {session : Session}

theorem fresh : Session.fresh.IsClosed := by
  refine ⟨rfl, rfl, ?_, ?_⟩
  · intro parent hparent
    cases hparent
  · intro node parent hsome
    rw [Forest.parent?_of_size_le (Nat.zero_le _)] at hsome
    cases hsome

/-- A construction over literals and existing nodes keeps a session closed. -/
theorem construct (h : session.IsClosed) (span : Option Text.Span) (type : NodeType)
    {children : List TreeValue} (hchildren : ∀ child ∈ children, child.IsFrom session.nodes) :
    (session.construct span type children).IsClosed := by
  constructor
  · simp [Session.construct, h.size_eq]
  · simp [Session.construct, h.map_id, h.size_eq, List.range_succ]
  · intro parent hparent child hchild
    rcases List.mem_append.1 hparent with hold | hnew
    · exact List.mem_append_left _ (h.child_mem parent hold child hchild)
    · obtain rfl := List.mem_singleton.1 hnew
      exact List.mem_append_left _ (hchildren _ (Node.mem_childNodes.1 hchild))
  · intro node parent hsome
    simp only [Session.construct] at hsome ⊢
    rw [Forest.parent?_construct] at hsome
    split at hsome
    · cases hsome
      exact List.mem_append_right _ (List.mem_singleton_self _)
    · exact List.mem_append_left _ (h.parent_mem node parent hsome)

/-- Any number of constructions keep a session closed. -/
theorem builds (h : session.IsClosed) {nodes : List TreeNode} {forest : Forest}
    (hbuilds : Builds session.forest nodes forest) :
    (Session.mk forest (session.nodes ++ nodes)).IsClosed := by
  induction hbuilds with
  | start => rwa [List.append_nil]
  | construct hbuilds span type hchildren ih =>
    rw [← List.append_assoc]
    refine ih.construct span type ?_
    intro child hchild
    exact (hchildren child hchild).mono (List.subset_append_right _ _)

theorem read (h : session.IsClosed) (text : String) : (session.read text).IsClosed := by
  rw [Session.read]
  cases htext : Node.ofText text with
  | error cause => exact h
  | ok tree => exact h.builds (Builds.start.adoptRead htext)

/-- A parent that is set by hand keeps a session closed. -/
theorem setParent (h : session.IsClosed) (node : TreeNode) {parent : Option TreeNode}
    (hparent : ∀ other ∈ parent, other ∈ session.nodes) :
    (session.setParent node parent).IsClosed := by
  refine ⟨(Forest.size_setParent _ _ _).trans h.size_eq, h.map_id, h.child_mem, ?_⟩
  intro child other hsome
  simp only [Session.setParent] at hsome ⊢
  rw [Forest.parent?_setParent] at hsome
  split at hsome
  · exact hparent other hsome
  · exact h.parent_mem child other hsome

theorem nodup_ids (h : session.IsClosed) : (session.nodes.map Node.id).Nodup := by
  rw [h.map_id]
  exact List.nodup_range

end IsClosed

/-- Every session is closed. -/
theorem Relinked.isClosed {session : Session} (h : session.Relinked) : session.IsClosed := by
  induction h with
  | fresh => exact .fresh
  | construct h span type hchildren ih => exact ih.construct span type hchildren
  | read h text ih => exact ih.read text
  | setParent h hnode hparent ih => exact ih.setParent _ hparent

end Session

/-! ## Looking beside the nodes of a tree -/

/-- A node that is listed once has one position. -/
theorem Node.position_unique {α : Type} {parent child : Node α} (hnodup : parent.childNodes.Nodup)
    {i j : Nat} (hi : parent.children[i]? = some (.node child))
    (hj : parent.children[j]? = some (.node child)) : i = j := by
  have hpairwise := List.pairwise_filterMap.1 hnodup
  rw [List.pairwise_iff_getElem] at hpairwise
  rcases List.getElem?_eq_some_iff.1 hi with ⟨hilt, higet⟩
  rcases List.getElem?_eq_some_iff.1 hj with ⟨hjlt, hjget⟩
  rcases Nat.lt_trichotomy i j with hlt | heq | hlt
  · exact absurd rfl (hpairwise i j hilt hjlt hlt child (by rw [higet]; rfl) child
      (by rw [hjget]; rfl))
  · exact heq
  · exact absurd rfl (hpairwise j i hjlt hilt hlt child (by rw [hjget]; rfl) child
      (by rw [higet]; rfl))

/-- The forest links the nodes of a tree as the tree does, and no two of them have the same
number. -/
structure Forest.LinksTree (forest : Forest) (root : TreeNode) : Prop where
  /-- No two nodes have the same number. -/
  nodup_ids : ((root :: root.descendants).map Node.id).Nodup
  /-- The parent of a node is the node of the tree that it is a child node of. -/
  parent?_eq_some_iff : ∀ node ∈ root :: root.descendants, ∀ parent,
    forest.parent? node = some parent ↔
      parent ∈ root :: root.descendants ∧ node ∈ parent.childNodes

namespace Forest.LinksTree

variable {forest : Forest} {root node other parent : TreeNode} {i : Nat}

/-- In such a tree a child node is answered about the children around it. -/
theorem answersBeside (h : forest.LinksTree root) (hparent : parent ∈ root :: root.descendants)
    (hi : parent.children[i]? = some (.node node)) :
    forest.AnswersBeside node parent i (parent.children.drop (i + 1)) := by
  have hchild : ∀ child ∈ parent.childNodes, child ∈ root :: root.descendants := by
    intro child hchild
    exact List.mem_cons_of_mem _ (Node.mem_descendants_iff.2 ⟨parent, hparent, hchild⟩)
  have hlisted : .node node ∈ parent.children := List.mem_of_getElem? hi
  have hnode := Node.mem_childNodes.2 hlisted
  have hsame := eq_of_isNode h.nodup_ids (hchild node hnode) hchild
  -- no node of the tree is listed twice, so the first place is the only one
  have hnodup : parent.childNodes.Nodup := by
    have hall : ((root :: root.descendants).flatMap Node.childNodes).Nodup :=
      root.flatMap_childNodes_perm.nodup_iff.2 h.nodup_ids.of_map.of_cons
    exact (List.nodup_flatMap.1 hall).1 parent hparent
  rcases exists_position_of_mem hlisted hsame with ⟨j, hposition, hleast⟩
  obtain rfl := Node.position_unique hnodup hleast.1 hi
  have hsome := (h.parent?_eq_some_iff node (hchild node hnode) parent).2 ⟨hparent, hnode⟩
  exact answersBeside_of_position hsome hposition hi

/-- A node with something beside it stands at a position in the tree. -/
theorem exists_position (h : forest.LinksTree root) (hnode : node ∈ root :: root.descendants)
    (hparent : forest.parent? node ≠ none) :
    ∃ (parent : TreeNode) (i : Nat), parent ∈ root :: root.descendants ∧
      parent.children[i]? = some (.node node) := by
  rcases Option.ne_none_iff_exists'.1 hparent with ⟨parent, hsome⟩
  rcases (h.parent?_eq_some_iff node hnode parent).1 hsome with ⟨hmem, hchild⟩
  rcases List.getElem?_of_mem (Node.mem_childNodes.1 hchild) with ⟨i, hi⟩
  exact ⟨parent, i, hmem, hi⟩

/-- Before the next sibling stands the node, and behind the next sibling what is behind both. -/
theorem of_nextSibling (h : forest.LinksTree root) (hnode : node ∈ root :: root.descendants)
    (hnext : forest.nextSibling node = .ok (.node other)) :
    forest.prevSibling other = .ok (.node node) ∧
      ∃ behind, forest.siblings node = .ok (.node other :: behind) ∧
        forest.siblings other = .ok behind := by
  have hparent : forest.parent? node ≠ none := by
    intro hnone
    rw [(beside_of_parent?_eq_none hnone).2.1] at hnext
    cases hnext
  rcases h.exists_position hnode hparent with ⟨parent, i, hmem, hi⟩
  have hbeside := h.answersBeside hmem hi
  have hbehind : parent.children[i + 1]? = some (.node other) := by
    rw [hbeside.nextSibling_eq, List.head?_drop] at hnext
    cases hget : parent.children[i + 1]? with
    | none =>
      rw [hget] at hnext
      cases hnext
    | some value =>
      rw [hget] at hnext
      cases hnext
      rfl
  have hother := h.answersBeside hmem hbehind
  rcases List.getElem?_eq_some_iff.1 hbehind with ⟨hlt, hget⟩
  refine ⟨?_, parent.children.drop (i + 1 + 1), ?_, hother.siblings_eq⟩
  · rcases hother.prevSibling_pos (Nat.succ_pos i) with ⟨value, hvalue, hprev⟩
    rw [Nat.add_sub_cancel, hi] at hvalue
    cases hvalue
    exact hprev
  · rw [hbeside.siblings_eq, List.drop_eq_getElem_cons hlt, hget]

/-- Behind the previous sibling stands the node. -/
theorem of_prevSibling (h : forest.LinksTree root) (hnode : node ∈ root :: root.descendants)
    (hprev : forest.prevSibling node = .ok (.node other)) :
    forest.nextSibling other = .ok (.node node) := by
  have hparent : forest.parent? node ≠ none := by
    intro hnone
    rw [(beside_of_parent?_eq_none hnone).2.2] at hprev
    cases hprev
  rcases h.exists_position hnode hparent with ⟨parent, i, hmem, hi⟩
  have hbeside := h.answersBeside hmem hi
  rcases Nat.eq_zero_or_pos i with hzero | hpos
  · rw [hbeside.prevSibling_zero hzero] at hprev
    cases hprev
  · rcases hbeside.prevSibling_pos hpos with ⟨value, hvalue, hanswer⟩
    cases hprev.symm.trans hanswer
    have hother := h.answersBeside hmem hvalue
    rw [hother.nextSibling_eq, List.head?_drop, Nat.sub_add_cancel hpos, hi, Option.getD_some]

/-- A forest with the same parents links the tree as well. -/
theorem of_parent?_eq (h : forest.LinksTree root) {later : Forest}
    (hparents : ∀ node ∈ root :: root.descendants, later.parent? node = forest.parent? node) :
    later.LinksTree root := by
  refine ⟨h.nodup_ids, fun node hnode parent => ?_⟩
  rw [hparents node hnode, h.parent?_eq_some_iff node hnode parent]

end Forest.LinksTree

/-- A tree that was read is linked as it is. -/
theorem Forest.linksTree_adoptRead {text : String} {tree : Node Unit}
    (htree : Node.ofText text = .ok tree) (forest : Forest) :
    (forest.adoptRead tree).2.LinksTree (forest.adoptRead tree).1 := by
  have hcarries := (Builds.start.adoptRead htree : Builds forest _ _).carries
  exact ⟨hcarries.nodup_ids, hcarries.parent?_eq_some_iff⟩

/-! ## Coherence -/

namespace Session

/-- A node whose parent lists it is answered about its first place there, and any other node with a
parent is refused. -/
theorem IsClosed.beside {session : Session} (h : session.IsClosed) {node parent : TreeNode}
    (hnode : node ∈ session.nodes) (hparent : session.forest.parent? node = some parent) :
    (.node node ∉ parent.children →
      session.forest.siblings node = .error (.unlisted node) ∧
      session.forest.nextSibling node = .error (.unlisted node) ∧
      session.forest.prevSibling node = .error (.unlisted node)) ∧
    (.node node ∈ parent.children → ∃ i behind,
      IsLeast {j | parent.children[j]? = some (.node node)} i ∧
      session.forest.AnswersBeside node parent i behind) := by
  have hchild := h.child_mem parent (h.parent_mem node parent hparent)
  have hsame := Forest.eq_of_isNode h.nodup_ids hnode hchild
  constructor
  · intro hlisted
    exact Forest.unlisted_of_position hparent (Forest.position_of_not_mem hlisted hsame)
  · intro hlisted
    rcases Forest.exists_position_of_mem hlisted hsame with ⟨i, hposition, hleast⟩
    exact ⟨i, _, hleast, Forest.answersBeside_of_position hparent hposition hleast.1⟩

/-- Looking beside nodes is coherent in every session, parents set by hand included.  A node without
a parent has nothing beside it, and its siblings are refused.  A node that its parent does not list
is refused, whatever looks like it there.  Any other node is answered about the children around the
first place where the very node stands.  In a tree that was read, whatever is constructed later, as
long as its parents stay the same, the next sibling has the node before it and the rest of the
siblings behind it, and the previous sibling has the node behind it. -/
theorem Relinked.siblings_coherent {session : Session} (h : session.Relinked) :
    (∀ node ∈ session.nodes,
      (session.forest.parent? node = none →
        session.forest.siblings node = .error (.noParent node) ∧
        session.forest.nextSibling node = .ok .nil ∧
        session.forest.prevSibling node = .ok .nil) ∧
      ∀ parent, session.forest.parent? node = some parent →
        (.node node ∉ parent.children →
          session.forest.siblings node = .error (.unlisted node) ∧
          session.forest.nextSibling node = .error (.unlisted node) ∧
          session.forest.prevSibling node = .error (.unlisted node)) ∧
        (.node node ∈ parent.children → ∃ i behind,
          IsLeast {j | parent.children[j]? = some (.node node)} i ∧
          session.forest.AnswersBeside node parent i behind)) ∧
    ∀ text tree, Node.ofText text = .ok tree →
      let root := (session.forest.adoptRead tree).1
      let read := (session.forest.adoptRead tree).2
      ∀ later : Forest,
        (∀ node ∈ root :: root.descendants, later.parent? node = read.parent? node) →
        ∀ node ∈ root :: root.descendants, ∀ other : TreeNode,
          (later.nextSibling node = .ok (.node other) →
            later.prevSibling other = .ok (.node node) ∧
            ∃ behind, later.siblings node = .ok (.node other :: behind) ∧
              later.siblings other = .ok behind) ∧
          (later.prevSibling node = .ok (.node other) →
            later.nextSibling other = .ok (.node node)) := by
  constructor
  · intro node hnode
    exact ⟨Forest.beside_of_parent?_eq_none, fun parent => h.isClosed.beside hnode⟩
  · intro text tree htree root read later hparents node hnode other
    have hlinks := (session.forest.linksTree_adoptRead htree).of_parent?_eq hparents
    exact ⟨hlinks.of_nextSibling hnode, hlinks.of_prevSibling hnode⟩

/-- A node that is pointed by hand to the parent of two nodes that look like it. -/
theorem siblings_coherent_relinked :
    let leaf : TreeNode := ⟨⟨0, none⟩, .known .nil, []⟩
    let first : TreeNode := ⟨⟨1, none⟩, .known .nil, []⟩
    let second : TreeNode := ⟨⟨2, none⟩, .known .nil, []⟩
    let root : TreeNode := ⟨⟨3, none⟩, .known .begin, [.node first, .lit .nil, .node second]⟩
    let twin : TreeNode := ⟨⟨4, none⟩, .known .nil, []⟩
    let next : TreeNode := ⟨⟨5, none⟩, .known .nil, []⟩
    let tree : Node Unit := ⟨(), .known .array,
      [.node ⟨(), .known .nil, []⟩, .node ⟨(), .known .nil, []⟩]⟩
    let early := (fresh.construct none leaf.type []).read "(begin (nil) nil (nil))"
    let session := early.setParent leaf (some root)
    let read := (session.forest.adoptRead tree).2
    session.Relinked ∧ leaf ∈ session.nodes ∧ second ∈ session.nodes ∧
      Node.ofText "(array (nil) (nil))" = .ok tree ∧
      session.forest.nextSibling leaf = .error (.unlisted leaf) ∧
      session.forest.siblings root = .error (.noParent root) ∧
      (∃ i behind, IsLeast {j | root.children[j]? = some (.node second)} i ∧
        session.forest.AnswersBeside second root i behind) ∧
      read.nextSibling twin = .ok (.node next) ∧ read.prevSibling next = .ok (.node twin) := by
  intro leaf first second root twin next tree early session read
  have htext : Node.ofText "(begin (nil) nil (nil))" = .ok ⟨(), .known .begin,
      [.node ⟨(), .known .nil, []⟩, .lit .nil, .node ⟨(), .known .nil, []⟩]⟩ := by
    with_unfolding_all rfl
  have htree : Node.ofText "(array (nil) (nil))" = .ok tree := by
    with_unfolding_all rfl
  have hearly : early =
      ⟨⟨#[none, some root, some root, none]⟩, [leaf, first, second, root]⟩ := by
    simp only [early, Session.read, htext]
    rfl
  have hsession : session =
      ⟨⟨#[some root, some root, some root, none]⟩, [leaf, first, second, root]⟩ := by
    simp only [session, hearly]
    rfl
  have hrelinked : session.Relinked := by
    have hread : early.Relinked := (Relinked.fresh.construct none leaf.type (by simp)).read _
    exact hread.setParent (by rw [hearly]; simp) (by rw [hearly]; simp)
  have hleaf : leaf ∈ session.nodes := by rw [hsession]; simp
  have hsecond : second ∈ session.nodes := by rw [hsession]; simp
  have hroot : root ∈ session.nodes := by rw [hsession]; simp
  rcases hrelinked.siblings_coherent with ⟨hbeside, htrees⟩
  have hunlisted := ((hbeside leaf hleaf).2 root (by rw [hsession]; rfl)).1
    (by simp [root, first, second, leaf])
  have hlisted := ((hbeside second hsecond).2 root (by rw [hsession]; rfl)).2 (by simp [root])
  have hnone := (hbeside root hroot).1 (by rw [hsession]; rfl)
  have hnext : read.nextSibling twin = .ok (.node next) := by
    simp only [read, hsession]
    rfl
  have htwin : twin ∈ (session.forest.adoptRead tree).1 ::
      (session.forest.adoptRead tree).1.descendants := by
    rw [hsession]
    exact List.mem_cons_of_mem _ List.mem_cons_self
  have hlaws := htrees _ tree htree read (fun _ _ => rfl) twin htwin next
  exact ⟨hrelinked, hleaf, hsecond, htree, hunlisted.2.1, hnone.1, hlisted, hnext,
    (hlaws.1 hnext).1⟩

end Session

end RubyTree
