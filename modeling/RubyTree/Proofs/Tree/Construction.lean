import Mathlib.Data.List.Range
import RubyTree.Proofs.Tree.Descendants
import RubyTree.Tree.Forest

/-!
# Links between constructed nodes

A new node takes over all nodes among its children, whoever listed them before.  So
after any number of constructions the parent of a node is the last one that lists it,
and it was built later than the node: the numbers of nodes rise along the parents, which
ends every walk up.

Main results:

- `Forest.parent?_construct`: what one construction does to the parents.
- `Builds` are the forests that constructions lead to, and `Builds.adopt` says that
  adopting a tree is nothing but constructing its nodes.
- `Builds.parent?_eq`: the parent of a node is its last lister.
- `Builds.lists_iff`: nodes are told apart by their numbers, so that a node lists its
  child nodes and no others.
- `Builds.climbs`: the walk up from a node ends, and `ancestors` lists all of it.
-/

namespace RubyTree

/-! ## Listing -/

/-- The very node is among the children. -/
def Node.lists (parent child : TreeNode) : Bool :=
  parent.children.any (Forest.isNode child)

/-- The last one of the nodes that lists a node. -/
def lastLister? (nodes : List TreeNode) (node : TreeNode) : Option TreeNode :=
  nodes.reverse.find? (·.lists node)

/-- The value is a literal or one of the nodes. -/
def Value.IsFrom (nodes : List TreeNode) : TreeValue → Prop
  | .lit _ => True
  | .node child => child ∈ nodes
  | .list _ => False

namespace Forest

theorem isNode_eq_true {node : TreeNode} {value : TreeValue} :
    isNode node value = true ↔ ∃ other, value = .node other ∧ other.id = node.id := by
  cases value <;> simp [isNode]

end Forest

theorem Node.lists_eq_true {parent child : TreeNode} :
    parent.lists child = true ↔ ∃ other ∈ parent.childNodes, other.id = child.id := by
  simp only [Node.lists, List.any_eq_true, Forest.isNode_eq_true, Node.mem_childNodes]
  constructor
  · rintro ⟨_, hmem, other, rfl, hid⟩
    exact ⟨other, hmem, hid⟩
  · rintro ⟨other, hmem, hid⟩
    exact ⟨_, hmem, other, rfl, hid⟩

theorem lastLister?_append_singleton (nodes : List TreeNode) (last node : TreeNode) :
    lastLister? (nodes ++ [last]) node =
      if last.lists node then some last else lastLister? nodes node := by
  rw [lastLister?, List.reverse_append, List.reverse_singleton, List.singleton_append,
    List.find?_cons]
  cases last.lists node <;> rfl

theorem lastLister?_eq_some {nodes : List TreeNode} {node parent : TreeNode}
    (h : lastLister? nodes node = some parent) : parent ∈ nodes ∧ parent.lists node = true := by
  have hlists := List.find?_some h
  exact ⟨List.mem_reverse.1 (List.mem_of_find?_eq_some h), hlists⟩

theorem lastLister?_eq_none {nodes : List TreeNode} {node : TreeNode} :
    lastLister? nodes node = none ↔ ∀ other ∈ nodes, other.lists node = false := by
  simp [lastLister?]

/-! ## One construction -/

namespace Forest

variable {forest : Forest} {node child parent : TreeNode}

@[simp] theorem size_setParent (forest : Forest) (node : TreeNode) (parent : Option TreeNode) :
    (forest.setParent node parent).size = forest.size := by
  simp [size, setParent]

/-- Only the parent of the node itself is set. -/
theorem parent?_setParent (forest : Forest) (child node : TreeNode) (parent : Option TreeNode) :
    (forest.setParent child parent).parent? node =
      if child.id = node.id ∧ node.id < forest.size then parent else forest.parent? node := by
  rw [parent?, parent?, setParent, size, Array.getElem?_setIfInBounds]
  by_cases hid : child.id = node.id
  · by_cases hsize : node.id < forest.parents.size
    · simp [hid, hsize]
    · simp [hid, hsize]
  · simp [hid]

@[simp] theorem size_claim (parent : TreeNode) (forest : Forest) (value : TreeValue) :
    (claim parent forest value).size = forest.size := by
  cases value <;> simp [claim]

theorem parent?_claim (parent : TreeNode) (forest : Forest) (value : TreeValue)
    (node : TreeNode) :
    (claim parent forest value).parent? node =
      if isNode node value ∧ node.id < forest.size then some parent else forest.parent? node := by
  cases value with
  | node child => simp [claim, isNode, parent?_setParent]
  | lit literal => simp [claim, isNode]
  | list items => simp [claim, isNode]

@[simp] theorem size_foldl_claim (parent : TreeNode) (children : List TreeValue)
    (forest : Forest) : (children.foldl (claim parent) forest).size = forest.size := by
  induction children generalizing forest with
  | nil => rfl
  | cons value rest ih => rw [List.foldl_cons, ih, size_claim]

/-- A number that is not given out yet has no parent. -/
theorem parent?_of_size_le (h : forest.size ≤ node.id) : forest.parent? node = none := by
  rw [parent?, Array.getElem?_eq_none h]
  rfl

/-- A new parent takes over all its children. -/
theorem parent?_foldl_claim (parent : TreeNode) (children : List TreeValue) (forest : Forest)
    (node : TreeNode) :
    (children.foldl (claim parent) forest).parent? node =
      if children.any (isNode node) ∧ node.id < forest.size then some parent
      else forest.parent? node := by
  induction children generalizing forest with
  | nil => simp
  | cons value rest ih =>
    rw [List.foldl_cons, ih, parent?_claim, size_claim, List.any_cons]
    by_cases hsize : node.id < forest.size <;> cases isNode node value <;>
      cases rest.any (isNode node) <;> simp [hsize]

variable (forest) (span : Option Text.Span) (type : NodeType) (children : List TreeValue)

@[simp] theorem id_construct : (forest.construct span type children).1.id = forest.size := rfl

@[simp] theorem children_construct :
    (forest.construct span type children).1.children = children := rfl

@[simp] theorem size_construct :
    (forest.construct span type children).2.size = forest.size + 1 := by
  simp only [construct, size, Array.size_push, Nat.add_right_cancel_iff]
  exact size_foldl_claim _ children forest

/-- A new node has no parent, is the parent of the nodes it lists, and leaves all others alone. -/
theorem parent?_construct (node : TreeNode) :
    (forest.construct span type children).2.parent? node =
      if (forest.construct span type children).1.lists node ∧ node.id < forest.size then
        some (forest.construct span type children).1
      else forest.parent? node := by
  have hclaimed := parent?_foldl_claim (forest.construct span type children).1 children forest node
  have hsize := size_foldl_claim (forest.construct span type children).1 children forest
  rw [Node.lists, children_construct, ← hclaimed]
  rw [size] at hsize
  simp only [construct, parent?] at hsize ⊢
  rw [Array.getElem?_push, hsize]
  split
  · next hid => rw [Array.getElem?_eq_none (by omega)]; rfl
  · rfl

end Forest

/-! ## Constructions one after the other -/

/-- The forest comes from another one by constructing the nodes in their order, each over literals
and nodes that were constructed before. -/
inductive Builds (start : Forest) : List TreeNode → Forest → Prop
  /-- Nothing is constructed. -/
  | start : Builds start [] start
  /-- One more node is constructed. -/
  | construct {nodes : List TreeNode} {forest : Forest} (h : Builds start nodes forest)
      (span : Option Text.Span) (type : NodeType) {children : List TreeValue}
      (hchildren : ∀ child ∈ children, child.IsFrom nodes) :
      Builds start (nodes ++ [(forest.construct span type children).1])
        (forest.construct span type children).2

namespace Builds

variable {start forest : Forest} {nodes : List TreeNode}

/-- The nodes are numbered in the order of their construction. -/
theorem map_id (h : Builds start nodes forest) :
    nodes.map Node.id = List.range' start.size nodes.length ∧
      forest.size = start.size + nodes.length := by
  induction h with
  | start => exact ⟨rfl, rfl⟩
  | construct h span type hchildren ih =>
    rcases ih with ⟨hids, hsize⟩
    rw [List.map_append, hids, Forest.size_construct, List.map_singleton, Forest.id_construct,
      List.length_append, List.length_singleton, hsize, List.range'_concat, Nat.one_mul]
    exact ⟨rfl, Nat.add_assoc _ _ _⟩

theorem id_mem (h : Builds start nodes forest) {node : TreeNode} (hnode : node ∈ nodes) :
    start.size ≤ node.id ∧ node.id < forest.size := by
  have hid : node.id ∈ nodes.map Node.id := List.mem_map_of_mem hnode
  rw [h.map_id.1, List.mem_range'_1] at hid
  rw [h.map_id.2]
  exact hid

theorem nodup_ids (h : Builds start nodes forest) : (nodes.map Node.id).Nodup := by
  rw [h.map_id.1]
  exact List.nodup_range'

/-- Nodes with the same number are the same. -/
theorem eq_of_id (h : Builds start nodes forest) {a b : TreeNode} (ha : a ∈ nodes) (hb : b ∈ nodes)
    (hid : a.id = b.id) : a = b :=
  List.inj_on_of_nodup_map h.nodup_ids ha hb hid

/-- The child nodes of a node were constructed before it. -/
theorem child_lt (h : Builds start nodes forest) {parent child : TreeNode}
    (hparent : parent ∈ nodes) (hchild : child ∈ parent.childNodes) : child ∈ nodes ∧ child.id < parent.id := by
  induction h with
  | start => cases hparent
  | construct h span type hchildren ih =>
    rw [List.mem_append, List.mem_singleton] at hparent ⊢
    rcases hparent with hold | rfl
    · rcases ih hold with ⟨hmem, hlt⟩
      exact ⟨.inl hmem, hlt⟩
    · have hmem : child ∈ _ := hchildren _ (Node.mem_childNodes.1 hchild)
      exact ⟨.inl hmem, (h.id_mem hmem).2⟩

/-- A node lists exactly its child nodes. -/
theorem lists_iff (h : Builds start nodes forest) {parent child : TreeNode}
    (hparent : parent ∈ nodes) (hchild : child ∈ nodes) :
    parent.lists child = true ↔ child ∈ parent.childNodes := by
  rw [Node.lists_eq_true]
  constructor
  · rintro ⟨other, hother, hid⟩
    rwa [← h.eq_of_id (h.child_lt hparent hother).1 hchild hid]
  · intro hmem
    exact ⟨child, hmem, rfl⟩

/-- The parent of a node is the last one that lists it. -/
theorem parent?_eq (h : Builds start nodes forest) {node : TreeNode}
    (hnode : start.size ≤ node.id) : forest.parent? node = lastLister? nodes node := by
  induction h with
  | start => exact Forest.parent?_of_size_le hnode
  | @construct nodes forest h span type children hchildren ih =>
    -- what the new node lists was there before it
    have hlisted : (forest.construct span type children).1.lists node = true →
        node.id < forest.size := by
      intro hlists
      rcases Node.lists_eq_true.1 hlists with ⟨child, hchild, hid⟩
      rw [← hid]
      exact (h.id_mem (hchildren _ (Node.mem_childNodes.1 hchild))).2
    rw [Forest.parent?_construct, lastLister?_append_singleton, ih]
    simp only [and_iff_left_of_imp hlisted]

/-- A parent lists the node and was constructed after it. -/
theorem of_parent? (h : Builds start nodes forest) {node parent : TreeNode}
    (hnode : start.size ≤ node.id) (hparent : forest.parent? node = some parent) :
    parent ∈ nodes ∧ parent.lists node = true ∧ node.id < parent.id := by
  rw [h.parent?_eq hnode] at hparent
  rcases lastLister?_eq_some hparent with ⟨hmem, hlists⟩
  rcases Node.lists_eq_true.1 hlists with ⟨child, hchild, hid⟩
  exact ⟨hmem, hlists, hid ▸ (h.child_lt hmem hchild).2⟩

end Builds

/-! ## Walking up -/

/-- The walk up from a node meets the listed nodes, and stops at one without a parent. -/
inductive Forest.Climbs (forest : Forest) : TreeNode → List TreeNode → Prop
  /-- There is no parent. -/
  | top {node : TreeNode} (h : forest.parent? node = none) : Climbs forest node []
  /-- The walk goes on from the parent. -/
  | up {node parent : TreeNode} {rest : List TreeNode} (h : forest.parent? node = some parent)
      (hrest : Climbs forest parent rest) : Climbs forest node (parent :: rest)

/-- The walk stops at its last node. -/
theorem Forest.Climbs.parent?_last {forest : Forest} {node : TreeNode} {chain : List TreeNode}
    (h : forest.Climbs node chain) : forest.parent? (chain.getLast?.getD node) = none := by
  induction h with
  | top h => exact h
  | up h hrest ih => rwa [List.getLast?_cons, Option.getD_some]

namespace Builds

variable {start forest : Forest} {nodes : List TreeNode} {node : TreeNode}

/-- Numbers rise along the walk, so it ends before they reach the size of the forest. -/
theorem climbs_ancestorsWith (h : Builds start nodes forest) {fuel : Nat}
    (hnode : start.size ≤ node.id) (hfuel : forest.size ≤ fuel + node.id) :
    forest.Climbs node (forest.ancestorsWith fuel node) := by
  induction fuel generalizing node with
  | zero => exact .top (Forest.parent?_of_size_le (by omega))
  | succ fuel ih =>
    rw [Forest.ancestorsWith]
    cases hparent : forest.parent? node with
    | none => exact .top hparent
    | some parent =>
      rcases h.of_parent? hnode hparent with ⟨-, -, hlt⟩
      exact .up hparent (ih (by omega) (by omega))

/-- The walk up from a node ends, and the nodes that it meets are the ancestors. -/
theorem climbs (h : Builds start nodes forest) (hnode : start.size ≤ node.id) :
    forest.Climbs node (forest.ancestors node) :=
  h.climbs_ancestorsWith hnode (Nat.le_add_right _ _)

/-- The numbers of a node and its ancestors rise. -/
theorem pairwise_of_climbs (h : Builds start nodes forest) {chain : List TreeNode}
    (hclimbs : forest.Climbs node chain) (hnode : start.size ≤ node.id) :
    ((node :: chain).map Node.id).Pairwise (· < ·) := by
  rw [← List.isChain_iff_pairwise]
  induction hclimbs with
  | top => exact .singleton _
  | up hparent hrest ih =>
    rcases h.of_parent? hnode hparent with ⟨hmem, -, hlt⟩
    exact .cons_cons hlt (ih (h.id_mem hmem).1)

/-- No node is its own ancestor, and none is an ancestor twice. -/
theorem nodup_ancestors (h : Builds start nodes forest) (hnode : start.size ≤ node.id) :
    ((node :: forest.ancestors node).map Node.id).Nodup :=
  (h.pairwise_of_climbs (h.climbs hnode) hnode).imp Nat.ne_of_lt

end Builds

/-! ## Looking beside a node -/

/-- A node has a position among the children of a node that lists it. -/
theorem Forest.exists_position {node parent : TreeNode} (h : parent.lists node = true) :
    ∃ index, Forest.position node parent = .ok index := by
  cases hfind : parent.children.findIdx? (Forest.isNode node) with
  | some index => exact ⟨index, by rw [Forest.position, hfind]⟩
  | none =>
    rw [List.findIdx?_eq_none_iff] at hfind
    rcases List.any_eq_true.1 h with ⟨value, hmem, hvalue⟩
    exact absurd hvalue (by rw [hfind value hmem]; decide)

/-- The siblings of a node are refused only for want of a parent. -/
theorem Builds.siblings_eq_error_iff {start forest : Forest} {nodes : List TreeNode}
    (h : Builds start nodes forest) {node : TreeNode} (hnode : start.size ≤ node.id)
    {cause : PlaceError} :
    forest.siblings node = .error cause ↔ cause = .noParent node ∧ forest.parent? node = none := by
  rw [Forest.siblings]
  cases hparent : forest.parent? node with
  | none => simp [eq_comm]
  | some parent =>
    rcases h.of_parent? hnode hparent with ⟨-, hlists, -⟩
    rcases Forest.exists_position hlists with ⟨index, hindex⟩
    simp [hindex, Except.map]

/-! ## Adopting trees -/

mutual

/-- Adopting a tree without lists constructs its nodes, children before their parents. -/
theorem Builds.adopt {start forest : Forest} {nodes : List TreeNode}
    (h : Builds start nodes forest) (tree : Node (Option Text.Span))
    (htree : tree.isHashable = true) :
    Builds start (nodes ++ (forest.adopt tree).1.bottomUp) (forest.adopt tree).2 := by
  match tree with
  | ⟨span, type, children⟩ =>
    rcases Builds.adoptAll h children htree with ⟨hbuilds, hvalues⟩
    have hroot := hbuilds.construct span type hvalues
    rw [List.append_assoc] at hroot
    exact hroot

/-- Adopting values without lists constructs the nodes of all of them. -/
theorem Builds.adoptAll {start forest : Forest} {nodes : List TreeNode}
    (h : Builds start nodes forest) (items : List (Value (Option Text.Span)))
    (hitems : Value.allHashable items = true) :
    Builds start (nodes ++ Value.bottomUpAll (forest.adoptAll items).1)
        (forest.adoptAll items).2 ∧
      ∀ value ∈ (forest.adoptAll items).1,
        value.IsFrom (nodes ++ Value.bottomUpAll (forest.adoptAll items).1) := by
  match items with
  | [] =>
    refine ⟨?_, by simp [Forest.adoptAll]⟩
    rwa [Forest.adoptAll, Value.bottomUpAll, List.append_nil]
  | .lit literal :: rest =>
    rcases Builds.adoptAll h rest hitems with ⟨hbuilds, hvalues⟩
    exact ⟨hbuilds, List.forall_mem_cons.2 ⟨trivial, hvalues⟩⟩
  | .node node :: rest =>
    rw [Value.allHashable, Bool.and_eq_true] at hitems
    have hnode := Builds.adopt h node hitems.1
    rcases Builds.adoptAll hnode rest hitems.2 with ⟨hbuilds, hvalues⟩
    rw [List.append_assoc] at hbuilds hvalues
    refine ⟨hbuilds, List.forall_mem_cons.2 ⟨?_, hvalues⟩⟩
    exact List.mem_append_right _ (List.mem_append_left _ (Node.mem_bottomUp _))
  | .list inner :: rest => cases hitems

end

end RubyTree
