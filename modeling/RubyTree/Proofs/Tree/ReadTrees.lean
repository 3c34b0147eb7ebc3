import RubyTree.Proofs.Sexp.Openings
import RubyTree.Proofs.Tree.Sessions

/-!
# Trees that were read

The nodes of a tree that was read are new, and each of them is listed once, by one node.
So the forest links every node to the node above it in the tree, and walking up from a
node meets exactly those that it stands below.

Main results:

- `Forest.Carries` says that a forest links the nodes of a tree as the tree does, and
  `Builds.carries` that constructing the tree makes it so.
- `Forest.Carries.mem_iff_of_climbs` and `Forest.Carries.last_of_climbs` compare the walks.
- `Forest.adoptRead_walks_agree`: walking down and up in a tree that was read.
-/

namespace RubyTree

open RubyTree.Sexp

/-! ## Single parents -/

/-- Where all nodes of a tree are different, a node is a child node of only one of them. -/
theorem Node.parent_unique {α : Type} {root first second child : Node α}
    (hnodup : (root :: root.descendants).Nodup) (hfirst : first ∈ root :: root.descendants)
    (hsecond : second ∈ root :: root.descendants) (h : child ∈ first.childNodes)
    (h' : child ∈ second.childNodes) : first = second := by
  have hchildren : ((root :: root.descendants).flatMap Node.childNodes).Nodup :=
    root.flatMap_childNodes_perm.nodup_iff.2 hnodup.of_cons
  have hdisjoint := (List.nodup_flatMap.1 hchildren).2
  have : Std.Symm (Function.onFun List.Disjoint (@Node.childNodes α)) :=
    ⟨fun _ _ hab _ hb ha => hab ha hb⟩
  by_contra hne
  exact hdisjoint.forall hfirst hsecond hne h h'

/-! ## Forests that carry a tree -/

/-- The forest links the nodes of a tree as the tree does: they are all different, the parent of a
node is the one that it is a child node of, and every walk up ends. -/
structure Forest.Carries (forest : Forest) (root : TreeNode) : Prop where
  /-- No two nodes have the same number. -/
  nodup_ids : ((root :: root.descendants).map Node.id).Nodup
  /-- The parent of a node is the node of the tree that it is a child node of. -/
  parent?_eq_some_iff : ∀ node ∈ root :: root.descendants, ∀ parent,
    forest.parent? node = some parent ↔
      parent ∈ root :: root.descendants ∧ node ∈ parent.childNodes
  /-- The walk up from a node meets its ancestors. -/
  climbs : ∀ node ∈ root :: root.descendants, forest.Climbs node (forest.ancestors node)

namespace Forest.Carries

variable {forest : Forest} {root node other : TreeNode}

theorem nodup (h : forest.Carries root) : (root :: root.descendants).Nodup :=
  h.nodup_ids.of_map

/-- The root stands above all other nodes. -/
theorem parent?_eq_none_iff (h : forest.Carries root) (hnode : node ∈ root :: root.descendants) :
    forest.parent? node = none ↔ node = root := by
  rw [Option.eq_none_iff_forall_ne_some]
  constructor
  · intro hnone
    rcases List.mem_cons.1 hnode with rfl | hbelow
    · rfl
    · rcases Node.mem_descendants_iff.1 hbelow with ⟨parent, hparent, hchild⟩
      exact absurd ((h.parent?_eq_some_iff node hnode parent).2 ⟨hparent, hchild⟩) (hnone parent)
  · rintro rfl parent hsome
    rcases (h.parent?_eq_some_iff node hnode parent).1 hsome with ⟨hparent, hchild⟩
    exact (List.nodup_cons.1 h.nodup).1 (Node.mem_descendants_iff.2 ⟨parent, hparent, hchild⟩)

/-- A node stands below another one if its parent is that one or stands below it. -/
theorem mem_descendants_iff_parent (h : forest.Carries root)
    (hnode : node ∈ root :: root.descendants) (hother : other ∈ root :: root.descendants)
    {parent : TreeNode} (hparent : forest.parent? node = some parent) :
    node ∈ other.descendants ↔ parent ∈ other :: other.descendants := by
  rcases (h.parent?_eq_some_iff node hnode parent).1 hparent with ⟨hmem, hchild⟩
  rw [Node.mem_descendants_iff]
  constructor
  · rintro ⟨lister, hlister, hlisted⟩
    have hin : lister ∈ root :: root.descendants := (Node.infix_descendants hother).subset hlister
    rwa [Node.parent_unique h.nodup hmem hin hchild hlisted]
  · intro hbelow
    exact ⟨parent, hbelow, hchild⟩

/-- The walk up from a node meets exactly the nodes that it stands below. -/
theorem mem_iff_of_climbs (h : forest.Carries root) {chain : List TreeNode}
    (hclimbs : forest.Climbs node chain) (hnode : node ∈ root :: root.descendants)
    (hother : other ∈ root :: root.descendants) :
    node ∈ other.descendants ↔ other ∈ chain := by
  induction hclimbs with
  | @top node hnone =>
    rw [(h.parent?_eq_none_iff hnode).1 hnone]
    have hroot : root ∉ other.descendants := fun hbelow =>
      (List.nodup_cons.1 h.nodup).1 (Node.descendants_subset hother hbelow)
    simp [hroot]
  | @up node parent rest hparent hrest ih =>
    have hmem := ((h.parent?_eq_some_iff node hnode parent).1 hparent).1
    rw [h.mem_descendants_iff_parent hnode hother hparent, List.mem_cons, List.mem_cons, ih hmem]
    exact or_congr_left eq_comm

/-- The walk up from a node stops at the root of the tree. -/
theorem last_of_climbs (h : forest.Carries root) {chain : List TreeNode}
    (hclimbs : forest.Climbs node chain) (hnode : node ∈ root :: root.descendants) :
    chain.getLast?.getD node = root := by
  induction hclimbs with
  | top hnone => exact (h.parent?_eq_none_iff hnode).1 hnone
  | @up node parent rest hparent hrest ih =>
    rw [List.getLast?_cons, Option.getD_some]
    exact ih ((h.parent?_eq_some_iff node hnode parent).1 hparent).1

end Forest.Carries

/-! ## Constructed trees -/

/-- The forest in which the nodes of a tree were just constructed carries the tree. -/
theorem Builds.carries {start forest : Forest} {root : TreeNode}
    (h : Builds start root.bottomUp forest) : forest.Carries root := by
  have hmem : ∀ {node : TreeNode}, node ∈ root.bottomUp ↔ node ∈ root :: root.descendants :=
    root.bottomUp_perm.mem_iff
  have hids : ((root :: root.descendants).map Node.id).Nodup :=
    (root.bottomUp_perm.map Node.id).nodup_iff.1 h.nodup_ids
  refine ⟨hids, fun node hnode parent => ?_, fun node hnode =>
    h.climbs (h.id_mem (hmem.2 hnode)).1⟩
  have hnew := (h.id_mem (hmem.2 hnode)).1
  have hlister : ∀ lister, forest.parent? node = some lister →
      lister ∈ root :: root.descendants ∧ node ∈ lister.childNodes := by
    intro lister hsome
    rcases h.of_parent? hnew hsome with ⟨hin, hlists, -⟩
    exact ⟨hmem.1 hin, (h.lists_iff hin (hmem.2 hnode)).1 hlists⟩
  refine ⟨hlister parent, fun ⟨hparent, hchild⟩ => ?_⟩
  -- some node lists it, and no other node of the tree does
  cases hsome : forest.parent? node with
  | some lister =>
    rcases hlister lister hsome with ⟨hin, hchild'⟩
    rw [Node.parent_unique hids.of_map hin hparent hchild' hchild]
  | none =>
    have hlists := (h.lists_iff (hmem.2 hparent) (hmem.2 hnode)).2 hchild
    rw [h.parent?_eq hnew, lastLister?_eq_none] at hsome
    rw [hsome parent (hmem.2 hparent)] at hlists
    cases hlists

mutual

/-- Adopting a tree only marks its nodes with numbers. -/
theorem Forest.adopt_map (forest : Forest) (tree : Node (Option Text.Span)) :
    (forest.adopt tree).1.map Mark.span = tree := by
  match tree with
  | ⟨span, type, children⟩ =>
    exact congrArg (Node.mk span type) (Forest.adoptAll_map forest children)

theorem Forest.adoptValue_map (forest : Forest) (value : Value (Option Text.Span)) :
    (forest.adoptValue value).1.map Mark.span = value := by
  match value with
  | .lit literal => rfl
  | .node node => exact congrArg Value.node (Forest.adopt_map forest node)
  | .list items => exact congrArg Value.list (Forest.adoptAll_map forest items)

theorem Forest.adoptAll_map (forest : Forest) (values : List (Value (Option Text.Span))) :
    Value.mapAll Mark.span (forest.adoptAll values).1 = values := by
  match values with
  | [] => rfl
  | value :: rest =>
    exact congrArg₂ List.cons (Forest.adoptValue_map forest value)
      (Forest.adoptAll_map (forest.adoptValue value).2 rest)

end

/-- Without its marks, the tree that was adopted is the one that was read. -/
theorem Forest.bare_adoptRead (forest : Forest) (tree : Node Unit) :
    (forest.adoptRead tree).1.bare = tree := by
  calc (forest.adoptRead tree).1.bare
      = ((forest.adoptRead tree).1.map Mark.span).bare :=
        (Node.map_map (fun _ => ()) Mark.span _).symm
    _ = (tree.map fun _ => none).bare := by rw [Forest.adoptRead, Forest.adopt_map]
    _ = tree.bare := Node.map_map (fun _ => ()) (fun _ => none) tree
    _ = tree := Node.bare_unit tree

/-- No node of a tree that was read has a span. -/
theorem Forest.span?_of_mem_adoptRead {forest : Forest} {tree : Node Unit} {node : TreeNode}
    (h : node ∈ (forest.adoptRead tree).1 :: (forest.adoptRead tree).1.descendants) :
    node.span? = none := by
  have hspans : (forest.adoptRead tree).1.map Mark.span = tree.map fun _ => none :=
    forest.adopt_map _
  have hmap : node.map Mark.span ∈ (tree.map fun _ => none) ::
      (tree.map fun _ => (none : Option Text.Span)).descendants := by
    rw [← hspans, Node.descendants_map, ← List.map_cons]
    exact List.mem_map_of_mem h
  rcases Node.exists_mark_of_mem_map hmap with ⟨-, hmark⟩
  rcases node with ⟨mark, type, children⟩
  exact hmark

/-! ## Walking down and up -/

/-- Walking down and walking up agree in every tree that was read, whatever else the forest holds.
The tree is the one that was read, and its pre-order list has each of the new nodes once, in the
order of the parentheses that open them.  What stands below a node follows it there in one piece,
and it is what the node is an ancestor of.  Every walk up ends in the root, which alone has no
parent.  No node has a span. -/
theorem Forest.adoptRead_walks_agree {text : String} {tree : Node Unit}
    (htree : Node.ofText text = .ok tree) (forest : Forest) :
    let root := (forest.adoptRead tree).1
    let nodes := root :: root.descendants
    let read := (forest.adoptRead tree).2
    root.bare = tree ∧
      (nodes.map Node.id).Perm (List.range' forest.size nodes.length) ∧
      read.size = forest.size + nodes.length ∧
      (∃ tokens placed, Tokens.ofText text = .ok tokens ∧ placed.map Prod.fst = root ∧
        OpensNode tokens.toList placed ∧
        (placed :: placed.descendants).map (fun node => node.mark.2) = openings tokens.toList ∧
        (openings tokens.toList).Pairwise fun a b => a.start < b.start) ∧
      ∀ node ∈ nodes,
        node :: node.descendants <:+: nodes ∧
        (∀ other ∈ nodes, other ∈ node.descendants ↔ node ∈ read.ancestors other) ∧
        read.Climbs node (read.ancestors node) ∧
        (node ≠ root → (read.ancestors node).getLast? = some root) ∧
        read.root node = root ∧
        (read.parent? node = none ↔ node = root) ∧
        node.span? = none := by
  intro root nodes read
  have hbuilds : Builds forest root.bottomUp read := Builds.start.adoptRead htree
  have hcarries := hbuilds.carries
  have hperm : root.bottomUp.Perm nodes := root.bottomUp_perm
  have hids : (nodes.map Node.id).Perm (List.range' forest.size nodes.length) := by
    rw [← hperm.length_eq, ← hbuilds.map_id.1]
    exact (hperm.map Node.id).symm
  refine ⟨forest.bare_adoptRead tree, hids, hperm.length_eq ▸ hbuilds.map_id.2, ?_,
    fun node hnode => ?_⟩
  · rcases ofText_eq_ok_iff.1 htree with ⟨tokens, htokens, -, hspells⟩
    rcases hspells.exists_opensNode tokens.toList rfl root (forest.bare_adoptRead tree) with
      ⟨placed, hplaced, hopens⟩
    exact ⟨tokens, placed, htokens, hplaced, hopens, hopens.ranges, pairwise_openings htokens⟩
  · have hclimbs := hcarries.climbs node hnode
    have hlast : (read.ancestors node).getLast?.getD node = root :=
      hcarries.last_of_climbs hclimbs hnode
    have hroot : read.root node = root := (read.root_eq node).trans hlast
    refine ⟨Node.infix_descendants hnode, fun other hother => ?_, hclimbs, fun hne => ?_, hroot,
      hcarries.parent?_eq_none_iff hnode, Forest.span?_of_mem_adoptRead hnode⟩
    · exact hcarries.mem_iff_of_climbs (hcarries.climbs other hother) hother hnode
    · cases hwalk : (read.ancestors node).getLast? with
      | some last => rw [← hlast, hwalk, Option.getD_some]
      | none =>
        rw [hwalk, Option.getD_none] at hlast
        exact absurd hlast hne

/-- Two nodes that look the same stand at different depths. -/
theorem Forest.adoptRead_walks_agree_twins :
    let tree : Node Unit := ⟨(), .known .send,
      [.node ⟨(), .known .nil, []⟩, .lit (.int 1), .node ⟨(), .known .begin,
        [.node ⟨(), .known .nil, []⟩]⟩]⟩
    let twin : TreeNode := ⟨⟨1, none⟩, .known .nil, []⟩
    let inner : TreeNode := ⟨⟨2, none⟩, .known .begin, [.node twin]⟩
    let root := (Forest.empty.adoptRead tree).1
    let read := (Forest.empty.adoptRead tree).2
    Node.ofText "(send (nil) 1 (begin (nil)))" = .ok tree ∧
      root.descendants.map Node.id = [0, 2, 1] ∧
      twin ∈ inner.descendants ∧ inner ∈ read.ancestors twin ∧
      inner :: inner.descendants <:+: root :: root.descendants ∧
      read.root twin = root ∧ read.parent? twin ≠ none := by
  intro tree twin inner root read
  have htext : Node.ofText "(send (nil) 1 (begin (nil)))" = .ok tree := by
    with_unfolding_all rfl
  have hnodes : root.descendants = [⟨⟨0, none⟩, .known .nil, []⟩, inner, twin] := rfl
  have htwin : twin ∈ root :: root.descendants := by simp [hnodes]
  have hinner : inner ∈ root :: root.descendants := by simp [hnodes]
  rcases Forest.adoptRead_walks_agree htext .empty with ⟨-, -, -, -, hwalks⟩
  rcases hwalks inner hinner with ⟨hpiece, hbelow, -⟩
  rcases hwalks twin htwin with ⟨-, -, -, -, hroot, hparent, -⟩
  have hin : twin ∈ inner.descendants := List.mem_singleton_self twin
  refine ⟨htext, by rw [hnodes]; rfl, hin, (hbelow twin htwin).1 hin, hpiece, hroot, ?_⟩
  intro hnone
  have hid : twin.id = root.id := congrArg Node.id (hparent.1 hnone)
  revert hid
  decide

end RubyTree
