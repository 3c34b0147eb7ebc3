import RubyTree.Proofs.Sexp.SecondReading
import RubyTree.Proofs.Tree.Construction

/-!
# Sessions

A session constructs nodes one after the other, over literals and nodes that it has
already, and reads texts.  A node may be listed by many others, or twice by one.  The
nodes of a text that is read are constructed with it, children before their parents.

Main results:

- `Session.Reachable` are the sessions, and `Session.Reachable.builds` says that they
  do nothing but construct.
- `Session.Reachable.links_sound`: the parent of a node is the last node that lists it,
  every walk up ends, and siblings are refused only to a node that none lists.
-/

namespace RubyTree

open RubyTree.Sexp

/-- A forest with all nodes that were constructed in it, in the order of their construction. -/
structure Session where
  /-- The parents of the nodes. -/
  forest : Forest
  /-- The nodes. -/
  nodes : List TreeNode

namespace Session

/-- The session before anything is constructed. -/
def fresh : Session :=
  ⟨.empty, []⟩

/-- Constructs a node. -/
def construct (session : Session) (span : Option Text.Span) (type : NodeType)
    (children : List TreeValue) : Session :=
  let (node, forest) := session.forest.construct span type children
  ⟨forest, session.nodes ++ [node]⟩

/-- Reads a text.  Nothing is left of a text that is refused. -/
def read (session : Session) (text : String) : Session :=
  match Node.ofText text with
  | .error _ => session
  | .ok tree =>
    let (root, forest) := session.forest.adoptRead tree
    ⟨forest, session.nodes ++ root.bottomUp⟩

/-- The sessions that constructions over literals and existing nodes lead to, and readings. -/
inductive Reachable : Session → Prop
  /-- Nothing is constructed yet. -/
  | fresh : Reachable fresh
  /-- A node is constructed. -/
  | construct {session : Session} (h : Reachable session) (span : Option Text.Span)
      (type : NodeType) {children : List TreeValue}
      (hchildren : ∀ child ∈ children, child.IsFrom session.nodes) :
      Reachable (session.construct span type children)
  /-- A text is read. -/
  | read {session : Session} (h : Reachable session) (text : String) :
      Reachable (session.read text)

end Session

/-- Adopting a tree that was read constructs its nodes. -/
theorem Builds.adoptRead {start forest : Forest} {nodes : List TreeNode}
    (h : Builds start nodes forest) {text : String} {tree : Node Unit}
    (htree : Node.ofText text = .ok tree) :
    Builds start (nodes ++ (forest.adoptRead tree).1.bottomUp) (forest.adoptRead tree).2 := by
  refine h.adopt (tree.map fun _ => none) ?_
  rw [Node.isHashable_map]
  exact (ofText_holds htree).isHashable

namespace Session

/-- A session is nothing but constructions, one after the other. -/
theorem Reachable.builds {session : Session} (h : session.Reachable) :
    Builds .empty session.nodes session.forest := by
  induction h with
  | fresh => exact .start
  | construct h span type hchildren ih => exact ih.construct span type hchildren
  | @read session h text ih =>
    rw [Session.read]
    cases htext : Node.ofText text with
    | error cause => exact ih
    | ok tree => exact ih.adoptRead htext

/-- Links are sound in every session.  Nodes are numbered in the order of their construction, and
the child nodes of a node are nodes of the session.  The parent of a node is the last one that
lists it; there is none exactly if no node does, and it was constructed later.  The walk up comes
to an end; it meets the ancestors, none of them twice and never the node itself, and stops at the
root, which is the last of them or the node if it has none.  The siblings of a node are refused
exactly if no node lists it, and then for want of a parent. -/
theorem Reachable.links_sound {session : Session} (h : session.Reachable) :
    session.nodes.map Node.id = List.range session.nodes.length ∧
      ∀ node ∈ session.nodes,
        (∀ child ∈ node.childNodes, child ∈ session.nodes) ∧
        session.forest.parent? node = lastLister? session.nodes node ∧
        (session.forest.parent? node = none ↔
          ∀ other ∈ session.nodes, other.lists node = false) ∧
        (∀ parent, session.forest.parent? node = some parent →
          parent ∈ session.nodes ∧ node.id < parent.id) ∧
        session.forest.Climbs node (session.forest.ancestors node) ∧
        ((node :: session.forest.ancestors node).map Node.id).Nodup ∧
        session.forest.root node = (session.forest.ancestors node).getLast?.getD node ∧
        session.forest.parent? (session.forest.root node) = none ∧
        ∀ cause, session.forest.siblings node = .error cause ↔
          cause = .noParent node ∧ ∀ other ∈ session.nodes, other.lists node = false := by
  have hbuilds := h.builds
  refine ⟨by rw [hbuilds.map_id.1, List.range_eq_range']; rfl, fun node hmem => ?_⟩
  have hnode := (hbuilds.id_mem hmem).1
  have hparent := hbuilds.parent?_eq hnode
  have hnone : session.forest.parent? node = none ↔
      ∀ other ∈ session.nodes, other.lists node = false := by
    rw [hparent, lastLister?_eq_none]
  have hclimbs := hbuilds.climbs hnode
  have hroot := session.forest.root_eq node
  have htop : session.forest.parent? (session.forest.root node) = none := by
    rw [hroot]
    exact hclimbs.parent?_last
  refine ⟨fun child hchild => (hbuilds.child_lt hmem hchild).1, hparent, hnone, ?_, hclimbs,
    hbuilds.nodup_ancestors hnode, hroot, htop, fun cause => ?_⟩
  · intro parent hsome
    rcases hbuilds.of_parent? hnode hsome with ⟨hin, -, hlt⟩
    exact ⟨hin, hlt⟩
  · rw [hbuilds.siblings_eq_error_iff hnode, hnone]

/-- A node that is listed twice by one node and, after a text is read, by another one. -/
theorem links_sound_shared :
    let leaf : TreeNode := ⟨⟨0, none⟩, .known .nil, []⟩
    let twice : TreeNode := ⟨⟨1, none⟩, .known .begin, [.node leaf, .lit (.int 1), .node leaf]⟩
    let last : TreeNode := ⟨⟨4, none⟩, .known .array, [.node twice, .node leaf]⟩
    let early := (fresh.construct none leaf.type []).construct none twice.type twice.children
    let session := (early.read "(send (nil))").construct none last.type last.children
    session.Reachable ∧ leaf ∈ session.nodes ∧ last ∈ session.nodes ∧
      session.forest.parent? leaf = some last ∧
      session.forest.Climbs leaf [last] ∧
      session.forest.parent? (session.forest.root leaf) = none ∧
      session.forest.siblings last = .error (.noParent last) := by
  intro leaf twice last early session
  let below : TreeNode := ⟨⟨2, none⟩, .known .nil, []⟩
  let above : TreeNode := ⟨⟨3, none⟩, .known .send, [.node below]⟩
  have htext : Node.ofText "(send (nil))" =
      .ok ⟨(), .known .send, [.node ⟨(), .known .nil, []⟩]⟩ := by
    with_unfolding_all rfl
  have hfirst : fresh.construct none leaf.type [] = ⟨⟨#[none]⟩, [leaf]⟩ := rfl
  have hearly : early = ⟨⟨#[some twice, none]⟩, [leaf, twice]⟩ := rfl
  have hread : early.read "(send (nil))" =
      ⟨⟨#[some twice, none, some above, none]⟩, [leaf, twice, below, above]⟩ := by
    rw [Session.read, htext, hearly]
    rfl
  have hsession : session = ⟨⟨#[some last, some last, some above, none, none]⟩,
      [leaf, twice, below, above, last]⟩ := by
    simp only [session, hread]
    rfl
  have hreachable : session.Reachable := by
    have hleaf : (fresh.construct none leaf.type []).Reachable :=
      Reachable.fresh.construct none leaf.type (by simp)
    have htwice : early.Reachable :=
      hleaf.construct none twice.type (by rw [hfirst]; simp [twice, Value.IsFrom])
    exact (htwice.read _).construct none last.type (by rw [hread]; simp [last, Value.IsFrom])
  have hleaf : leaf ∈ session.nodes := by rw [hsession]; simp
  have hlast : last ∈ session.nodes := by rw [hsession]; simp
  rcases hreachable.links_sound.2 leaf hleaf with ⟨-, hparent, -, -, hclimbs, -, -, hroot, -⟩
  rcases hreachable.links_sound.2 last hlast with ⟨-, -, -, -, -, -, -, -, hsiblings⟩
  have hlister : lastLister? session.nodes leaf = some last := by rw [hsession]; rfl
  have hancestors : session.forest.ancestors leaf = [last] := by rw [hsession]; rfl
  have hunlisted : ∀ other ∈ session.nodes, other.lists last = false := by
    rw [hsession]
    decide
  exact ⟨hreachable, hleaf, hlast, hparent.trans hlister, hancestors ▸ hclimbs, hroot,
    (hsiblings _).2 ⟨rfl, hunlisted⟩⟩

end Session

end RubyTree
