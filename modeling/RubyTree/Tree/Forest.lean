import RubyTree.Sexp.Printer
import RubyTree.Tree.Mark

/-!
# Forests

A forest knows the parent of each of its nodes.  A new node becomes the parent of
the nodes among its children, whatever their parents were before.  A parent can
also be set by hand, so the parent of a node need not hold it as a child.

Main results:

- `Forest.construct` adds a node, `Forest.adopt` a whole tree, and
  `Forest.setParent` points a node to another parent.
- `Forest.ancestors` and `Forest.root` walk up, and `Forest.root_eq` says that they
  end at the same node.
- `Forest.siblings`, `Forest.nextSibling` and `Forest.prevSibling` look beside a node.
-/

namespace RubyTree

/-! ## Construction -/

/-- The parents of nodes, at the numbers of the nodes. -/
structure Forest where
  /-- The parent of each node. -/
  parents : Array (Option TreeNode)

namespace Forest

/-- The forest without nodes. -/
def empty : Forest :=
  ⟨#[]⟩

/-- The number of nodes. -/
def size (forest : Forest) : Nat :=
  forest.parents.size

/-- The parent of a node. -/
def parent? (forest : Forest) (node : TreeNode) : Option TreeNode :=
  (forest.parents[node.id]?).join

/-- Points a node to a parent, or to none. -/
def setParent (forest : Forest) (node : TreeNode) (parent : Option TreeNode) : Forest :=
  ⟨forest.parents.setIfInBounds node.id parent⟩

/-- Points a value to a parent if it is a node. -/
def claim (parent : TreeNode) (forest : Forest) : TreeValue → Forest
  | .node child => forest.setParent child (some parent)
  | _ => forest

/-- A new node with the given parts, and the forest with it. -/
def construct (forest : Forest) (span : Option Text.Span) (type : NodeType)
    (children : List TreeValue) : TreeNode × Forest :=
  let node : TreeNode := ⟨⟨forest.size, span⟩, type, children⟩
  let claimed := children.foldl (claim node) forest
  (node, ⟨claimed.parents.push none⟩)

mutual

/-- The nodes of a tree as new nodes of the forest, children before their parents. -/
def adopt (forest : Forest) : Node (Option Text.Span) → TreeNode × Forest
  | ⟨span, type, children⟩ =>
    let (values, forest) := forest.adoptAll children
    forest.construct span type values

/-- The nodes of a value as new nodes of the forest. -/
def adoptValue (forest : Forest) : Value (Option Text.Span) → TreeValue × Forest
  | .lit literal => (.lit literal, forest)
  | .node node =>
    let (node, forest) := forest.adopt node
    (.node node, forest)
  | .list items =>
    let (values, forest) := forest.adoptAll items
    (.list values, forest)

/-- The nodes of values as new nodes of the forest, in order. -/
def adoptAll (forest : Forest) : List (Value (Option Text.Span)) → List TreeValue × Forest
  | [] => ([], forest)
  | item :: rest =>
    let (value, forest) := forest.adoptValue item
    let (values, forest) := forest.adoptAll rest
    (value :: values, forest)

end

/-- The nodes of a tree that was read, which have no spans, as new nodes of the forest. -/
def adoptRead (forest : Forest) (node : Node Unit) : TreeNode × Forest :=
  forest.adopt (node.map fun _ => none)

/-! ## Walking up -/

/-- At most `fuel` parents above a node, the nearest first. -/
def ancestorsWith (forest : Forest) : Nat → TreeNode → List TreeNode
  | 0, _ => []
  | fuel + 1, node =>
    match forest.parent? node with
    | none => []
    | some parent => parent :: forest.ancestorsWith fuel parent

/-- The parents above a node, the nearest first.  No chain without a cycle is longer than the
forest. -/
def ancestors (forest : Forest) (node : TreeNode) : List TreeNode :=
  forest.ancestorsWith forest.size node

/-- The node that at most `fuel` steps to a parent lead to. -/
def rootWith (forest : Forest) : Nat → TreeNode → TreeNode
  | 0, node => node
  | fuel + 1, node =>
    match forest.parent? node with
    | none => node
    | some parent => forest.rootWith fuel parent

/-- The node at the top of the chain of parents. -/
def root (forest : Forest) (node : TreeNode) : TreeNode :=
  forest.rootWith forest.size node

/-- The steps to a parent lead to the last of the parents that they meet, if they meet one. -/
theorem rootWith_eq (forest : Forest) (fuel : Nat) (node : TreeNode) :
    forest.rootWith fuel node = (forest.ancestorsWith fuel node).getLast?.getD node := by
  induction fuel generalizing node with
  | zero => rfl
  | succ fuel ih =>
    rw [rootWith, ancestorsWith]
    cases forest.parent? node with
    | none => rfl
    | some parent =>
      simp only [List.getLast?_cons, Option.getD_some]
      exact ih parent

/-- The root is the last of the ancestors, or the node itself if it has none. -/
theorem root_eq (forest : Forest) (node : TreeNode) :
    forest.root node = (forest.ancestors node).getLast?.getD node :=
  forest.rootWith_eq forest.size node

end Forest

/-! ## Looking beside a node -/

/-- Why a node has no place among siblings. -/
inductive PlaceError where
  /-- The node has no parent. -/
  | noParent (node : TreeNode)
  /-- The parent of the node does not hold it. -/
  | unlisted (node : TreeNode)

/-- The text of the refusal. -/
def PlaceError.message : PlaceError → String
  | .noParent node => node.inspect ++ " has no parent"
  | .unlisted node => node.inspect ++ " is not among its parent's children"

namespace Forest

/-- The value is the very node. -/
def isNode (node : TreeNode) : TreeValue → Bool
  | .node other => other.id = node.id
  | _ => false

/-- The position of a node among the children of its parent. -/
def position (node parent : TreeNode) : Except PlaceError Nat :=
  match parent.children.findIdx? (isNode node) with
  | some index => .ok index
  | none => .error (.unlisted node)

/-- The children of the parent behind a node. -/
def siblings (forest : Forest) (node : TreeNode) : Except PlaceError (List TreeValue) :=
  match forest.parent? node with
  | none => .error (.noParent node)
  | some parent => (position node parent).map fun index => parent.children.drop (index + 1)

/-- The child of the parent behind a node, absent if there is none. -/
def nextSibling (forest : Forest) (node : TreeNode) : Except PlaceError TreeValue :=
  match forest.parent? node with
  | none => .ok .nil
  | some parent =>
    (position node parent).map fun index => parent.children[index + 1]?.getD .nil

/-- The child of the parent before a node, absent if there is none. -/
def prevSibling (forest : Forest) (node : TreeNode) : Except PlaceError TreeValue :=
  match forest.parent? node with
  | none => .ok .nil
  | some parent =>
    (position node parent).map fun index =>
      if index = 0 then .nil else parent.children[index - 1]?.getD .nil

end Forest

end RubyTree
