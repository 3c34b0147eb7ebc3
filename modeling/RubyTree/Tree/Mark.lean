import RubyTree.Text.Span
import RubyTree.Tree.Node

/-!
# Marks of nodes

The nodes of a forest are told apart by numbers, which are given in the order of
construction.  A node also remembers the span of the source that it came from.

Main results:

- `Mark` is the mark of a node in a forest.
- `Node.source?` is the source text of a node that has a span.
-/

namespace RubyTree

/-- What a node of a forest is marked with. -/
structure Mark where
  /-- The number of the node. -/
  id : Nat
  /-- The place of the node in its source. -/
  span : Option Text.Span
deriving DecidableEq

/-- A node of a forest. -/
abbrev TreeNode :=
  Node Mark

/-- A value whose nodes belong to a forest. -/
abbrev TreeValue :=
  Value Mark

namespace Node

/-- The number of a node. -/
def id (node : TreeNode) : Nat :=
  node.mark.id

/-- The place of a node in its source. -/
def span? (node : TreeNode) : Option Text.Span :=
  node.mark.span

/-- The exact text that a node came from. -/
def source? (node : TreeNode) : Option String :=
  node.span?.map Text.Span.text

end Node

end RubyTree
