import RubyTree.Schema.NodeType
import RubyTree.Tree.Literal

/-!
# Nodes

A node has a type and a list of children.  A child is a literal, a node, or a
list of such values.  Every node carries a mark of some type `α`: bare trees
are marked with nothing, the nodes of a forest with what tells them apart.
Two nodes with the same marks, types and children are the same; equality in the
looser sense of literals does not look at the marks.

Main results:

- `Node.descendants` lists the nodes below a node in pre-order, and
  `Node.childNodes` those directly below.
- `Node.equal` and `Value.equal` extend the numeric equality of literals.
- `Node.map` changes the marks, and `Node.bare` forgets them.
-/

namespace RubyTree

mutual

/-- A node of a syntax tree. -/
structure Node (α : Type) where
  /-- What the node is marked with. -/
  mark : α
  /-- The type of the node. -/
  type : NodeType
  /-- The children, in order. -/
  children : List (Value α)

/-- A child of a node, or the answer to a question about one. -/
inductive Value (α : Type) where
  /-- A literal. -/
  | lit (literal : Literal)
  /-- A node. -/
  | node (node : Node α)
  /-- A list of values. -/
  | list (items : List (Value α))

end

variable {α β : Type}

namespace Value

/-- The absent value. -/
def nil : Value α :=
  .lit .nil

/-- The node that a value is. -/
def node? : Value α → Option (Node α)
  | .node n => some n
  | _ => none

/-- The value is absent. -/
def isNil : Value α → Bool
  | .lit .nil => true
  | _ => false

/-- A node, or the absent value in place of none. -/
def ofNode? : Option (Node α) → Value α
  | some n => .node n
  | none => .nil

/-- A list of nodes as a value. -/
def ofNodes (nodes : List (Node α)) : Value α :=
  .list (nodes.map .node)

end Value

/-! ## Descendants -/

namespace Node

/-- The node has the type of a kind. -/
def hasKind (node : Node α) (kind : Kind) : Bool :=
  node.type = .known kind

/-- The children that are nodes. -/
def childNodes (node : Node α) : List (Node α) :=
  node.children.filterMap Value.node?

end Node

mutual

/-- The nodes below a node, each before those below it. -/
def Node.descendants : Node α → List (Node α)
  | ⟨_, _, children⟩ => Value.nodesAmong children

/-- The nodes among the values of a list, each followed by those below it. -/
def Value.nodesAmong : List (Value α) → List (Node α)
  | [] => []
  | .node node :: rest => node :: node.descendants ++ Value.nodesAmong rest
  | .lit _ :: rest => Value.nodesAmong rest
  | .list _ :: rest => Value.nodesAmong rest

end

/-! ## Equality -/

mutual

/-- Two nodes are equal: they have the same type and equal children.  Children are compared by
`Value.equal` also where both are one object. -/
def Node.equal : Node α → Node β → Bool
  | ⟨_, a, as⟩, ⟨_, b, bs⟩ => a = b && Value.equalAll as bs

/-- Two values are equal: as literals, as nodes, or item by item.  The shortcut of the platform that
takes one object as equal to itself without a look at it is left out; the two differ only for the
value that is not a number, and for nodes and lists that hold it. -/
def Value.equal : Value α → Value β → Bool
  | .lit a, .lit b => a.equal b
  | .node a, .node b => a.equal b
  | .list as, .list bs => Value.equalAll as bs
  | _, _ => false

/-- Two lists of values are equal item by item. -/
def Value.equalAll : List (Value α) → List (Value β) → Bool
  | [], [] => true
  | a :: as, b :: bs => a.equal b && Value.equalAll as bs
  | _, _ => false

end

/-! ## Hashing -/

mutual

/-- The node can be hashed: no list stands below it. -/
def Node.isHashable : Node α → Bool
  | ⟨_, _, children⟩ => Value.allHashable children

/-- The value can be hashed: it is no list and has none below it. -/
def Value.isHashable : Value α → Bool
  | .lit _ => true
  | .node node => node.isHashable
  | .list _ => false

/-- All values can be hashed. -/
def Value.allHashable : List (Value α) → Bool
  | [] => true
  | item :: rest => item.isHashable && Value.allHashable rest

end

/-! ## Marks -/

mutual

/-- The same tree with other marks. -/
def Node.map (f : α → β) : Node α → Node β
  | ⟨mark, type, children⟩ => ⟨f mark, type, Value.mapAll f children⟩

/-- The same value with other marks. -/
def Value.map (f : α → β) : Value α → Value β
  | .lit literal => .lit literal
  | .node node => .node (node.map f)
  | .list items => .list (Value.mapAll f items)

/-- The same values with other marks. -/
def Value.mapAll (f : α → β) : List (Value α) → List (Value β)
  | [] => []
  | item :: rest => item.map f :: Value.mapAll f rest

end

/-- The tree without marks. -/
def Node.bare (node : Node α) : Node Unit :=
  node.map fun _ => ()

end RubyTree
