import RubyTree.Access.Error

/-!
# Values of literal nodes

A literal node stands for a value: numbers, strings and symbols for their last
child, `true`, `false` and `nil` for themselves, an array for the values of its
elements, and a group for the value of its first statement.  Every other node
stands for itself.

Main results:

- `NodeType.reading` says which of these a type calls for.
- `Node.toValue` is the value; it fails only on a literal node without children.
-/

namespace RubyTree

variable {α : Type}

/-- How the value of a node is found. -/
inductive ValueReading where
  /-- The last child. -/
  | lastChild
  /-- A fixed literal. -/
  | constant (literal : Literal)
  /-- The values of all children, in a list. -/
  | allChildren
  /-- The value of the first child. -/
  | firstChild
  /-- The node itself. -/
  | itself
deriving DecidableEq

/-- How the value of a node of the type is found. -/
def NodeType.reading : NodeType → ValueReading
  | .known .int => .lastChild
  | .known .float => .lastChild
  | .known .str => .lastChild
  | .known .sym => .lastChild
  | .known .true => .constant (.bool true)
  | .known .false => .constant (.bool false)
  | .known .nil => .constant .nil
  | .known .array => .allChildren
  | .known .begin => .firstChild
  | .known .kwbegin => .firstChild
  | _ => .itself

mutual

/-- The value that a node stands for. -/
def Node.toValue : Node α → Except (AccessError α) (Value α)
  | ⟨mark, type, children⟩ =>
    match type.reading with
    | .lastChild =>
      match children.getLast? with
      | some value => .ok value
      | none => .error .emptyLiteral
    | .constant literal => .ok (.lit literal)
    | .allChildren =>
      match Value.toValues children with
      | .ok values => .ok (.list values)
      | .error cause => .error cause
    | .firstChild =>
      match children with
      | [] => .ok .nil
      | first :: _ => first.toValue
    | .itself => .ok (.node ⟨mark, type, children⟩)

/-- The value that a child stands for: a literal stands for itself. -/
def Value.toValue : Value α → Except (AccessError α) (Value α)
  | .node node => node.toValue
  | .lit literal => .ok (.lit literal)
  | .list items => .ok (.list items)

/-- The values that children stand for, or the first failure. -/
def Value.toValues : List (Value α) → Except (AccessError α) (List (Value α))
  | [] => .ok []
  | item :: rest =>
    match item.toValue with
    | .error cause => .error cause
    | .ok value =>
      match Value.toValues rest with
      | .error cause => .error cause
      | .ok values => .ok (value :: values)

end

end RubyTree
