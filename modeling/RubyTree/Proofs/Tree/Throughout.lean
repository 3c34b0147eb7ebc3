import Mathlib.Data.List.Basic
import RubyTree.Tree.Node

/-!
# Properties throughout a tree

A property of types and one of literals hold throughout a tree if they hold at every
node.  The first form is a recursion along the tree, the second one speaks of the
nodes that the tree lists.

Main results:

- `Node.Holds` is the recursion, and `Node.holds_iff` says it of each node.
- `Node.map_map` and `Node.isHashable_map` say what other marks do to a tree.
- `Node.bare_unit`: a tree without marks has none to lose.
-/

namespace RubyTree

variable {α : Type}

/-! ## Types and literals -/

/-- The property of literals holds of the value, if it is a literal; no list has it. -/
def Value.LeafHolds (onLiteral : Literal → Prop) : Value α → Prop
  | .lit literal => onLiteral literal
  | .node _ => True
  | .list _ => False

mutual

/-- The properties hold of all types and literals of a tree, which has no lists. -/
def Node.Holds (onType : NodeType → Prop) (onLiteral : Literal → Prop) : Node α → Prop
  | ⟨_, type, children⟩ => onType type ∧ Value.AllHold onType onLiteral children

/-- The properties hold of all types and literals of some values. -/
def Value.AllHold (onType : NodeType → Prop) (onLiteral : Literal → Prop) : List (Value α) → Prop
  | [] => True
  | .lit literal :: rest => onLiteral literal ∧ Value.AllHold onType onLiteral rest
  | .node node :: rest => node.Holds onType onLiteral ∧ Value.AllHold onType onLiteral rest
  | .list _ :: _ => False

end

variable {onType : NodeType → Prop} {onLiteral : Literal → Prop}

mutual

/-- The properties hold throughout a tree exactly when they hold at each of its nodes. -/
theorem Node.holds_iff (node : Node α) :
    node.Holds onType onLiteral ↔ ∀ m ∈ node :: node.descendants,
      onType m.type ∧ ∀ child ∈ m.children, child.LeafHolds onLiteral := by
  match node with
  | ⟨mark, type, children⟩ =>
    rw [Node.Holds, Value.allHold_iff children, List.forall_mem_cons, Node.descendants, and_assoc]

/-- The properties hold throughout some values exactly when they hold of the literals among them
and at each of the nodes. -/
theorem Value.allHold_iff (children : List (Value α)) :
    Value.AllHold onType onLiteral children ↔
      (∀ child ∈ children, child.LeafHolds onLiteral) ∧
        ∀ m ∈ Value.nodesAmong children,
          onType m.type ∧ ∀ child ∈ m.children, child.LeafHolds onLiteral := by
  match children with
  | [] => simp [Value.AllHold, Value.nodesAmong]
  | .lit literal :: rest =>
    rw [Value.AllHold, Value.allHold_iff rest, List.forall_mem_cons, Value.nodesAmong, and_assoc]
    rfl
  | .node node :: rest =>
    have hleaf : (∀ child ∈ .node node :: rest, child.LeafHolds onLiteral) ↔
        ∀ child ∈ rest, child.LeafHolds onLiteral :=
      List.forall_mem_cons.trans (and_iff_right trivial)
    rw [Value.AllHold, Node.holds_iff node, Value.allHold_iff rest, hleaf, Value.nodesAmong,
      List.forall_mem_append]
    exact and_left_comm
  | .list items :: rest => simp [Value.AllHold, Value.LeafHolds]

end

mutual

/-- Where literals have a property throughout, no list stands. -/
theorem Node.Holds.isHashable {node : Node α} (h : node.Holds onType onLiteral) :
    node.isHashable = true := by
  match node with
  | ⟨mark, type, children⟩ => exact Value.AllHold.allHashable h.2

theorem Value.AllHold.allHashable {values : List (Value α)}
    (h : Value.AllHold onType onLiteral values) : Value.allHashable values = true := by
  match values with
  | [] => rfl
  | .lit literal :: rest =>
    have hrest := Value.AllHold.allHashable h.2
    exact hrest
  | .node node :: rest =>
    rw [Value.allHashable, Value.isHashable, Node.Holds.isHashable h.1,
      Value.AllHold.allHashable h.2]
    rfl
  | .list items :: rest => exact h.elim

end

/-! ## Marks -/

section Map

variable {β γ : Type}

mutual

/-- Marks that are changed twice can be changed at once. -/
theorem Node.map_map (g : β → γ) (f : α → β) (node : Node α) :
    (node.map f).map g = node.map (g ∘ f) := by
  match node with
  | ⟨mark, type, children⟩ =>
    rw [Node.map, Node.map, Value.mapAll_mapAll g f children, Node.map]
    rfl

theorem Value.map_map (g : β → γ) (f : α → β) (value : Value α) :
    (value.map f).map g = value.map (g ∘ f) := by
  match value with
  | .lit literal => rfl
  | .node node => rw [Value.map, Value.map, Node.map_map g f node, Value.map]
  | .list items => rw [Value.map, Value.map, Value.mapAll_mapAll g f items, Value.map]

theorem Value.mapAll_mapAll (g : β → γ) (f : α → β) (values : List (Value α)) :
    Value.mapAll g (Value.mapAll f values) = Value.mapAll (g ∘ f) values := by
  match values with
  | [] => rfl
  | value :: rest =>
    rw [Value.mapAll, Value.mapAll, Value.map_map g f value, Value.mapAll_mapAll g f rest,
      Value.mapAll]

end

mutual

/-- Other marks do not make a tree hashable. -/
theorem Node.isHashable_map (f : α → β) (node : Node α) :
    (node.map f).isHashable = node.isHashable := by
  match node with
  | ⟨mark, type, children⟩ => exact Value.allHashable_mapAll f children

theorem Value.isHashable_map (f : α → β) (value : Value α) :
    (value.map f).isHashable = value.isHashable := by
  match value with
  | .lit literal => rfl
  | .node node => exact Node.isHashable_map f node
  | .list items => rfl

theorem Value.allHashable_mapAll (f : α → β) (values : List (Value α)) :
    Value.allHashable (Value.mapAll f values) = Value.allHashable values := by
  match values with
  | [] => rfl
  | value :: rest =>
    rw [Value.mapAll, Value.allHashable, Value.isHashable_map f value,
      Value.allHashable_mapAll f rest, Value.allHashable]

end

end Map

mutual

/-- A tree without marks stays as it is without its marks. -/
theorem Node.bare_unit (node : Node Unit) : node.bare = node := by
  match node with
  | ⟨(), type, children⟩ => rw [Node.bare, Node.map, Value.mapAll_unit children]

theorem Value.map_unit (value : Value Unit) : value.map (fun _ => ()) = value := by
  match value with
  | .lit literal => rfl
  | .node node => rw [Value.map, ← Node.bare, Node.bare_unit node]
  | .list items => rw [Value.map, Value.mapAll_unit items]

theorem Value.mapAll_unit (values : List (Value Unit)) :
    Value.mapAll (fun _ => ()) values = values := by
  match values with
  | [] => rfl
  | value :: rest => rw [Value.mapAll, Value.map_unit value, Value.mapAll_unit rest]

end

end RubyTree
