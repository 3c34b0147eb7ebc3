import RubyTree.Access.Property

/-!
# Listing the slots of a tree

A listing shows every node of a tree in pre-order: a line with its type, then a
line for each of its slots with the value, then its child nodes one level deeper.
A star marks the slots that are derived.  A slot that the type declares but does
not support is left out; any other refusal stops the listing.

Main results:

- `Value.brief` is the form of a value in a listing.
- `Node.ownLines` lists one node and `Node.listing` a tree.
-/

namespace RubyTree

variable {α : Type}

mutual

/-- The form of a value in a listing: of a node only the type. -/
def Value.brief : Value α → String
  | .node n => "(" ++ n.type.name ++ " ...)"
  | .list items => "[" ++ ", ".intercalate (Value.briefAll items) ++ "]"
  | .lit literal => String.ofList literal.spelling

/-- The forms of values in a listing. -/
def Value.briefAll : List (Value α) → List String
  | [] => []
  | item :: rest => item.brief :: Value.briefAll rest

end

/-- The spaces before a line at a depth; below zero there are none. -/
def listingMargin (depth : Int) : String :=
  String.ofList (List.replicate (2 * depth).toNat ' ')

/-- The lines of two parts, or the error of the first part that has one. -/
def joinLines (front back : Except (AccessError α) (List String)) :
    Except (AccessError α) (List String) :=
  match front with
  | .error cause => .error cause
  | .ok lines => back.map (lines ++ ·)

@[simp] theorem joinLines_ok (front back : List String) :
    joinLines (.ok front : Except (AccessError α) (List String)) (.ok back) =
      .ok (front ++ back) :=
  rfl

namespace Node

/-- The line of a slot, or none where the type does not support it. -/
def slotLine (node : Node α) (depth : Int) (slot : Slot) :
    Except (AccessError α) (List String) :=
  let property := Property.ofSlot slot
  match property.read node with
  | .ok value =>
    .ok [listingMargin depth ++ " " ++ (if property.isDerived then "*" else " ") ++ slot.label ++
      " = " ++ value.brief]
  | .error (.unsupported _ _) => .ok []
  | .error cause => .error cause

/-- The lines of some slots. -/
def slotsLines (node : Node α) (depth : Int) : List Slot → Except (AccessError α) (List String)
  | [] => .ok []
  | slot :: rest => joinLines (node.slotLine depth slot) (node.slotsLines depth rest)

/-- The lines of a node without those of its child nodes. -/
def ownLines (node : Node α) (depth : Int) : Except (AccessError α) (List String) :=
  joinLines (.ok [listingMargin depth ++ node.type.name]) (node.slotsLines depth node.type.slots)

end Node

mutual

/-- The lines of a tree at a depth. -/
def Node.listing (depth : Int) : Node α → Except (AccessError α) (List String)
  | ⟨mark, type, children⟩ =>
    joinLines (Node.ownLines ⟨mark, type, children⟩ depth) (Value.listings (depth + 1) children)

/-- The lines of the nodes among values. -/
def Value.listings (depth : Int) : List (Value α) → Except (AccessError α) (List String)
  | [] => .ok []
  | .node node :: rest => joinLines (node.listing depth) (Value.listings depth rest)
  | .lit _ :: rest => Value.listings depth rest
  | .list _ :: rest => Value.listings depth rest

end

end RubyTree
