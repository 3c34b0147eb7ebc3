import RubyTree.Schema.Slot

/-!
# Node types

The type of a node is a known kind or, for names outside the schema, the bare
name.  A known name never stands bare, so node types and names determine each
other.

Main results:

- `NodeType.ofName` and `NodeType.name` are inverse to each other
  (`NodeType.name_ofName`, `NodeType.ofName_name`).
- `NodeType.slots` and `NodeType.slotIndex?` extend the schema to bare names,
  which declare no slot.
-/

namespace RubyTree

/-- The type of a node. -/
inductive NodeType where
  /-- A kind of the schema. -/
  | known (kind : Kind)
  /-- A name that no kind has. -/
  | other (name : String) (unlisted : Kind.ofName? name = none)
deriving DecidableEq

namespace NodeType

/-! ## Names -/

/-- The name of a node type. -/
def name : NodeType → String
  | .known kind => kind.name
  | .other name _ => name

/-- The node type with a name. -/
def ofName (name : String) : NodeType :=
  match h : Kind.ofName? name with
  | some kind => .known kind
  | none => .other name h

/-- The kind of a node type, if the schema knows it. -/
def kind? : NodeType → Option Kind
  | .known kind => some kind
  | .other .. => none

/-- A name that a kind has is the name of that kind. -/
theorem ofName_of_some {name : String} {kind : Kind} (h : Kind.ofName? name = some kind) :
    ofName name = .known kind := by
  unfold ofName
  split
  · next k hk => rw [hk] at h; cases h; rfl
  · next hn => rw [hn] at h; cases h

/-- A name that no kind has stays bare. -/
theorem ofName_of_none {name : String} (h : Kind.ofName? name = none) :
    ofName name = .other name h := by
  unfold ofName
  split
  · next k hk => rw [hk] at h; cases h
  · rfl

/-- The node type made from a name has that name. -/
@[simp] theorem name_ofName (s : String) : (ofName s).name = s := by
  cases h : Kind.ofName? s with
  | some kind => rw [ofName_of_some h]; exact Kind.name_of_ofName? h
  | none => rw [ofName_of_none h]; rfl

/-- A node type is made from its name. -/
@[simp] theorem ofName_name (type : NodeType) : ofName type.name = type := by
  cases type with
  | known kind => exact ofName_of_some (Kind.ofName?_name kind)
  | other name h => exact ofName_of_none h

/-- Node types with the same name are the same. -/
theorem name_injective {a b : NodeType} (h : a.name = b.name) : a = b := by
  rw [← ofName_name a, ← ofName_name b, h]

/-! ## Slots -/

/-- The slots of a node type. -/
def slots : NodeType → List Slot
  | .known kind => kind.slots
  | .other .. => []

/-- The position of a slot among the children of a node type. -/
def slotIndex? : NodeType → Slot → Option Nat
  | .known kind, slot => kind.slotIndex? slot
  | .other .., _ => none

end NodeType

end RubyTree
