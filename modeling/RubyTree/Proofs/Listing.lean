import Mathlib.Data.List.Forall2
import RubyTree.Access.Attribute
import RubyTree.Listing
import RubyTree.Proofs.Access.Answers
import RubyTree.Proofs.Tree.Places

/-!
# What a listing shows

A listing has a block of lines for every place of a tree, in pre-order: a line with the type, and
one for each declared slot.  A slot is missing only where its name means a derived property that the
type does not have, and then the property refuses the node.  This happens to two slots of the whole
schema, the arguments of `super` and the body of `kwbody`.

Main results:

- `NodeType.omits` lists the two slots, and `supports_ofSlot` measures the schema against the
  derived properties.
- `Node.Shows` says what the block of a node looks like, and `Node.exists_ownLines` that it does.
- `Node.exists_blocks`: a listing comes to its end, and is the blocks of its places.
- `Node.listing_shows` puts this together for whole trees.
-/

namespace RubyTree

variable {α : Type}

/-! ## Slots and properties -/

/-- Nodes of the type refuse a slot that they declare: its name means a derived property, which the
type does not have. -/
def NodeType.omits : NodeType → Slot → Bool
  | .known .super, .arguments => true
  | .known .kwbody, .body => true
  | _, _ => false

/-- Both of the slots that are omitted are declared. -/
theorem NodeType.omits_and_declares_iff (type : NodeType) (slot : Slot) :
    slot ∈ type.slots ∧ type.omits slot = true ↔
      type = .known .super ∧ slot = .arguments ∨ type = .known .kwbody ∧ slot = .body := by
  constructor
  · rintro ⟨-, homits⟩
    unfold omits at homits
    split at homits
    · exact .inl ⟨rfl, rfl⟩
    · exact .inr ⟨rfl, rfl⟩
    · cases homits
  · rintro (⟨rfl, rfl⟩ | ⟨rfl, rfl⟩)
    · decide
    · decide

namespace Property

/-- The name of a slot means a property. -/
theorem ofName?_label (slot : Slot) : ofName? slot.label = some (ofSlot slot) := by
  rw [ofName?, ofSlot, Slot.ofLabel?_label]
  cases Derived.ofName? slot.label <;> rfl

/-- The property of a slot is derived if its name is that of a derived property. -/
theorem isDerived_ofSlot (slot : Slot) :
    (ofSlot slot).isDerived = true ↔ slot.label ∈ Derived.all.map Derived.name := by
  have hfind : (Derived.ofName? slot.label).isSome = true ↔
      slot.label ∈ Derived.all.map Derived.name := by
    simp [Derived.ofName?, List.find?_isSome]
  rw [← hfind, ofSlot]
  cases Derived.ofName? slot.label with
  | some property => exact iff_of_true rfl rfl
  | none => exact iff_of_false Bool.false_ne_true Bool.false_ne_true

/-- The types that declare a slot have its property, but for two of them. -/
theorem supports_ofSlot {type : NodeType} {slot : Slot} (h : slot ∈ type.slots) :
    (ofSlot slot).supports type = !type.omits slot := by
  cases type with
  | known kind =>
    exact (by decide +kernel : ∀ kind ∈ Kind.all, ∀ slot ∈ kind.slots,
      (ofSlot slot).supports (.known kind) = !(NodeType.known kind).omits slot)
      kind kind.mem_all slot h
  | other name hname => cases h

/-- A declared slot is answered or, if the type omits it, refused. -/
theorem answersIf_ofSlot (node : Node α) {slot : Slot} (h : slot ∈ node.type.slots) :
    AnswersIf slot.label node ((ofSlot slot).read node) (!node.type.omits slot) := by
  rw [← supports_ofSlot h]
  exact answersIf_property (ofName?_label slot) node

/-- As an attribute, the name of a slot means its property. -/
theorem readAttribute_label (forest : Forest) (node : TreeNode) (slot : Slot) :
    forest.readAttribute node slot.label = ((ofSlot slot).read node).map .value := by
  have hfield : Field.ofName? slot.label = none :=
    (by decide +kernel : ∀ slot ∈ Slot.all, Field.ofName? slot.label = none) slot slot.mem_all
  rw [Forest.readAttribute, hfield, ofName?_label]

end Property

/-! ## Lines -/

/-- The margin of a level: two spaces for each. -/
def levelMargin (level : Nat) : String :=
  String.ofList (List.replicate (2 * level) ' ')

namespace Node

/-- The line shows a slot of a node at a level: one space behind the margin stands a star if the
name is that of a derived property, then the name, and the value of the attribute. -/
def ShowsSlot (node : Node α) (level : Nat) (slot : Slot) (line : String) : Prop :=
  ∃ value, (Property.ofSlot slot).read node = .ok value ∧
    line = levelMargin level ++ " " ++
      (if slot.label ∈ Derived.all.map Derived.name then "*" else " ") ++ slot.label ++ " = " ++
      value.brief

/-- The lines show a node at a level: the name of its type, then the slots that the type declares
and does not omit, in their order. -/
inductive Shows (node : Node α) (level : Nat) : List String → Prop
  /-- A line for the type, and one for each slot. -/
  | block {lines : List String}
      (h : List.Forall₂ (node.ShowsSlot level)
        (node.type.slots.filter fun slot => !node.type.omits slot) lines) :
      Shows node level ((levelMargin level ++ node.type.name) :: lines)

theorem listingMargin_natCast (level : Nat) : listingMargin level = levelMargin level := by
  have hwidth : (2 * (level : Int)).toNat = 2 * level := by omega
  rw [listingMargin, levelMargin, hwidth]

variable {node : Node α} {level : Nat} {slot : Slot}

/-- A declared slot that the type does not omit has one line, which shows it. -/
theorem exists_slotLine (h : slot ∈ node.type.slots) (homits : node.type.omits slot = false) :
    ∃ line, node.slotLine level slot = .ok [line] ∧ node.ShowsSlot level slot line := by
  have hanswers := Property.answersIf_ofSlot node h
  rw [homits] at hanswers
  rcases hanswers with ⟨value, hvalue⟩
  refine ⟨_, ?_, value, hvalue, rfl⟩
  simp only [slotLine, hvalue, Property.isDerived_ofSlot, listingMargin_natCast]

/-- A declared slot that the type omits is refused as unsupported, so it has no line. -/
theorem slotLine_of_omits (h : slot ∈ node.type.slots) (homits : node.type.omits slot = true) :
    node.slotLine level slot = .ok [] := by
  have hanswers := Property.answersIf_ofSlot node h
  rw [homits] at hanswers
  have hrefused : (Property.ofSlot slot).read node = .error (.unsupported slot.label node) :=
    hanswers
  simp only [slotLine, hrefused]

/-- The lines of some slots are those of the slots that the type does not omit. -/
theorem exists_slotsLines (node : Node α) (level : Nat) {slots : List Slot}
    (h : slots ⊆ node.type.slots) :
    ∃ lines, node.slotsLines level slots = .ok lines ∧
      List.Forall₂ (node.ShowsSlot level) (slots.filter fun slot => !node.type.omits slot)
        lines := by
  induction slots with
  | nil => exact ⟨[], rfl, .nil⟩
  | cons slot rest ih =>
    rcases List.cons_subset.1 h with ⟨hslot, hrest⟩
    rcases ih hrest with ⟨lines, hlines, hshows⟩
    rw [slotsLines, hlines, List.filter_cons]
    cases homits : node.type.omits slot with
    | true =>
      rw [slotLine_of_omits hslot homits]
      exact ⟨lines, rfl, hshows⟩
    | false =>
      rcases exists_slotLine hslot homits with ⟨line, hline, hfirst⟩
      rw [hline]
      exact ⟨line :: lines, rfl, .cons hfirst hshows⟩

/-- A node has lines of its own, and they show it. -/
theorem exists_ownLines (node : Node α) (level : Nat) :
    ∃ lines, node.ownLines level = .ok lines ∧ node.Shows level lines := by
  rcases node.exists_slotsLines level (List.Subset.refl _) with ⟨lines, hlines, hshows⟩
  rw [ownLines, listingMargin_natCast, hlines]
  exact ⟨_, rfl, .block hshows⟩

end Node

/-! ## Trees -/

/-- The blocks show places, each at the level that is the depth of the listing and the length of the
address together. -/
def ShowsPlaces (depth : Nat) (places : List (List Nat × Node α)) (blocks : List (List String)) :
    Prop :=
  List.Forall₂ (fun place block => place.2.Shows (depth + place.1.length) block) places blocks

/-- Places below a child stand one level deeper than in the child. -/
theorem ShowsPlaces.below {depth : Nat} {places : List (List Nat × Node α)}
    {blocks : List (List String)} (h : ShowsPlaces (depth + 1) places blocks) (position : Nat) :
    ShowsPlaces depth (places.map fun place => (position :: place.1, place.2)) blocks := by
  rw [ShowsPlaces, List.forall₂_map_left_iff]
  refine h.imp fun place block hshows => ?_
  rw [List.length_cons, Nat.add_comm _ 1, ← Nat.add_assoc]
  exact hshows

mutual

/-- A listing is one block of lines for each place. -/
theorem Node.exists_blocks (node : Node α) (depth : Nat) :
    ∃ blocks, node.listing depth = .ok blocks.flatten ∧ ShowsPlaces depth node.places blocks := by
  match node with
  | ⟨mark, type, children⟩ =>
    rcases Node.exists_ownLines ⟨mark, type, children⟩ depth with ⟨lines, hlines, hshows⟩
    rcases Value.exists_blocks children depth 0 with ⟨blocks, hblocks, hplaces⟩
    refine ⟨lines :: blocks, ?_, .cons hshows hplaces⟩
    rw [Node.listing, hlines, hblocks, joinLines_ok, List.flatten_cons]

theorem Value.exists_blocks (values : List (Value α)) (depth position : Nat) :
    ∃ blocks, Value.listings (depth + 1) values = .ok blocks.flatten ∧
      ShowsPlaces depth (Value.placesAmong position values) blocks := by
  match values with
  | [] => exact ⟨[], rfl, .nil⟩
  | .lit _ :: rest => exact Value.exists_blocks rest depth (position + 1)
  | .list _ :: rest => exact Value.exists_blocks rest depth (position + 1)
  | .node node :: rest =>
    rcases Node.exists_blocks node (depth + 1) with ⟨front, hfront, hnode⟩
    rcases Value.exists_blocks rest depth (position + 1) with ⟨back, hback, hrest⟩
    have hdepth : node.listing (depth + 1) = .ok front.flatten := hfront
    refine ⟨front ++ back, ?_, List.rel_append (hnode.below position) hrest⟩
    rw [Value.listings, hdepth, hback, joinLines_ok, List.flatten_append]

end

/-- A listing shows every node of a tree: its lines are one block for each place, in pre-order, at
the level that is the depth of the listing and the length of the address together.  The places are
the node and its descendants, with the addresses that lead to them.  A declared slot is answered, or
refused in its own name where the type omits it, so nothing else stops a listing.  Two declared
slots are omitted, the arguments of `super` and the body of `kwbody`.  The name of a slot, as an
attribute, means the property that is shown. -/
theorem Node.listing_shows (node : Node α) (depth : Nat) :
    (∃ blocks, node.listing depth = .ok blocks.flatten ∧
      List.Forall₂ (fun place block => place.2.Shows (depth + place.1.length) block)
        node.places blocks) ∧
    node.places.map Prod.snd = node :: node.descendants ∧
    (∀ place ∈ node.places, node.at? place.1 = some place.2) ∧
    (∀ (other : Node α), ∀ slot ∈ other.type.slots,
      AnswersIf slot.label other ((Property.ofSlot slot).read other)
        (!other.type.omits slot)) ∧
    (∀ (type : NodeType) (slot : Slot), slot ∈ type.slots ∧ type.omits slot = true ↔
      type = .known .super ∧ slot = .arguments ∨ type = .known .kwbody ∧ slot = .body) ∧
    (∀ (forest : Forest) (other : TreeNode) (slot : Slot),
      forest.readAttribute other slot.label = ((Property.ofSlot slot).read other).map .value) := by
  refine ⟨node.exists_blocks depth, node.map_snd_places, ?_, ?_, NodeType.omits_and_declares_iff,
    Property.readAttribute_label⟩
  · intro place hplace
    exact Node.mem_places_iff.1 hplace
  · intro other slot hslot
    exact Property.answersIf_ofSlot other hslot

/-- A call to `super` below a hash: its block has no line for the arguments that it declares. -/
theorem Node.listing_shows_super :
    let number : Node Unit := ⟨(), .known .int, [.lit (.int 1)]⟩
    let call : Node Unit := ⟨(), .known .super, [.node number]⟩
    let root : Node Unit := ⟨(), .known .hash, [.lit .nil, .node call]⟩
    Slot.arguments ∈ call.type.slots ∧ call.type.omits .arguments = true ∧
      (Property.ofSlot .arguments).read call = .error (.unsupported "arguments" call) ∧
      ∃ top middle bottom, root.listing 1 = .ok (top ++ middle ++ bottom) ∧
        root.Shows 1 top ∧ middle = ["    super"] ∧ number.Shows 3 bottom := by
  intro number call root
  rcases Node.listing_shows root 1 with ⟨⟨blocks, hlisting, hblocks⟩, -, -, hanswers, -⟩
  have hslot : Slot.arguments ∈ call.type.slots := by decide
  have hplaces : root.places = [([], root), ([1], call), ([1, 0], number)] := rfl
  rw [hplaces] at hblocks
  rcases List.forall₂_cons_left_iff.1 hblocks with ⟨top, _, htop, hbelow, rfl⟩
  rcases List.forall₂_cons_left_iff.1 hbelow with ⟨middle, _, hmiddle, hrest, rfl⟩
  rcases List.forall₂_cons_left_iff.1 hrest with ⟨bottom, _, hbottom, hnone, rfl⟩
  cases hnone
  have hcall : middle = ["    super"] := by
    rcases hmiddle with ⟨hlines⟩
    cases hlines
    rfl
  exact ⟨hslot, rfl, hanswers call .arguments hslot, top, middle, bottom, by simpa using hlisting,
    htop, hcall, hbottom⟩

end RubyTree
