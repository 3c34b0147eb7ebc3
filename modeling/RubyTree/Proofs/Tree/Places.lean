import RubyTree.Tree.Node

/-!
# Places in a tree

One node may stand at several places of a tree.  A place is told by its address: the
positions of the children on the way down from the root, and so as many of them as
the place is levels below the root.  The pre-order list of the nodes is the list of
the places with their addresses left out.

Main results:

- `Node.at?` is the node at an address.
- `Node.mem_places_iff`: the places of a tree are the addresses with a node.
- `Node.pairwise_places`: they are listed in the order of their addresses, none twice.
- `Node.map_snd_places`: their nodes are the root and its descendants, in order.
-/

namespace RubyTree

variable {α : Type}

/-! ## Addresses -/

/-- The node at an address: the root, or what is at the rest of the address in a child. -/
def Node.at? (node : Node α) : List Nat → Option (Node α)
  | [] => some node
  | position :: address =>
    match node.children[position]? with
    | some (.node child) => child.at? address
    | _ => none

mutual

/-- The places of a tree, each before those below it. -/
def Node.places : Node α → List (List Nat × Node α)
  | ⟨mark, type, children⟩ => ([], ⟨mark, type, children⟩) :: Value.placesAmong 0 children

/-- The places in some children, the first of which has the given position. -/
def Value.placesAmong (position : Nat) : List (Value α) → List (List Nat × Node α)
  | [] => []
  | .node node :: rest =>
    node.places.map (fun place => (position :: place.1, place.2)) ++
      Value.placesAmong (position + 1) rest
  | .lit _ :: rest => Value.placesAmong (position + 1) rest
  | .list _ :: rest => Value.placesAmong (position + 1) rest

end

/-! ## Nodes of places -/

mutual

/-- Without their addresses, the places are the nodes in pre-order. -/
theorem Node.map_snd_places (node : Node α) :
    node.places.map Prod.snd = node :: node.descendants := by
  match node with
  | ⟨mark, type, children⟩ =>
    rw [Node.places, List.map_cons, Value.map_snd_placesAmong 0 children, Node.descendants]

theorem Value.map_snd_placesAmong (position : Nat) (values : List (Value α)) :
    (Value.placesAmong position values).map Prod.snd = Value.nodesAmong values := by
  match values with
  | [] => rfl
  | .node node :: rest =>
    rw [Value.placesAmong, List.map_append, Value.map_snd_placesAmong (position + 1) rest,
      List.map_map, Value.nodesAmong, ← Node.map_snd_places node]
    rfl
  | .lit _ :: rest => exact Value.map_snd_placesAmong (position + 1) rest
  | .list _ :: rest => exact Value.map_snd_placesAmong (position + 1) rest

end

/-! ## Addresses of places -/

/-- A place in some children is a place in one of them, behind the position of this one. -/
theorem Value.mem_placesAmong_iff {values : List (Value α)} {first : Nat}
    {place : List Nat × Node α} :
    place ∈ Value.placesAmong first values ↔
      ∃ child position, (.node child, position) ∈ values.zipIdx first ∧
        ∃ below ∈ child.places, (position :: below.1, below.2) = place := by
  induction values generalizing first with
  | nil => simp [Value.placesAmong]
  | cons value rest ih =>
    cases value with
    | lit literal => simp [Value.placesAmong, ih]
    | list items => simp [Value.placesAmong, ih]
    | node node =>
      rw [Value.placesAmong, List.mem_append, List.mem_map, ih]
      constructor
      · rintro (hhere | ⟨child, position, hchild, hbelow⟩)
        · exact ⟨node, first, List.mem_cons_self, hhere⟩
        · exact ⟨child, position, List.mem_cons_of_mem _ hchild, hbelow⟩
      · rintro ⟨child, position, hchild, hbelow⟩
        rcases List.mem_cons.1 hchild with hhere | hrest
        · cases hhere
          exact .inl hbelow
        · exact .inr ⟨child, position, hrest, hbelow⟩

namespace Node

theorem mem_places_nil {node other : Node α} : ([], other) ∈ node.places ↔ node = other := by
  rcases node with ⟨mark, type, children⟩
  rw [Node.places, List.mem_cons, Value.mem_placesAmong_iff]
  simp [eq_comm]

theorem mem_places_cons {node other : Node α} {position : Nat} {address : List Nat} :
    (position :: address, other) ∈ node.places ↔
      ∃ child, node.children[position]? = some (.node child) ∧ (address, other) ∈ child.places := by
  rcases node with ⟨mark, type, children⟩
  rw [Node.places, List.mem_cons, Value.mem_placesAmong_iff]
  simp [List.mk_mem_zipIdx_iff_getElem?]

/-- A node is listed with an address exactly when it is the node at the address. -/
theorem mem_places_iff {node other : Node α} {address : List Nat} :
    (address, other) ∈ node.places ↔ node.at? address = some other := by
  induction address generalizing node with
  | nil => rw [mem_places_nil, at?, Option.some.injEq]
  | cons position address ih =>
    rw [mem_places_cons, at?]
    constructor
    · rintro ⟨child, hchild, hbelow⟩
      rw [hchild]
      exact ih.1 hbelow
    · intro h
      split at h
      · next child hchild => exact ⟨child, hchild, ih.2 h⟩
      · cases h

end Node

/-! ## The order of places -/

mutual

/-- The places of a tree are listed in the order of their addresses. -/
theorem Node.pairwise_places (node : Node α) :
    node.places.Pairwise fun place next => place.1 < next.1 := by
  match node with
  | ⟨mark, type, children⟩ =>
    rw [Node.places, List.pairwise_cons]
    refine ⟨?_, Value.pairwise_placesAmong 0 children⟩
    intro place hplace
    rcases Value.mem_placesAmong_iff.1 hplace with ⟨child, position, -, below, -, rfl⟩
    exact List.nil_lt_cons _ _

theorem Value.pairwise_placesAmong (first : Nat) (values : List (Value α)) :
    (Value.placesAmong first values).Pairwise fun place next => place.1 < next.1 := by
  match values with
  | [] => exact .nil
  | .node node :: rest =>
    rw [Value.placesAmong, List.pairwise_append]
    refine ⟨?_, Value.pairwise_placesAmong (first + 1) rest, ?_⟩
    · rw [List.pairwise_map]
      refine (Node.pairwise_places node).imp ?_
      intro place next h
      exact List.cons_lt_cons_iff.2 (.inr ⟨rfl, h⟩)
    · intro place hplace next hnext
      rcases List.mem_map.1 hplace with ⟨below, -, rfl⟩
      rcases Value.mem_placesAmong_iff.1 hnext with ⟨child, position, hposition, other, -, rfl⟩
      have hle : first + 1 ≤ position := List.le_snd_of_mem_zipIdx hposition
      exact List.cons_lt_cons_iff.2 (.inl hle)
  | .lit _ :: rest => exact Value.pairwise_placesAmong (first + 1) rest
  | .list _ :: rest => exact Value.pairwise_placesAmong (first + 1) rest

end

end RubyTree
