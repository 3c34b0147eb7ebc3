import Mathlib.Data.Set.Basic
import Mathlib.Logic.Relation
import Mathlib.Order.Bounds.Defs
import RubyTree.Proofs.Access.Answers
import RubyTree.Proofs.Access.Parts

/-!
# Lookups in hashes

The pairs, keys and values of a hash stand at the same positions, and the three lookups of a key
are one search, which stops at the first pair whose key stands for it.  Children that are no pairs,
pairs with other keys and whatever stands behind that pair make no difference.

Main results:

- `findPairIn_append` and `findPairIn_eq_some_iff` are the laws of the search.
- `IdleEdit` is a change of the children that a lookup does not notice;
  `findPairIn_of_idleEdit` is one change and `findPairIn_of_idleEdits` any number of them.
- `Node.lookups_first_match` puts this together for a hash.
-/

namespace RubyTree

variable {α : Type}

/-! ## Pairs of a hash -/

namespace Value

/-- The value is a pair. -/
def isPair : Value α → Bool
  | .node n => n.hasKind .pair
  | _ => false

/-- The literal value of a slot is the same key. -/
def StandsFor (slot key : Value α) : Prop :=
  ∃ value, slot.toValue = .ok value ∧ value.sameKey key = true

end Value

/-- The positions of the slots that stand for a key. -/
def keyPositions (slots : List (Value α)) (key : Value α) : Set Nat :=
  {i | ∃ slot, slots[i]? = some slot ∧ slot.StandsFor key}

theorem keyPositions_eq_empty_iff {slots : List (Value α)} {key : Value α} :
    keyPositions slots key = ∅ ↔ ∀ slot ∈ slots, ¬ slot.StandsFor key := by
  rw [Set.eq_empty_iff_forall_notMem]
  constructor
  · intro h slot hslot hstands
    rcases List.getElem?_of_mem hslot with ⟨i, hi⟩
    exact h i ⟨slot, hi, hstands⟩
  · rintro h i ⟨slot, hslot, hstands⟩
    exact h slot (List.mem_of_getElem? hslot) hstands

/-- The pairs among children. -/
def pairsAmong (children : List (Value α)) : List (Node α) :=
  (children.filterMap Value.node?).filter (·.hasKind .pair)

section Pairs

variable {child : Value α} {children front back : List (Value α)} {pair : Node α}

theorem pairsAmong_append : pairsAmong (front ++ back) = pairsAmong front ++ pairsAmong back := by
  rw [pairsAmong, List.filterMap_append, List.filter_append]
  rfl

theorem pairsAmong_cons_of_isPair_eq_false (h : child.isPair = false) :
    pairsAmong (child :: children) = pairsAmong children := by
  cases child with
  | node n => exact List.filter_cons_of_neg (by simpa [Value.isPair] using h)
  | lit literal => rfl
  | list items => rfl

theorem pairsAmong_cons_of_hasKind (h : pair.hasKind .pair = true) :
    pairsAmong (.node pair :: children) = pair :: pairsAmong children :=
  List.filter_cons_of_pos h

/-- The pairs are the children that are pairs, in the same order. -/
theorem map_node_pairsAmong (children : List (Value α)) :
    (pairsAmong children).map Value.node = children.filter Value.isPair := by
  have hpair : @Value.isPair α = Value.isOfKind .pair := by
    funext child
    cases child <;> rfl
  rw [pairsAmong, map_node_filter_hasKind, hpair]

namespace Node

theorem slot_key_of_hasKind (h : pair.hasKind .pair = true) :
    pair.slot .key = .ok pair.pairKey := by
  rw [slot, of_decide_eq_true h]
  rfl

theorem slot_value_of_hasKind (h : pair.hasKind .pair = true) :
    pair.slot .value = .ok pair.pairValue := by
  rw [slot, of_decide_eq_true h]
  rfl

end Node

end Pairs

/-! ## The search -/

section Search

variable {key found : Value α} {pair : Node α} {pairs rest front back : List (Node α)}

theorem findPairIn_cons_of_standsFor (h : pair.pairKey.StandsFor key) :
    findPairIn key (pair :: rest) = .ok (some pair) := by
  rcases h with ⟨value, hvalue, hsame⟩
  simp only [findPairIn, hvalue, if_pos hsame]

theorem findPairIn_cons_of_sameKey_eq_false (hfound : pair.pairKey.toValue = .ok found)
    (hother : found.sameKey key = false) :
    findPairIn key (pair :: rest) = findPairIn key rest := by
  simp [findPairIn, hfound, hother]

/-- Later pairs are searched if the key is missing among the earlier ones. -/
theorem findPairIn_append (front back : List (Node α)) :
    findPairIn key (front ++ back) =
      match findPairIn key front with
      | .ok none => findPairIn key back
      | outcome => outcome := by
  induction front with
  | nil => rfl
  | cons pair rest ih =>
    rw [List.cons_append, findPairIn, findPairIn]
    cases pair.pairKey.toValue with
    | error cause => rfl
    | ok found =>
      cases hsame : found.sameKey key with
      | false => simpa [hsame] using ih
      | true => simp [hsame]

theorem findPairIn_append_of_keyMissing (h : KeyMissing key front) :
    findPairIn key (front ++ back) = findPairIn key back := by
  rw [findPairIn_append, findPairIn_eq_none_iff.2 h]

/-- A search finds the pair whose key stands for the searched one and is missing before it. -/
theorem findPairIn_eq_some_iff :
    findPairIn key pairs = .ok (some pair) ↔
      ∃ front back, pairs = front ++ pair :: back ∧ KeyMissing key front ∧
        pair.pairKey.StandsFor key := by
  constructor
  · intro h
    induction pairs with
    | nil => cases h
    | cons first rest ih =>
      cases hvalue : first.pairKey.toValue with
      | error cause => simp [findPairIn, hvalue] at h
      | ok found =>
        cases hsame : found.sameKey key with
        | true =>
          cases (findPairIn_cons_of_standsFor ⟨found, hvalue, hsame⟩).symm.trans h
          exact ⟨[], rest, rfl, by simp [KeyMissing], found, hvalue, hsame⟩
        | false =>
          rw [findPairIn_cons_of_sameKey_eq_false hvalue hsame] at h
          rcases ih h with ⟨front, back, rfl, hmissing, hstands⟩
          exact ⟨first :: front, back, rfl,
            List.forall_mem_cons.2 ⟨⟨found, hvalue, hsame⟩, hmissing⟩, hstands⟩
  · rintro ⟨front, back, rfl, hmissing, hstands⟩
    rw [findPairIn_append_of_keyMissing hmissing, findPairIn_cons_of_standsFor hstands]

/-- Where all keys have values, every search ends with an answer. -/
theorem exists_findPairIn (hvalues : ∀ pair ∈ pairs, ∃ value, pair.pairKey.toValue = .ok value)
    (key : Value α) : ∃ found, findPairIn key pairs = .ok found := by
  induction pairs with
  | nil => exact ⟨none, rfl⟩
  | cons pair rest ih =>
    rcases List.forall_mem_cons.1 hvalues with ⟨⟨value, hvalue⟩, hrest⟩
    cases hsame : value.sameKey key with
    | true => exact ⟨some pair, findPairIn_cons_of_standsFor ⟨value, hvalue, hsame⟩⟩
    | false =>
      rw [findPairIn_cons_of_sameKey_eq_false hvalue hsame]
      exact ih hrest

/-- Where all keys have values, a key is missing in front of the positions that stand for it. -/
theorem keyMissing_take {n : Nat}
    (hvalues : ∀ pair ∈ pairs, ∃ value, pair.pairKey.toValue = .ok value)
    (h : n ∈ lowerBounds (keyPositions (pairs.map Node.pairKey) key)) :
    KeyMissing key (pairs.take n) := by
  intro pair hpair
  rcases hvalues pair (List.mem_of_mem_take hpair) with ⟨value, hvalue⟩
  have hother : value.sameKey key = false := by
    rw [Bool.eq_false_iff]
    intro hsame
    rcases List.mem_take_iff_getElem.1 hpair with ⟨i, hi, rfl⟩
    have hslot : (pairs.map Node.pairKey)[i]? = some pairs[i].pairKey := by
      rw [List.getElem?_map, List.getElem?_eq_getElem, Option.map_some]
    have hle : n ≤ i := h ⟨_, hslot, value, hvalue, hsame⟩
    omega
  exact ⟨value, hvalue, hother⟩

/-- Where all keys have values, the first pair whose key stands for the searched one is found. -/
theorem findPairIn_of_isLeast {i : Nat}
    (hvalues : ∀ pair ∈ pairs, ∃ value, pair.pairKey.toValue = .ok value)
    (h : IsLeast (keyPositions (pairs.map Node.pairKey) key) i) :
    ∃ pair, pairs[i]? = some pair ∧ findPairIn key pairs = .ok (some pair) := by
  rcases h with ⟨⟨slot, hslot, hstands⟩, hleast⟩
  rw [List.getElem?_map, Option.map_eq_some_iff] at hslot
  rcases hslot with ⟨pair, hpair, rfl⟩
  rcases List.getElem?_eq_some_iff.1 hpair with ⟨hi, rfl⟩
  have hsplit : pairs = pairs.take i ++ pairs[i] :: pairs.drop (i + 1) := by
    rw [← List.drop_eq_getElem_cons hi, List.take_append_drop]
  exact ⟨pairs[i], hpair,
    findPairIn_eq_some_iff.2 ⟨_, _, hsplit, keyMissing_take hvalues hleast, hstands⟩⟩

/-- Where all keys have values, a search for which no slot stands finds nothing. -/
theorem findPairIn_of_keyPositions_eq_empty
    (hvalues : ∀ pair ∈ pairs, ∃ value, pair.pairKey.toValue = .ok value)
    (h : keyPositions (pairs.map Node.pairKey) key = ∅) : findPairIn key pairs = .ok none := by
  have hmissing : KeyMissing key (pairs.take pairs.length) :=
    keyMissing_take hvalues fun i hi => (h ▸ hi : i ∈ (∅ : Set Nat)).elim
  rw [List.take_length] at hmissing
  exact findPairIn_eq_none_iff.2 hmissing

end Search

/-! ## Changes that a lookup does not notice -/

/-- One change of the children that makes no difference to a key. -/
inductive IdleEdit (key : Value α) : List (Value α) → List (Value α) → Prop
  /-- A child that is no pair is added. -/
  | insertOther {front back : List (Value α)} {child : Value α} (hother : child.isPair = false) :
      IdleEdit key (front ++ back) (front ++ child :: back)
  /-- A child that is no pair is taken away. -/
  | deleteOther {front back : List (Value α)} {child : Value α} (hother : child.isPair = false) :
      IdleEdit key (front ++ child :: back) (front ++ back)
  /-- A pair with another key is added. -/
  | insertMismatch {front back : List (Value α)} {pair : Node α} {value : Value α}
      (hpair : pair.hasKind .pair = true) (hvalue : pair.pairKey.toValue = .ok value)
      (hmismatch : value.sameKey key = false) :
      IdleEdit key (front ++ back) (front ++ .node pair :: back)
  /-- A child is added behind a pair whose key stands for the key. -/
  | insertBehind {front back : List (Value α)} {first : Node α} {child : Value α}
      (hfirst : first ∈ pairsAmong front) (hstands : first.pairKey.StandsFor key) :
      IdleEdit key (front ++ back) (front ++ child :: back)

section Edits

variable {key : Value α} {children edited : List (Value α)} {found : Option (Node α)}

/-- The answer of a search, where it has one, survives a change that makes no difference. -/
theorem findPairIn_of_idleEdit (h : IdleEdit key children edited)
    (hfound : findPairIn key (pairsAmong children) = .ok found) :
    findPairIn key (pairsAmong edited) = .ok found := by
  cases h with
  | insertOther hother =>
    rw [pairsAmong_append] at hfound ⊢
    rw [pairsAmong_cons_of_isPair_eq_false hother, hfound]
  | deleteOther hother =>
    rw [pairsAmong_append] at hfound ⊢
    rw [← hfound, pairsAmong_cons_of_isPair_eq_false hother]
  | insertMismatch hpair hvalue hmismatch =>
    rw [pairsAmong_append, findPairIn_append] at hfound ⊢
    rw [pairsAmong_cons_of_hasKind hpair, findPairIn_cons_of_sameKey_eq_false hvalue hmismatch,
      hfound]
  | @insertBehind front back first child hfirst hstands =>
    rw [pairsAmong_append, findPairIn_append] at hfound ⊢
    cases hfront : findPairIn key (pairsAmong front) with
    | error cause =>
      rw [hfront] at hfound
      cases hfound
    | ok outcome =>
      cases outcome with
      | none =>
        rcases findPairIn_eq_none_iff.1 hfront first hfirst with ⟨value, hvalue, hother⟩
        rcases hstands with ⟨value', hvalue', hsame⟩
        cases hvalue.symm.trans hvalue'
        cases hother.symm.trans hsame
      | some pair => rwa [hfront] at hfound

/-- Any number of such changes makes no difference. -/
theorem findPairIn_of_idleEdits (h : Relation.ReflTransGen (IdleEdit key) children edited)
    (hfound : findPairIn key (pairsAmong children) = .ok found) :
    findPairIn key (pairsAmong edited) = .ok found := by
  induction h with
  | refl => exact hfound
  | tail _ hedit ih => exact findPairIn_of_idleEdit hedit ih

end Edits

/-! ## The three answers -/

namespace Node

variable {node : Node α} {key : Value α} {found : Option (Node α)}

/-- The three lookups of a key answer alike, from one search. -/
theorem lookups_of_findPairIn (hhash : isHash node.type = true)
    (hfound : findPairIn key (pairsAmong node.children) = .ok found) :
    node.hashPair key = .ok found ∧ node.hasKey key = .ok found.isSome ∧
      node.hashValue key = .ok (found.elim .nil pairValue) := by
  have hsearch : ∀ accessor, node.search accessor key = .ok found := fun accessor =>
    (search_of_hash hhash accessor).trans hfound
  refine ⟨hsearch _, ?_, ?_⟩
  · rw [hasKey, hsearch]
    rfl
  · rw [hashValue, hsearch]
    cases found <;> rfl

/-- The pairs, keys and values of a hash stand at the same positions.  If the keys have values, the
lookups of a key give the first pair whose key slot stands for it, that there is one, and the value
slot of that pair, and without such a pair nothing.  Changes that make no difference to the key
leave all three answers as they are. -/
theorem lookups_first_match (node : Node α) (hhash : isHash node.type = true)
    (hvalues : ∀ pair keyNode : Node α, .node pair ∈ node.children → pair.hasKind .pair = true →
      pair.slot .key = .ok (.node keyNode) → ∃ value, keyNode.toValue = .ok value) :
    ∃ (pairs : List (Node α)) (keys values : List (Value α)),
      node.pairs = .ok pairs ∧ node.keys = .ok keys ∧ node.values = .ok values ∧
      pairs.map Value.node = node.children.filter Value.isPair ∧
      keys.length = pairs.length ∧ values.length = pairs.length ∧
      (∀ (i : Nat) (pair : Node α), pairs[i]? = some pair → ∃ key value, keys[i]? = some key ∧
        values[i]? = some value ∧ pair.slot .key = .ok key ∧ pair.slot .value = .ok value) ∧
      ∀ key,
        (∀ i, IsLeast (keyPositions keys key) i →
          ∃ pair value, pairs[i]? = some pair ∧ values[i]? = some value ∧
            node.hashPair key = .ok (some pair) ∧ node.hasKey key = .ok true ∧
            node.hashValue key = .ok value) ∧
        (keyPositions keys key = ∅ →
          node.hashPair key = .ok none ∧ node.hasKey key = .ok false ∧
            node.hashValue key = .ok .nil) ∧
        ∀ other : Node α, isHash other.type = true →
          Relation.ReflTransGen (IdleEdit key) node.children other.children →
          other.hashPair key = node.hashPair key ∧ other.hasKey key = node.hasKey key ∧
            other.hashValue key = node.hashValue key := by
  have hmap := map_node_pairsAmong node.children
  have hkind : ∀ pair ∈ pairsAmong node.children, pair.hasKind .pair = true :=
    fun pair hpair => (List.mem_filter.1 hpair).2
  have hread : ∀ pair ∈ pairsAmong node.children, ∃ value, pair.pairKey.toValue = .ok value := by
    intro pair hpair
    have hmem : Value.node pair ∈ node.children := by
      have hfiltered := List.mem_map_of_mem (f := Value.node) hpair
      rw [hmap] at hfiltered
      exact List.mem_of_mem_filter hfiltered
    have hslot := slot_key_of_hasKind (hkind pair hpair)
    cases hkey : pair.pairKey with
    | lit literal => exact ⟨.lit literal, rfl⟩
    | list items => exact ⟨.list items, rfl⟩
    | node keyNode => exact hvalues pair keyNode hmem (hkind pair hpair) (hkey ▸ hslot)
  refine ⟨pairsAmong node.children, (pairsAmong node.children).map pairKey,
    (pairsAmong node.children).map pairValue, if_pos hhash, if_pos hhash, if_pos hhash, hmap,
    List.length_map _, List.length_map _, ?_, fun key => ⟨?_, ?_, ?_⟩⟩
  · intro i pair hpair
    have hpairKind := hkind pair (List.mem_of_getElem? hpair)
    refine ⟨pair.pairKey, pair.pairValue, ?_, ?_, slot_key_of_hasKind hpairKind,
      slot_value_of_hasKind hpairKind⟩
    · rw [List.getElem?_map, hpair, Option.map_some]
    · rw [List.getElem?_map, hpair, Option.map_some]
  · intro i hleast
    rcases findPairIn_of_isLeast hread hleast with ⟨pair, hpair, hfound⟩
    refine ⟨pair, pair.pairValue, hpair, ?_, lookups_of_findPairIn hhash hfound⟩
    rw [List.getElem?_map, hpair, Option.map_some]
  · intro hnone
    exact lookups_of_findPairIn hhash (findPairIn_of_keyPositions_eq_empty hread hnone)
  · intro other hother hedits
    rcases exists_findPairIn hread key with ⟨found, hfound⟩
    rcases lookups_of_findPairIn hhash hfound with ⟨hpair, hhas, hvalue⟩
    have hedited := findPairIn_of_idleEdits hedits hfound
    rcases lookups_of_findPairIn hother hedited with ⟨hpair', hhas', hvalue'⟩
    exact ⟨hpair'.trans hpair.symm, hhas'.trans hhas.symm, hvalue'.trans hvalue.symm⟩

/-- A symbol stands twice among the pairs, and the first one is found; a grouped string is the key
of another pair, and a second string is missing.  Without the double splat and with two more pairs
the symbol is found as before. -/
theorem lookups_first_match_twice :
    let pair (mark : Nat) (key : Node Nat) : Node Nat :=
      ⟨mark, .known .pair, [.node key, .lit (.int mark)]⟩
    let a : Node Nat := ⟨0, .known .sym, [.lit (.sym ⟨"a"⟩)]⟩
    let b : Node Nat := ⟨0, .known .begin, [.node ⟨0, .known .str, [.lit (.str "b")]⟩]⟩
    let splat : Node Nat := ⟨0, .known .kwsplat, []⟩
    let hash (children : List (Value Nat)) : Node Nat := ⟨0, .known .hash, children⟩
    let node := hash [.node splat, .node (pair 1 b), .node (pair 2 a), .lit (.int 0),
      .node (pair 3 a)]
    let other := hash [.node (pair 4 b), .node (pair 1 b), .node (pair 2 a), .node (pair 5 a),
      .lit (.int 0), .node (pair 3 a)]
    node.hashPair (.lit (.sym ⟨"a"⟩)) = .ok (some (pair 2 a)) ∧
      node.hasKey (.lit (.str "b")) = .ok true ∧
      node.hashValue (.lit (.str "c")) = .ok .nil ∧
      other.hashPair (.lit (.sym ⟨"a"⟩)) = .ok (some (pair 2 a)) := by
  intro pair a b splat hash node other
  have hvalues : ∀ entry keyNode : Node Nat, .node entry ∈ node.children →
      entry.hasKind .pair = true → entry.slot .key = .ok (.node keyNode) →
      ∃ value, keyNode.toValue = .ok value := by
    intro entry keyNode hentry hkind hslot
    simp only [node, hash, List.mem_cons, Value.node.injEq, reduceCtorEq, List.not_mem_nil,
      or_false, false_or] at hentry
    rcases hentry with rfl | rfl | rfl | rfl
    · cases hkind
    · cases hslot
      exact ⟨_, rfl⟩
    · cases hslot
      exact ⟨_, rfl⟩
    · cases hslot
      exact ⟨_, rfl⟩
  obtain ⟨pairs, keys, values, hpairs, hkeys, hvalues, -, -, -, -, hlookups⟩ :=
    lookups_first_match node rfl hvalues
  cases hpairs
  cases hkeys
  cases hvalues
  have hsymbol : IsLeast (keyPositions [.node b, .node a, .node a] (.lit (.sym ⟨"a"⟩))) 1 := by
    refine ⟨⟨.node a, rfl, _, rfl, rfl⟩, ?_⟩
    rintro i ⟨slot, hslot, value, hvalue, hsame⟩
    rcases i with _ | i
    · cases hslot
      cases hvalue
      cases hsame
    · exact Nat.le_add_left 1 i
  have hstring : IsLeast (keyPositions [.node b, .node a, .node a] (.lit (.str "b"))) 0 :=
    ⟨⟨.node b, rfl, _, rfl, rfl⟩, fun i _ => Nat.zero_le i⟩
  have hmissing : keyPositions [.node b, .node a, .node a] (.lit (.str "c")) = ∅ := by
    have hb : ¬ (Value.node b).StandsFor (.lit (.str "c")) := by
      rintro ⟨value, hvalue, hsame⟩
      cases hvalue
      cases hsame
    have ha : ¬ (Value.node a).StandsFor (.lit (.str "c")) := by
      rintro ⟨value, hvalue, hsame⟩
      cases hvalue
      cases hsame
    rw [keyPositions_eq_empty_iff]
    exact List.forall_mem_cons.2 ⟨hb, List.forall_mem_cons.2 ⟨ha, List.forall_mem_singleton.2 ha⟩⟩
  have hedits : Relation.ReflTransGen (IdleEdit (.lit (.sym ⟨"a"⟩))) node.children
      other.children := by
    let start : List (Value Nat) := [.node (pair 1 b), .node (pair 2 a)]
    let rest : List (Value Nat) := [.lit (.int 0), .node (pair 3 a)]
    have hsplat : IdleEdit (.lit (.sym ⟨"a"⟩)) ([] ++ .node splat :: (start ++ rest))
        ([] ++ (start ++ rest)) := .deleteOther rfl
    have hmismatch : IdleEdit (.lit (.sym ⟨"a"⟩)) ([] ++ (start ++ rest))
        ([] ++ .node (pair 4 b) :: (start ++ rest)) := .insertMismatch rfl rfl rfl
    have hmem : pair 2 a ∈ pairsAmong (.node (pair 4 b) :: start) :=
      .tail _ (.tail _ (.head _))
    have hbehind : IdleEdit (.lit (.sym ⟨"a"⟩)) ((.node (pair 4 b) :: start) ++ rest)
        ((.node (pair 4 b) :: start) ++ .node (pair 5 a) :: rest) :=
      .insertBehind hmem ⟨_, rfl, rfl⟩
    exact ((Relation.ReflTransGen.single hsplat).tail hmismatch).tail hbehind
  rcases (hlookups _).1 1 hsymbol with ⟨first, value, hfirst, -, hpair, -, -⟩
  rcases (hlookups _).1 0 hstring with ⟨-, -, -, -, -, hhas, -⟩
  cases hfirst
  exact ⟨hpair, hhas, ((hlookups _).2.1 hmissing).2.2,
    ((hlookups _).2.2 other rfl hedits).1.trans hpair⟩

end Node

end RubyTree
