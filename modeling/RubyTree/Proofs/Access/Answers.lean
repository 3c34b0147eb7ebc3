import Mathlib.Data.List.Basic
import RubyTree.Access.Hash

/-!
# Accessors answer or refuse

Whether a slot or a derived property is answered is a matter of the type of the node
alone: on the types that have it there is an answer, however few children the node
has, and on all others it is refused with its own name on the same node.  Values of
literal nodes and searches for keys have no such refusal; they fail only where they
come to a literal node that should have a child and has none.

Main results:

- `NodeType.declares` and `Derived.supports` are the tables of types, and
  `answersIf_slotNamed` and `answersIf_derived` measure the accessors against them.
- `Node.ReachesEmptyLiteral` says where the value of a node is missing, and
  `Node.toValue_eq_error_iff` that there is no other failure.
- `SearchStops` and `findPairIn_eq_error_iff` say the same of searches.
- `accessors_answer_or_refuse` puts this together for a node.
-/

namespace RubyTree

variable {α : Type} {ρ σ : Type}

/-! ## Answers and refusals -/

/-- Where an accessor is supported its outcome is an answer, and elsewhere the refusal of the
accessor on the node. -/
def AnswersIf (accessor : String) (node : Node α) (outcome : Except (AccessError α) ρ) :
    Bool → Prop
  | true => ∃ answer, outcome = .ok answer
  | false => outcome = .error (.unsupported accessor node)

theorem map_eq_error_iff {outcome : Except (AccessError α) ρ} {f : ρ → σ} {cause : AccessError α} :
    outcome.map f = .error cause ↔ outcome = .error cause := by
  cases outcome <;> simp [Except.map]

/-- Another form of the answer changes nothing. -/
theorem AnswersIf.map {accessor : String} {node : Node α} {outcome : Except (AccessError α) ρ}
    {supported : Bool} (h : AnswersIf accessor node outcome supported) (f : ρ → σ) :
    AnswersIf accessor node (outcome.map f) supported := by
  cases supported with
  | true =>
    rcases h with ⟨answer, rfl⟩
    exact ⟨f answer, rfl⟩
  | false => exact map_eq_error_iff.2 h

/-! ## Slots -/

/-- The type declares a slot with the name. -/
def NodeType.declares (type : NodeType) (label : String) : Bool :=
  (type.slots.map Slot.label).contains label

theorem NodeType.declares_label (type : NodeType) (slot : Slot) :
    type.declares slot.label = (type.slotIndex? slot).isSome := by
  have hlabel : slot.label ∈ type.slots.map Slot.label ↔ slot ∈ type.slots :=
    List.mem_map_of_injective fun _ _ => Slot.label_injective
  cases type with
  | known kind =>
    rw [declares, Bool.eq_iff_iff, List.contains_iff_mem, hlabel, NodeType.slotIndex?,
      Kind.slotIndex?, List.isSome_idxOf?]
    rfl
  | other name h => rfl

/-- A slot by any name is answered on the nodes whose types declare it. -/
theorem answersIf_slotNamed (node : Node α) (label : String) :
    AnswersIf label node (node.slotNamed label) (node.type.declares label) := by
  unfold Node.slotNamed
  split
  · next slot hslot =>
    obtain rfl := Slot.label_of_ofLabel? hslot
    rw [NodeType.declares_label, Node.slot]
    cases hindex : node.type.slotIndex? slot with
    | some index => exact ⟨_, rfl⟩
    | none => rfl
  · next hnone =>
    have hdeclares : node.type.declares label = false := by
      by_contra hdeclares
      have hmem : label ∈ node.type.slots.map Slot.label := by
        simpa [NodeType.declares] using hdeclares
      rcases List.mem_map.1 hmem with ⟨slot, -, rfl⟩
      cases hnone.symm.trans (Slot.ofLabel?_label slot)
    rw [hdeclares]
    rfl

/-! ## Derived properties -/

namespace Derived

/-- The kinds of nodes that have a derived property; `none` for a property of all nodes. -/
def kinds? : Derived → Option (List Kind)
  | .arguments => some [.send, .csend, .defined, .yield, .defn, .defs, .block, .numblock]
  | .body => some [.begin, .kwbegin, .rescue, .ensure, .preexe, .postexe, .when, .moduleDefn,
      .sclass, .until, .untilPost, .while, .whilePost, .defn, .defs, .block, .numblock, .classDefn,
      .for, .inPattern, .resbody]
  | .whenStatements => some [.case]
  | .inStatements => some [.caseMatch]
  | .rescueBodies => some [.rescue]
  | .ensureBody => some [.ensure]
  | .elseStatement => none
  | .elements => some [.array, .arrayPattern, .arrayPatternWithTail, .findPattern, .dstr, .dsym,
      .xstr, .regopt, .mlhs, .undef, .regexp]
  | .options => some [.regexp]
  | .exceptions => some [.resbody]
  | .pairs => some [.hash, .hashPattern]
  | .kwsplats => some [.hash, .hashPattern]
  | .keys => some [.hash, .hashPattern]
  | .values => some [.hash, .hashPattern]

/-- Nodes of the type have the derived property. -/
def supports (property : Derived) (type : NodeType) : Bool :=
  match property.kinds? with
  | some kinds => type.kind?.any kinds.contains
  | none => true

end Derived

theorem answersIf_onKind (node : Node α) (kind : Kind) (accessor : String) (answer : ρ) :
    AnswersIf accessor node (node.onKind kind accessor answer)
      (node.type.kind?.any [kind].contains) := by
  have hkind : node.type.kind?.any [kind].contains = node.hasKind kind := by
    unfold Node.hasKind
    cases node.type with
    | known other => simp [NodeType.kind?]
    | other name h => simp [NodeType.kind?]
  rw [hkind, Node.onKind]
  cases node.hasKind kind with
  | true => exact ⟨answer, rfl⟩
  | false => rfl

theorem answersIf_onHash (node : Node α) (accessor : String) (answer : ρ) :
    AnswersIf accessor node (node.onHash accessor answer)
      (node.type.kind?.any [.hash, .hashPattern].contains) := by
  have hkind : node.type.kind?.any [.hash, .hashPattern].contains = Node.isHash node.type := by
    cases node.type with
    | known kind => cases kind <;> rfl
    | other name h => rfl
  rw [hkind, Node.onHash]
  cases Node.isHash node.type with
  | true => exact ⟨answer, rfl⟩
  | false => rfl

theorem answersIf_arguments (node : Node α) :
    AnswersIf "arguments" node node.arguments (Derived.arguments.supports node.type) := by
  rcases node with ⟨mark, type, children⟩
  cases type with
  | known kind => cases kind <;> first | exact ⟨_, rfl⟩ | rfl
  | other name h => rfl

theorem answersIf_body (node : Node α) :
    AnswersIf "body" node node.body (Derived.body.supports node.type) := by
  rcases node with ⟨mark, type, children⟩
  cases type with
  | known kind => cases kind <;> first | exact ⟨_, rfl⟩ | rfl
  | other name h => rfl

theorem answersIf_elements (node : Node α) :
    AnswersIf "elements" node node.elements (Derived.elements.supports node.type) := by
  rcases node with ⟨mark, type, children⟩
  cases type with
  | known kind => cases kind <;> first | exact ⟨_, rfl⟩ | rfl
  | other name h => rfl

/-- A derived property is answered on the nodes whose types support it. -/
theorem answersIf_derived (property : Derived) (node : Node α) :
    AnswersIf property.name node (property.read node) (property.supports node.type) := by
  cases property with
  | arguments => exact (answersIf_arguments node).map _
  | body => exact (answersIf_body node).map _
  | whenStatements => exact (answersIf_onKind node .case "when_statements" _).map _
  | inStatements => exact (answersIf_onKind node .caseMatch "in_statements" _).map _
  | rescueBodies => exact (answersIf_onKind node .rescue "rescue_bodies" _).map _
  | ensureBody => exact (answersIf_onKind node .ensure "ensure_body" _).map _
  | elseStatement => exact ⟨node.elseStatement, rfl⟩
  | elements => exact (answersIf_elements node).map _
  | options => exact answersIf_onKind node .regexp "options" _
  | exceptions => exact answersIf_onKind node .resbody "exceptions" _
  | pairs => exact (answersIf_onHash node "pairs" _).map _
  | kwsplats => exact (answersIf_onHash node "kwsplats" _).map _
  | keys => exact (answersIf_onHash node "keys" _).map _
  | values => exact (answersIf_onHash node "values" _).map _

/-- Nodes of the type have the property. -/
def Property.supports : Property → NodeType → Bool
  | .derived property, type => property.supports type
  | .slot s, type => type.declares s.label

/-- A property that is asked for by its name. -/
theorem answersIf_property {name : String} {property : Property}
    (h : Property.ofName? name = some property) (node : Node α) :
    AnswersIf name node (property.read node) (property.supports node.type) := by
  unfold Property.ofName? at h
  split at h
  · next derived hderived =>
    cases h
    have hname : derived.name = name := by simpa using List.find?_some hderived
    rw [← hname]
    exact answersIf_derived derived node
  · rcases Option.map_eq_some_iff.1 h with ⟨slot, hslot, rfl⟩
    have hnamed : node.slotNamed name = node.slot slot := by
      unfold Node.slotNamed
      rw [hslot]
    rw [Property.read, ← hnamed, Property.supports, Slot.label_of_ofLabel? hslot]
    exact answersIf_slotNamed node name

/-! ## Values of literal nodes -/

/-- Reading the value of the node comes to a literal node without children: the node itself, an
element of an array, or the first statement of a group. -/
inductive Node.ReachesEmptyLiteral : Node α → Prop
  /-- A literal node without children. -/
  | literal {mark : α} {type : NodeType} (hreading : type.reading = .lastChild) :
      ReachesEmptyLiteral ⟨mark, type, []⟩
  /-- An array, over one of its elements. -/
  | element {mark : α} {type : NodeType} {children : List (Value α)} {element : Node α}
      (hreading : type.reading = .allChildren) (hmem : .node element ∈ children)
      (h : element.ReachesEmptyLiteral) : ReachesEmptyLiteral ⟨mark, type, children⟩
  /-- A group, over its first statement. -/
  | first {mark : α} {type : NodeType} {first : Node α} {rest : List (Value α)}
      (hreading : type.reading = .firstChild) (h : first.ReachesEmptyLiteral) :
      ReachesEmptyLiteral ⟨mark, type, .node first :: rest⟩

namespace Node

variable {mark : α} {type : NodeType} {children : List (Value α)}

theorem reachesEmptyLiteral_lastChild (hreading : type.reading = .lastChild) :
    ReachesEmptyLiteral ⟨mark, type, children⟩ ↔ children = [] := by
  constructor
  · intro h
    cases h with
    | literal => rfl
    | element hother => cases hreading.symm.trans hother
    | first hother => cases hreading.symm.trans hother
  · rintro rfl
    exact .literal hreading

theorem reachesEmptyLiteral_allChildren (hreading : type.reading = .allChildren) :
    ReachesEmptyLiteral ⟨mark, type, children⟩ ↔
      ∃ element : Node α, .node element ∈ children ∧ element.ReachesEmptyLiteral := by
  constructor
  · intro h
    cases h with
    | literal hother => cases hreading.symm.trans hother
    | element _ hmem h => exact ⟨_, hmem, h⟩
    | first hother => cases hreading.symm.trans hother
  · rintro ⟨element, hmem, h⟩
    exact .element hreading hmem h

theorem reachesEmptyLiteral_firstChild (hreading : type.reading = .firstChild) :
    ReachesEmptyLiteral ⟨mark, type, children⟩ ↔
      ∃ first rest, children = .node first :: rest ∧ first.ReachesEmptyLiteral := by
  constructor
  · intro h
    cases h with
    | literal hother => cases hreading.symm.trans hother
    | element hother => cases hreading.symm.trans hother
    | first _ h => exact ⟨_, _, rfl, h⟩
  · rintro ⟨first, rest, rfl, h⟩
    exact .first hreading h

/-- Nodes that stand for themselves or for a fixed literal need no child. -/
theorem not_reachesEmptyLiteral
    (hreading : type.reading ∉ [.lastChild, .allChildren, .firstChild]) :
    ¬ ReachesEmptyLiteral ⟨mark, type, children⟩ := by
  intro h
  cases h with
  | literal hother => simp [hother] at hreading
  | element hother => simp [hother] at hreading
  | first hother => simp [hother] at hreading

end Node

namespace Value

variable {value first : Value α} {rest : List (Value α)} {cause : AccessError α}

theorem toValues_of_error (h : value.toValue = .error cause) :
    toValues (value :: rest) = .error cause := by
  rw [toValues.eq_def]
  simp only [h]

theorem toValues_of_ok (h : value.toValue = .ok first) :
    toValues (value :: rest) = (toValues rest).map (first :: ·) := by
  rw [toValues.eq_def]
  simp only [h]
  cases toValues rest <;> rfl

end Value

mutual

/-- The value of a node is missing exactly where reading it comes to a literal node without
children. -/
theorem Node.toValue_eq_error_iff (node : Node α) (cause : AccessError α) :
    node.toValue = .error cause ↔ cause = .emptyLiteral ∧ node.ReachesEmptyLiteral := by
  match node with
  | ⟨mark, type, children⟩ =>
    rw [Node.toValue.eq_def]
    cases hreading : type.reading with
    | lastChild =>
      rw [Node.reachesEmptyLiteral_lastChild hreading]
      cases hlast : children.getLast? with
      | none => simp [hreading, List.getLast?_eq_none_iff.1 hlast, eq_comm]
      | some value =>
        have hne : children ≠ [] := by
          rintro rfl
          cases hlast
        simp [hreading, hlast, hne]
    | constant literal =>
      have hnot : ¬ Node.ReachesEmptyLiteral ⟨mark, type, children⟩ :=
        Node.not_reachesEmptyLiteral (by simp [hreading])
      simp [hreading, hnot]
    | allChildren =>
      rw [Node.reachesEmptyLiteral_allChildren hreading,
        ← Value.toValues_eq_error_iff children cause]
      cases hvalues : Value.toValues children <;> simp [hreading, hvalues]
    | firstChild =>
      rw [Node.reachesEmptyLiteral_firstChild hreading]
      match children with
      | [] => simp [hreading]
      | first :: rest => simp [hreading, Value.toValue_eq_error_iff first cause]
    | itself =>
      have hnot : ¬ Node.ReachesEmptyLiteral ⟨mark, type, children⟩ :=
        Node.not_reachesEmptyLiteral (by simp [hreading])
      simp [hreading, hnot]

/-- A child has no value only if it is a node without one. -/
theorem Value.toValue_eq_error_iff (value : Value α) (cause : AccessError α) :
    value.toValue = .error cause ↔
      cause = .emptyLiteral ∧ ∃ node, value = .node node ∧ node.ReachesEmptyLiteral := by
  match value with
  | .lit literal => simp [Value.toValue]
  | .node node => simp [Value.toValue, Node.toValue_eq_error_iff node cause]
  | .list items => simp [Value.toValue]

/-- Some children have no values only if one of them is a node without one. -/
theorem Value.toValues_eq_error_iff (values : List (Value α)) (cause : AccessError α) :
    Value.toValues values = .error cause ↔
      cause = .emptyLiteral ∧ ∃ node, .node node ∈ values ∧ node.ReachesEmptyLiteral := by
  match values with
  | [] => simp [Value.toValues]
  | value :: rest =>
    have hvalue := Value.toValue_eq_error_iff value cause
    have hrest := Value.toValues_eq_error_iff rest cause
    have hsplit : (∃ node, .node node ∈ value :: rest ∧ node.ReachesEmptyLiteral) ↔
        (∃ node, value = .node node ∧ node.ReachesEmptyLiteral) ∨
          ∃ node, .node node ∈ rest ∧ node.ReachesEmptyLiteral := by
      simp only [List.mem_cons, or_and_right, exists_or, eq_comm]
    rw [hsplit, and_or_left, ← hvalue, ← hrest]
    cases hfirst : value.toValue with
    | error other =>
      -- the first failure hides the later ones, but all of them are the same
      have hother := ((Value.toValue_eq_error_iff value other).1 hfirst).1
      rw [Value.toValues_of_error hfirst, Except.error.injEq, Except.error.injEq]
      constructor
      · exact .inl
      · rintro (h | h)
        · exact h
        · rw [hother, (hrest.1 h).1]
    | ok first => simp [Value.toValues_of_ok hfirst, map_eq_error_iff]

end

/-! ## Searches for keys -/

/-- The search for a key comes to a pair whose key has no value, with other keys before it. -/
inductive SearchStops (key : Value α) : List (Node α) → Prop
  /-- At the first pair. -/
  | here {pair keyNode : Node α} {rest : List (Node α)} (hkey : pair.pairKey = .node keyNode)
      (h : keyNode.ReachesEmptyLiteral) : SearchStops key (pair :: rest)
  /-- Behind a pair with another key. -/
  | later {pair : Node α} {found : Value α} {rest : List (Node α)}
      (hfound : pair.pairKey.toValue = .ok found) (hother : found.sameKey key = false)
      (h : SearchStops key rest) : SearchStops key (pair :: rest)

/-- The keys of all pairs have values, and none of them is the key. -/
def KeyMissing (key : Value α) (pairs : List (Node α)) : Prop :=
  ∀ pair ∈ pairs, ∃ found, pair.pairKey.toValue = .ok found ∧ found.sameKey key = false

variable {key : Value α} {cause : AccessError α}

/-- A search fails exactly where it comes to a key without a value. -/
theorem findPairIn_eq_error_iff {pairs : List (Node α)} :
    findPairIn key pairs = .error cause ↔ cause = .emptyLiteral ∧ SearchStops key pairs := by
  induction pairs with
  | nil =>
    have hnot : ¬ SearchStops key [] := by
      rintro ⟨⟩
    simp [findPairIn, hnot]
  | cons pair rest ih =>
    cases hkey : pair.pairKey.toValue with
    | error other =>
      rcases (Value.toValue_eq_error_iff _ _).1 hkey with ⟨rfl, keyNode, hnode, hempty⟩
      have hstops : SearchStops key (pair :: rest) := .here hnode hempty
      simp [findPairIn, hkey, hstops, eq_comm]
    | ok found =>
      have hhere : ∀ keyNode, pair.pairKey = .node keyNode → ¬ keyNode.ReachesEmptyLiteral := by
        intro keyNode hnode hempty
        have herror := (Value.toValue_eq_error_iff _ .emptyLiteral).2 ⟨rfl, keyNode, hnode, hempty⟩
        cases hkey.symm.trans herror
      by_cases hsame : found.sameKey key = true
      · have hnot : ¬ SearchStops key (pair :: rest) := by
          intro h
          cases h with
          | here hnode hempty => exact hhere _ hnode hempty
          | later hfound hother =>
            cases hkey.symm.trans hfound
            cases hsame.symm.trans hother
        simp [findPairIn, hkey, hsame, hnot]
      · have hother : found.sameKey key = false := by simpa using hsame
        have hiff : SearchStops key (pair :: rest) ↔ SearchStops key rest := by
          constructor
          · intro h
            cases h with
            | here hnode hempty => exact absurd hempty (hhere _ hnode)
            | later _ _ h => exact h
          · exact .later hkey hother
        simp [findPairIn, hkey, hother, hiff, ih]

/-- A search finds nothing exactly where the key is missing. -/
theorem findPairIn_eq_none_iff {pairs : List (Node α)} :
    findPairIn key pairs = .ok none ↔ KeyMissing key pairs := by
  induction pairs with
  | nil => simp [findPairIn, KeyMissing]
  | cons pair rest ih =>
    rw [KeyMissing, List.forall_mem_cons, ← KeyMissing, ← ih]
    cases hkey : pair.pairKey.toValue with
    | error cause => simp [findPairIn, hkey]
    | ok found =>
      by_cases hsame : found.sameKey key = true
      · simp [findPairIn, hkey, hsame]
      · simp [findPairIn, hkey, hsame]

namespace Node

variable {node : Node α}

theorem search_of_hash (h : isHash node.type = true) (accessor : String) :
    node.search accessor key = findPairIn key (node.childNodesOf .pair) := by
  rw [search, if_pos h, findPair]

/-- Nodes that are no hashes refuse a search. -/
theorem search_of_not_hash (h : isHash node.type = false) (accessor : String) :
    node.search accessor key = .error (.unsupported accessor node) := by
  rw [search, if_neg (by simp [h])]

end Node

/-! ## All accessors of a node -/

/-- Slots and derived properties answer on every node of a type that has them, whatever its
children, and refuse their own name on every other node.  The value of a node is missing, and a
search on a hash fails, exactly where reading comes to a literal node without children.  A search on
any other node is refused, and a missing key is no failure. -/
theorem accessors_answer_or_refuse (node : Node α) :
    (∀ label, AnswersIf label node (node.slotNamed label) (node.type.declares label)) ∧
    (∀ property : Derived,
      AnswersIf property.name node (property.read node) (property.supports node.type)) ∧
    (∀ name property, Property.ofName? name = some property →
      AnswersIf name node (property.read node) (property.supports node.type)) ∧
    (∀ cause, node.toValue = .error cause ↔ cause = .emptyLiteral ∧ node.ReachesEmptyLiteral) ∧
    (Node.isHash node.type = false → ∀ key,
      node.hasKey key = .error (.unsupported "has_key" node) ∧
      node.hashPair key = .error (.unsupported "hash_pair" node) ∧
      node.hashValue key = .error (.unsupported "hash_value" node)) ∧
    (Node.isHash node.type = true → ∀ key,
      (∀ cause,
        (node.hasKey key = .error cause ↔
          cause = .emptyLiteral ∧ SearchStops key (node.childNodesOf .pair)) ∧
        (node.hashPair key = .error cause ↔
          cause = .emptyLiteral ∧ SearchStops key (node.childNodesOf .pair)) ∧
        (node.hashValue key = .error cause ↔
          cause = .emptyLiteral ∧ SearchStops key (node.childNodesOf .pair))) ∧
      (node.hasKey key = .ok false ↔ KeyMissing key (node.childNodesOf .pair)) ∧
      (node.hashPair key = .ok none ↔ KeyMissing key (node.childNodesOf .pair)) ∧
      (KeyMissing key (node.childNodesOf .pair) → node.hashValue key = .ok .nil)) := by
  refine ⟨answersIf_slotNamed node, fun property => answersIf_derived property node,
    fun name property h => answersIf_property h node, node.toValue_eq_error_iff, ?_, ?_⟩
  · intro hhash key
    unfold Node.hasKey Node.hashPair Node.hashValue
    refine ⟨?_, Node.search_of_not_hash hhash _, ?_⟩
    · rw [Node.search_of_not_hash hhash, map_eq_error_iff]
    · rw [Node.search_of_not_hash hhash, map_eq_error_iff]
  · intro hhash key
    unfold Node.hasKey Node.hashPair Node.hashValue
    simp only [Node.search_of_hash hhash, map_eq_error_iff]
    refine ⟨fun cause => ?_, ?_, findPairIn_eq_none_iff, fun hmissing => ?_⟩
    · exact ⟨findPairIn_eq_error_iff, findPairIn_eq_error_iff, findPairIn_eq_error_iff⟩
    · rw [← findPairIn_eq_none_iff]
      cases findPairIn key (node.childNodesOf .pair) <;> simp [Except.map]
    · rw [findPairIn_eq_none_iff.2 hmissing]
      rfl

/-- A literal node without children has no value, and no hash with such a key is searched. -/
theorem not_toValue_answers :
    (¬ ∀ node : Node Unit, ∃ value, node.toValue = .ok value) ∧
      ¬ ∀ node : Node Unit, Node.isHash node.type = true → ∀ key,
        ∃ found, node.hasKey key = .ok found := by
  let literal : Node Unit := ⟨(), .known .int, []⟩
  let hash : Node Unit := ⟨(), .known .hash, [.node ⟨(), .known .pair, [.node literal]⟩]⟩
  have hvalue : literal.toValue = .error .emptyLiteral := rfl
  have hsearch : hash.hasKey (.lit (.sym ⟨"a"⟩)) = .error .emptyLiteral := rfl
  constructor
  · intro h
    rcases h literal with ⟨value, hok⟩
    cases hvalue.symm.trans hok
  · intro h
    rcases h hash rfl (.lit (.sym ⟨"a"⟩)) with ⟨found, hok⟩
    cases hsearch.symm.trans hok

end RubyTree
