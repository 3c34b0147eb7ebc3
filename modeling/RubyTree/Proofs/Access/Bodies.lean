import RubyTree.Proofs.Access.Alike

/-!
# Groups in bodies

A body is written as one child: a single statement, a group of statements, or nothing.  Which
of these it is does not show in the list of its statements, since a group is opened where the
body starts.  Only that group is opened; a group among its statements stays a statement.

Main results:

- `Value.Groups` relates a group to the statements in it, and `Value.grouped?_eq_some_iff` and
  `Value.grouped?_eq_none_iff` say which values are opened.
- `Node.bodyStart?_eq_some_iff`: a body starts at the slot of that name.
- `Node.OpensGroups` collects how a type reads its body, and `Node.body_opens_groups` shows it for
  every type that has one.
-/

namespace RubyTree

variable {α : Type}

/-! ## Groups -/

/-- The value is a group of the statements. -/
inductive Value.Groups : Value α → List (Value α) → Prop
  /-- Statements in parentheses, or several of them in a row. -/
  | begin (mark : α) (statements : List (Value α)) :
      Groups (.node ⟨mark, .known .begin, statements⟩) statements
  /-- Statements between keywords. -/
  | kwbegin (mark : α) (statements : List (Value α)) :
      Groups (.node ⟨mark, .known .kwbegin, statements⟩) statements

theorem Node.isGrouping_iff {type : NodeType} :
    Node.isGrouping type = true ↔ type = .known .begin ∨ type = .known .kwbegin := by
  constructor
  · intro h
    unfold Node.isGrouping at h
    split at h
    · exact .inl rfl
    · exact .inr rfl
    · cases h
  · rintro (rfl | rfl) <;> rfl

namespace Value

variable {value : Value α} {statements : List (Value α)}

theorem not_groups_lit (literal : Literal) : ¬ (Value.lit literal : Value α).Groups statements := by
  intro hgroups
  cases hgroups

theorem not_groups_list (items : List (Value α)) : ¬ (Value.list items).Groups statements := by
  intro hgroups
  cases hgroups

theorem groups_node_iff {node : Node α} :
    (Value.node node).Groups statements ↔
      Node.isGrouping node.type = true ∧ node.children = statements := by
  constructor
  · rintro (_ | _) <;> exact ⟨rfl, rfl⟩
  · rcases node with ⟨mark, type, children⟩
    rintro ⟨hgrouping, rfl⟩
    rcases Node.isGrouping_iff.1 hgrouping with h | h
    · obtain rfl : type = .known .begin := h
      exact .begin mark children
    · obtain rfl : type = .known .kwbegin := h
      exact .kwbegin mark children

/-- An absent value gives no statements, and a group gives its own. -/
theorem grouped?_eq_some_iff :
    value.grouped? = some statements ↔
      value = .nil ∧ statements = [] ∨ value.Groups statements := by
  cases value with
  | lit literal =>
    simp only [grouped?, nil, lit.injEq, not_groups_lit, or_false, Option.ite_none_right_eq_some,
      Option.some.injEq, eq_comm (a := []) (b := statements)]
  | list items =>
    simp only [grouped?, nil, not_groups_list, reduceCtorEq, false_and, or_false]
  | node n =>
    simp only [grouped?, nil, groups_node_iff, reduceCtorEq, false_and, false_or,
      Option.ite_none_right_eq_some, Option.some.injEq]

/-- Every other value is a statement. -/
theorem grouped?_eq_none_iff :
    value.grouped? = none ↔ value ≠ .nil ∧ ∀ statements, ¬ value.Groups statements := by
  constructor
  · intro h
    refine ⟨?_, fun statements hgroups => ?_⟩
    · rintro rfl
      cases h
    · cases h.symm.trans (grouped?_eq_some_iff.2 (.inr hgroups))
  · rintro ⟨hnil, hgroups⟩
    cases h : value.grouped? with
    | none => rfl
    | some statements =>
      rcases grouped?_eq_some_iff.1 h with ⟨hvalue, -⟩ | hvalue
      · exact absurd hvalue hnil
      · exact absurd hvalue (hgroups statements)

end Value

/-! ## Where bodies start -/

namespace Node

variable {type : NodeType} {start : Nat}

/-- A body starts at the slot of that name.  Groups declare the slot as well, but all their children
are statements, and the one type besides is read as a plain slot. -/
theorem bodyStart?_eq_some_iff :
    bodyStart? type = some start ↔
      type.slotIndex? .body = some start ∧
        type ∉ [.known .begin, .known .kwbegin, .known .kwbody] := by
  cases type with
  | known kind =>
    have htable : ∀ kind ∈ Kind.all, bodyStart? (.known kind) =
        if kind ∈ [Kind.begin, .kwbegin, .kwbody] then none else kind.slotIndex? .body := by
      decide
    rw [htable kind (Kind.mem_all kind)]
    simp [NodeType.slotIndex?, and_comm]
  | other name h => simp [bodyStart?, NodeType.slotIndex?]

example : (Kind.all.filter fun kind => (bodyStart? (.known kind)).isSome).length = 19 := by
  decide

/-- A type with a body of its own is no group. -/
theorem isGrouping_of_bodyStart? (h : bodyStart? type = some start) :
    isGrouping type = false := by
  rw [Bool.eq_false_iff, Ne, isGrouping_iff]
  rintro (rfl | rfl) <;> cases h

/-- The body of a node is what its first child stands for.  A statement there is alone at the
front, and all children from it on belong to the body elsewhere. -/
theorem body_eq {node : Node α} (h : bodyStart? node.type = some start) :
    node.body = .ok ((node.child start).grouped?.getD
      (if start = 0 then [node.child 0] else node.children.drop start)) := by
  rw [← bodyFrom_eq, body, isGrouping_of_bodyStart? h, if_neg Bool.false_ne_true, h]

/-- The child behind some children. -/
theorem child_length (mark : α) (type : NodeType) (front : List (Value α)) (value : Value α)
    (rest : List (Value α)) :
    (⟨mark, type, front ++ value :: rest⟩ : Node α).child front.length = value := by
  rw [child, List.getElem?_append_right (Nat.le_refl _), Nat.sub_self]
  rfl

/-! ## Groups in bodies -/

/-- How nodes of a type read their bodies, which start at a position. -/
structure OpensGroups (α : Type) (type : NodeType) (start : Nat) : Prop where
  /-- A group where the body starts stands for the statements in it, and nothing behind it
  matters. -/
  group (mark : α) (front : List (Value α)) (hfront : front.length = start) (group : Value α)
    (statements : List (Value α)) (hgroup : group.Groups statements) (rest : List (Value α)) :
    body ⟨mark, type, front ++ group :: rest⟩ = .ok statements
  /-- A single statement is the body, with a group around it or without. -/
  statement (mark : α) (front : List (Value α)) (hfront : front.length = start)
    (statement : Value α) (hpresent : statement ≠ .nil)
    (halone : ∀ statements, ¬ statement.Groups statements) :
    body ⟨mark, type, front ++ [statement]⟩ = .ok [statement] ∧
      ∀ group : Value α, group.Groups [statement] →
        body ⟨mark, type, front ++ [group]⟩ = body ⟨mark, type, front ++ [statement]⟩
  /-- Without a child where the body starts, or with an absent one, there are no statements. -/
  absent (mark : α) (children : List (Value α))
    (habsent : ∀ child ∈ children[start]?, child = .nil) :
    body ⟨mark, type, children⟩ = .ok []
  /-- A body at the front is one child, whatever follows it. -/
  front (hstart : start = 0) (mark : α) (first : Value α) (rest others : List (Value α)) :
    body ⟨mark, type, first :: rest⟩ = body ⟨mark, type, first :: others⟩

section Reading

variable {mark : α} {front rest : List (Value α)} {value : Value α}

/-- A body whose first child is a group, or absent, is what this child stands for. -/
theorem body_of_grouped? {statements : List (Value α)} (h : bodyStart? type = some front.length)
    (hgrouped : value.grouped? = some statements) :
    body ⟨mark, type, front ++ value :: rest⟩ = .ok statements := by
  rw [body_eq h, child_length, hgrouped, Option.getD_some]

/-- A body whose first child is a statement and its last one is this statement. -/
theorem body_of_statement (h : bodyStart? type = some front.length)
    (hgrouped : value.grouped? = none) :
    body ⟨mark, type, front ++ [value]⟩ = .ok [value] := by
  rw [body_eq h, child_length, hgrouped, Option.getD_none]
  split
  · next hlength => rw [← hlength, child_length]
  · rw [List.drop_left]

/-- A body at the front is read from the first child alone. -/
theorem body_of_front (h : bodyStart? type = some 0) :
    body ⟨mark, type, value :: rest⟩ = .ok (value.grouped?.getD [value]) := by
  rw [body_eq h, if_pos rfl]
  rfl

/-- A body with no child where it starts, or with an absent one, has no statements. -/
theorem body_of_absent {children : List (Value α)} {start : Nat} (h : bodyStart? type = some start)
    (habsent : ∀ child ∈ children[start]?, child = .nil) :
    body ⟨mark, type, children⟩ = .ok [] := by
  have hchild : (⟨mark, type, children⟩ : Node α).child start = .nil := by
    rw [child]
    cases hfirst : children[start]? with
    | none => rfl
    | some value => exact habsent value hfirst
  rw [body_eq h, hchild]
  rfl

end Reading

/-- A body starts at the slot of that name, on every type that declares one apart from groups and
one type besides, and there it is read without regard to a group around its statements. -/
theorem body_opens_groups (type : NodeType) (start : Nat) :
    (bodyStart? type = some start ↔ type.slotIndex? .body = some start ∧
      type ∉ [.known .begin, .known .kwbegin, .known .kwbody]) ∧
    (bodyStart? type = some start → OpensGroups α type start) := by
  refine ⟨bodyStart?_eq_some_iff, fun h => ?_⟩
  constructor
  case group =>
    rintro mark front rfl group statements hgroup rest
    exact body_of_grouped? h (Value.grouped?_eq_some_iff.2 (.inr hgroup))
  case statement =>
    rintro mark front rfl statement hpresent halone
    have hbody : body ⟨mark, type, front ++ [statement]⟩ = .ok [statement] :=
      body_of_statement h (Value.grouped?_eq_none_iff.2 ⟨hpresent, halone⟩)
    refine ⟨hbody, fun group hgroup => ?_⟩
    rw [hbody]
    exact body_of_grouped? h (Value.grouped?_eq_some_iff.2 (.inr hgroup))
  case absent =>
    intro mark children habsent
    exact body_of_absent h habsent
  case front =>
    rintro rfl mark first rest others
    rw [body_of_front h, body_of_front h]

/-- A module over a group that holds a group, and a clause whose group is not the last child. -/
theorem body_opens_groups_nested :
    let inner : Value Unit := .node ⟨(), .known .begin, [.lit (.int 1)]⟩
    let outer : Value Unit := .node ⟨(), .known .kwbegin, [inner, .nil]⟩
    bodyStart? (.known .moduleDefn) = some 1 ∧
      body ⟨(), .known .moduleDefn, [.nil, outer]⟩ = .ok [inner, .nil] ∧
      body ⟨(), .known .moduleDefn, [.nil, outer, inner]⟩ = .ok [inner, .nil] ∧
      bodyStart? (.known .ensure) = some 0 ∧
      body ⟨(), .known .ensure, [.lit (.bool false)]⟩ = .ok [.lit (.bool false)] ∧
      body ⟨(), .known .ensure, [.lit (.bool false), outer]⟩ =
        body ⟨(), .known .ensure, [.lit (.bool false)]⟩ := by
  intro inner outer
  have hmodule := (body_opens_groups (α := Unit) (.known .moduleDefn) 1).2 rfl
  have hensure := (body_opens_groups (α := Unit) (.known .ensure) 0).2 rfl
  have hgroup : outer.Groups [inner, .nil] := .kwbegin () _
  refine ⟨rfl, ?_, ?_, rfl, ?_, ?_⟩
  · exact hmodule.group () [.nil] rfl outer _ hgroup []
  · exact hmodule.group () [.nil] rfl outer _ hgroup [inner]
  · exact (hensure.statement () [] rfl _ (by simp [Value.nil])
      fun statements => Value.not_groups_lit _).1
  · exact hensure.front rfl () _ [outer] []

end Node

end RubyTree
