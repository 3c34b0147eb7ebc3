import Mathlib.Data.List.Forall2
import RubyTree.Proofs.Access.Answers
import RubyTree.Proofs.Tree.Descendants

/-!
# What values hold

The value of a node is found by taking literal nodes off: an array gives way to a list, a group to
its first statement, and a literal node to its literal.  This stops at the first node of another
type on each way down, so a value holds nothing but such nodes, each of them one of the tree.

Main results:

- `Value.occurring` lists the nodes that a value holds, and `Value.IsSettledIn` says that they are
  nodes of a tree that stand for themselves.
- `Node.toValue_eq_or_settled`: a node is its own value, or its value holds only nodes below it.
- `Node.toValue_settles` puts this together for trees whose literal nodes have their literals.
-/

namespace RubyTree

variable {α : Type}

/-! ## Types of nodes -/

/-- The types of the nodes that hold a literal. -/
def NodeType.literals : List NodeType :=
  [.known .int, .known .float, .known .str, .known .sym]

/-- The types of the nodes that stand for something else. -/
def NodeType.collapsing : List NodeType :=
  literals ++ [.known .true, .known .false, .known .nil, .known .array, .known .begin,
    .known .kwbegin]

namespace NodeType

theorem reading_eq_lastChild_iff {type : NodeType} :
    type.reading = .lastChild ↔ type ∈ literals := by
  cases type with
  | known kind =>
    exact (by decide +kernel : ∀ kind ∈ Kind.all,
      ((known kind).reading = .lastChild ↔ known kind ∈ literals)) kind kind.mem_all
  | other name h => simp [reading, literals]

theorem reading_eq_itself_iff {type : NodeType} :
    type.reading = .itself ↔ type ∉ collapsing := by
  cases type with
  | known kind =>
    exact (by decide +kernel : ∀ kind ∈ Kind.all,
      ((known kind).reading = .itself ↔ known kind ∉ collapsing)) kind kind.mem_all
  | other name h => simp [reading, collapsing, literals]

end NodeType

/-! ## Nodes in values -/

mutual

/-- The nodes that a value holds: the node that it is, or those in its lists at any depth. -/
def Value.occurring : Value α → List (Node α)
  | .node n => [n]
  | .lit _ => []
  | .list items => Value.occurringAmong items

/-- The nodes that some values hold. -/
def Value.occurringAmong : List (Value α) → List (Node α)
  | [] => []
  | item :: rest => item.occurring ++ Value.occurringAmong rest

end

/-- All nodes that the value holds are among the given ones and stand for themselves. -/
def Value.IsSettledIn (value : Value α) (nodes : List (Node α)) : Prop :=
  ∀ n ∈ value.occurring, n ∈ nodes ∧ n.toValue = .ok (.node n)

/-- The nodes of a tree that are to hold a literal have a last child, which is no node, and no list
among the children of a node holds one. -/
structure Node.HasLiterals (node : Node α) : Prop where
  /-- The last child of a literal node is no node. -/
  last : ∀ m ∈ node :: node.descendants, m.type ∈ NodeType.literals →
    ∃ value, m.children.getLast? = some value ∧ value.node? = none
  /-- Nodes stand among the children only, and not in lists. -/
  lists : ∀ m ∈ node :: node.descendants, ∀ items, .list items ∈ m.children →
    Value.occurringAmong items = []

namespace Value

variable {value : Value α} {nodes others : List (Node α)}

theorem IsSettledIn.mono (h : value.IsSettledIn nodes) (hsubset : nodes ⊆ others) :
    value.IsSettledIn others := by
  intro n hn
  rcases h n hn with ⟨hmem, hfixed⟩
  exact ⟨hsubset hmem, hfixed⟩

theorem isSettledIn_of_occurring_eq_nil (h : value.occurring = []) : value.IsSettledIn nodes := by
  intro n hn
  rw [h] at hn
  cases hn

/-- A node that stands for itself is settled. -/
theorem isSettledIn_self {node : Node α} (hmem : node ∈ nodes)
    (hself : node.toValue = .ok (.node node)) : (Value.node node).IsSettledIn nodes := by
  intro n hn
  obtain rfl := List.mem_singleton.1 hn
  exact ⟨hmem, hself⟩

/-- The nodes that a list holds are those that its items hold. -/
theorem isSettledIn_list {items : List (Value α)}
    (h : ∀ item ∈ items, item.IsSettledIn nodes) : (Value.list items).IsSettledIn nodes := by
  rw [IsSettledIn, occurring]
  induction items with
  | nil =>
    intro n hn
    cases hn
  | cons item rest ih =>
    rcases List.forall_mem_cons.1 h with ⟨hitem, hrest⟩
    intro n hn
    rw [occurringAmong, List.mem_append] at hn
    rcases hn with hn | hn
    · exact hitem n hn
    · exact ih hrest n hn

/-- The values of some children are found one by one. -/
theorem toValues_eq_ok_iff {values results : List (Value α)} :
    toValues values = .ok results ↔
      List.Forall₂ (fun value result => value.toValue = .ok result) values results := by
  induction values generalizing results with
  | nil => simp [toValues, eq_comm]
  | cons value rest ih =>
    rw [List.forall₂_cons_left_iff]
    simp only [← ih]
    cases hvalue : value.toValue with
    | error cause => simp [toValues_of_error hvalue]
    | ok first =>
      rw [toValues_of_ok hvalue]
      cases toValues rest with
      | error cause => simp [Except.map]
      | ok others => simp [Except.map, eq_comm]

/-- Children with settled values have a list of them. -/
theorem exists_toValues {values : List (Value α)}
    (h : ∀ value ∈ values, ∃ result, value.toValue = .ok result ∧ result.IsSettledIn nodes) :
    ∃ results, toValues values = .ok results ∧ (Value.list results).IsSettledIn nodes := by
  suffices hall : ∃ results,
      List.Forall₂ (fun value result => value.toValue = .ok result) values results ∧
        ∀ result ∈ results, result.IsSettledIn nodes by
    rcases hall with ⟨results, hresults, hsettled⟩
    exact ⟨results, toValues_eq_ok_iff.2 hresults, isSettledIn_list hsettled⟩
  induction values with
  | nil => exact ⟨[], .nil, by simp⟩
  | cons value rest ih =>
    rcases List.forall_mem_cons.1 h with ⟨⟨result, hresult, hsettled⟩, hrest⟩
    rcases ih hrest with ⟨results, hresults, hall⟩
    exact ⟨result :: results, .cons hresult hresults, List.forall_mem_cons.2 ⟨hsettled, hall⟩⟩

end Value

/-! ## Values of nodes -/

namespace Node

variable {node child : Node α}

theorem HasLiterals.of_mem_childNodes (h : node.HasLiterals) (hchild : child ∈ node.childNodes) :
    child.HasLiterals := by
  have hsubset : child :: child.descendants ⊆ node :: node.descendants :=
    fun _ hmem => List.mem_cons_of_mem _ (cons_descendants_subset hchild hmem)
  exact ⟨fun m hm => h.last m (hsubset hm), fun m hm => h.lists m (hsubset hm)⟩

theorem toValue_of_itself (h : node.type.reading = .itself) :
    node.toValue = .ok (.node node) := by
  rcases node with ⟨mark, type, children⟩
  rw [toValue.eq_def]
  simp only [h]

/-- A child that is no node holds none. -/
theorem HasLiterals.occurring_eq_nil (h : node.HasLiterals) {value : Value α}
    (hvalue : value ∈ node.children) (hnone : value.node? = none) : value.occurring = [] := by
  cases value with
  | lit literal => rfl
  | list items => exact h.lists node List.mem_cons_self items hvalue
  | node child => cases hnone

/-- Where the child nodes have settled values, all children have. -/
theorem exists_toValue_child (h : node.HasLiterals)
    (hnodes : ∀ child ∈ node.childNodes, ∃ value, child.toValue = .ok value ∧
      value.IsSettledIn (child :: child.descendants))
    {value : Value α} (hvalue : value ∈ node.children) :
    ∃ result, value.toValue = .ok result ∧ result.IsSettledIn node.descendants := by
  cases value with
  | lit literal =>
    exact ⟨_, rfl, Value.isSettledIn_of_occurring_eq_nil (h.occurring_eq_nil hvalue rfl)⟩
  | list items =>
    exact ⟨_, rfl, Value.isSettledIn_of_occurring_eq_nil (h.occurring_eq_nil hvalue rfl)⟩
  | node child =>
    have hchild := mem_childNodes.2 hvalue
    rcases hnodes child hchild with ⟨result, hresult, hsettled⟩
    exact ⟨result, hresult, hsettled.mono (cons_descendants_subset hchild)⟩

/-- A node of a type that collapses has a value, and it holds only nodes below the node, if this is
so for the child nodes. -/
theorem exists_toValue_step (h : node.HasLiterals) (hreading : node.type.reading ≠ .itself)
    (hnodes : ∀ child ∈ node.childNodes, ∃ value, child.toValue = .ok value ∧
      value.IsSettledIn (child :: child.descendants)) :
    ∃ value, node.toValue = .ok value ∧ value.IsSettledIn node.descendants := by
  have hchildren : ∀ value ∈ node.children, ∃ result, value.toValue = .ok result ∧
      result.IsSettledIn node.descendants :=
    fun value hvalue => exists_toValue_child h hnodes hvalue
  have hlast := h.last node List.mem_cons_self
  have hleaf : ∀ value ∈ node.children, value.node? = none → value.occurring = [] :=
    fun _ hvalue hnone => h.occurring_eq_nil hvalue hnone
  rcases node with ⟨mark, type, children⟩
  rw [toValue.eq_def]
  cases hkind : type.reading with
  | lastChild =>
    rcases hlast (NodeType.reading_eq_lastChild_iff.1 hkind) with ⟨value, hvalue, hnone⟩
    have hmem : value ∈ children := List.mem_of_getLast? hvalue
    exact ⟨value, by simp [hkind, hvalue],
      Value.isSettledIn_of_occurring_eq_nil (hleaf value hmem hnone)⟩
  | constant literal =>
    exact ⟨.lit literal, by simp [hkind], Value.isSettledIn_of_occurring_eq_nil rfl⟩
  | allChildren =>
    rcases Value.exists_toValues hchildren with ⟨results, hresults, hsettled⟩
    exact ⟨.list results, by simp [hkind, hresults], hsettled⟩
  | firstChild =>
    cases children with
    | nil => exact ⟨.nil, by simp [hkind], Value.isSettledIn_of_occurring_eq_nil rfl⟩
    | cons first rest =>
      rcases hchildren first List.mem_cons_self with ⟨value, hvalue, hsettled⟩
      exact ⟨value, by simp [hkind, hvalue], hsettled⟩
  | itself => exact absurd hkind hreading

/-- A node is its own value, or its value holds only nodes below it. -/
theorem toValue_eq_or_settled (node : Node α) (h : node.HasLiterals) :
    (node.type.reading = .itself ∧ node.toValue = .ok (.node node)) ∨
      (node.type.reading ≠ .itself ∧
        ∃ value, node.toValue = .ok value ∧ value.IsSettledIn node.descendants) := by
  induction node using childNodesInduction with
  | step node ih =>
    by_cases hreading : node.type.reading = .itself
    · exact .inl ⟨hreading, toValue_of_itself hreading⟩
    · refine .inr ⟨hreading, exists_toValue_step h hreading ?_⟩
      intro child hchild
      -- a child can be its own value, so that the child itself counts as well as what is below it
      rcases ih child hchild (h.of_mem_childNodes hchild) with
        ⟨-, hself⟩ | ⟨-, value, hvalue, hsettled⟩
      · exact ⟨.node child, hself, Value.isSettledIn_self List.mem_cons_self hself⟩
      · exact ⟨value, hvalue, hsettled.mono (List.subset_cons_self _ _)⟩

/-- What the value of an array is. -/
theorem toValue_of_array (htype : node.type = .known .array) {value : Value α}
    (h : node.toValue = .ok value) :
    ∃ items, value = .list items ∧
      List.Forall₂ (fun child item => child.toValue = .ok item) node.children items := by
  rcases node with ⟨mark, type, children⟩
  cases htype
  rw [toValue.eq_def] at h
  cases hvalues : Value.toValues children with
  | error cause => simp [NodeType.reading, hvalues] at h
  | ok items =>
    have hvalue : Value.list items = value := by simpa [NodeType.reading, hvalues] using h
    exact ⟨items, hvalue.symm, Value.toValues_eq_ok_iff.1 hvalues⟩

/-- A tree whose literal nodes have their literals has a value, and no literal node is left in it.
The nodes that the value holds, at any depth of its lists, are nodes of the tree, marks and all, and
each of them is its own value.  The value is the very node that is asked exactly if its type is
none of those that stand for something else.  The value of an array is a list with one entry for
each child, in order: the value of the child. -/
theorem toValue_settles {node : Node α} (h : node.HasLiterals) :
    ∃ value, node.toValue = .ok value ∧
      (∀ n ∈ value.occurring, n ∈ node :: node.descendants ∧ n.toValue = .ok (.node n)) ∧
      (value = .node node ↔ node.type ∉ [.known .int, .known .float, .known .str, .known .sym,
        .known .true, .known .false, .known .nil, .known .array, .known .begin,
        .known .kwbegin]) ∧
      (node.type = .known .array → ∃ items, value = .list items ∧
        List.Forall₂ (fun child item => child.toValue = .ok item) node.children items) := by
  have htypes : node.type.reading = .itself ↔ node.type ∉ NodeType.collapsing :=
    NodeType.reading_eq_itself_iff
  rcases toValue_eq_or_settled node h with ⟨hreading, hself⟩ | ⟨hreading, value, hvalue, hsettled⟩
  · refine ⟨.node node, hself, ?_, ?_, fun htype => toValue_of_array htype hself⟩
    · exact Value.isSettledIn_self List.mem_cons_self hself
    · exact iff_of_true rfl (htypes.1 hreading)
  · refine ⟨value, hvalue, ?_, ?_, fun htype => toValue_of_array htype hvalue⟩
    · exact hsettled.mono (List.subset_cons_self _ _)
    · refine iff_of_false ?_ (fun htype => hreading (htypes.2 htype))
      -- a node does not stand below itself
      rintro rfl
      have hbelow := (hsettled node List.mem_cons_self).1
      exact absurd (sizeOf_lt_of_mem_descendants hbelow) (Nat.lt_irrefl _)

/-- Two calls that look the same, one of them in an array in a group: each keeps its mark. -/
theorem toValue_settles_nested :
    let first : Node Nat := ⟨0, .known .send, []⟩
    let second : Node Nat := ⟨1, .known .send, []⟩
    let number : Node Nat := ⟨2, .known .int, [.lit (.int 7)]⟩
    let inner : Node Nat := ⟨3, .known .array, [.node number, .node first]⟩
    let group : Node Nat := ⟨4, .known .begin, [.node inner, .lit .nil]⟩
    let root : Node Nat := ⟨5, .known .array, [.node group, .lit (.bool true), .node second]⟩
    let value : Value Nat :=
      .list [.list [.lit (.int 7), .node first], .lit (.bool true), .node second]
    root.HasLiterals ∧ root.toValue = .ok value ∧
      (∀ n ∈ value.occurring, n ∈ root :: root.descendants ∧ n.toValue = .ok (.node n)) ∧
      value ≠ .node root := by
  intro first second number inner group root value
  have hnodes : root :: root.descendants = [root, group, inner, number, first, second] := rfl
  have hliterals : root.HasLiterals := by
    constructor
    · rw [hnodes]
      simp [NodeType.literals, root, group, inner, number, first, second, Value.node?]
    · rw [hnodes]
      simp [root, group, inner, number, first, second]
  rcases toValue_settles hliterals with ⟨found, hfound, hsettled, hself, -⟩
  have hvalue : root.toValue = .ok value := rfl
  cases hfound.symm.trans hvalue
  refine ⟨hliterals, hvalue, hsettled, fun heq => ?_⟩
  exact hself.1 heq (by decide)

end Node

end RubyTree
