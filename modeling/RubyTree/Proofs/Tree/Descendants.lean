import Mathlib.Data.List.Nodup
import Mathlib.Data.List.Perm.Basic
import RubyTree.Tree.Node

/-!
# The nodes of a tree

The nodes below a node are its child nodes, each followed by those below it.  Everything
else about the pre-order list follows from this equation by induction from the child
nodes to their parent.

Main results:

- `Node.descendants_eq` is the equation, and `Node.childNodesInduction` the induction.
- `Node.mem_descendants_iff`: the nodes below a node are the child nodes of the node and
  of the nodes below it.
- `Node.infix_descendants`: what stands below a node of a tree is one piece of the
  pre-order list, right behind the node.
- `Node.bottomUp` is the order in which children stand before their parents.
-/

namespace RubyTree

variable {α β : Type}

/-! ## Child nodes -/

namespace Node

theorem mem_childNodes {node child : Node α} :
    child ∈ node.childNodes ↔ .node child ∈ node.children := by
  rw [childNodes, List.mem_filterMap]
  constructor
  · rintro ⟨value, hvalue, hnode⟩
    cases value with
    | node other => cases hnode; exact hvalue
    | lit literal => cases hnode
    | list items => cases hnode
  · intro h
    exact ⟨_, h, rfl⟩

/-- A child node is smaller than its parent. -/
theorem sizeOf_lt_of_mem_childNodes {node child : Node α} (h : child ∈ node.childNodes) :
    sizeOf child < sizeOf node := by
  have hmem := List.sizeOf_lt_of_mem (mem_childNodes.1 h)
  rcases node with ⟨mark, type, children⟩
  simp only [Value.node.sizeOf_spec, Node.mk.sizeOf_spec] at hmem ⊢
  omega

/-- What holds of a node whenever it holds of the child nodes holds of all nodes. -/
@[elab_as_elim]
theorem childNodesInduction {motive : Node α → Prop}
    (step : ∀ node, (∀ child ∈ node.childNodes, motive child) → motive node) (node : Node α) :
    motive node :=
  step node fun child h =>
    have := sizeOf_lt_of_mem_childNodes h
    childNodesInduction step child
termination_by sizeOf node

end Node

/-! ## Descendants -/

/-- The nodes among values are those that values are, each followed by those below it. -/
theorem Value.nodesAmong_eq (values : List (Value α)) :
    Value.nodesAmong values =
      (values.filterMap Value.node?).flatMap fun child => child :: child.descendants := by
  induction values with
  | nil => rfl
  | cons value rest ih =>
    cases value with
    | lit literal => exact ih
    | list items => exact ih
    | node node => exact congrArg (node :: node.descendants ++ ·) ih

namespace Node

theorem descendants_eq (node : Node α) :
    node.descendants = node.childNodes.flatMap fun child => child :: child.descendants := by
  rcases node with ⟨mark, type, children⟩
  exact Value.nodesAmong_eq children

/-- Among a node and those below it, the child nodes of all are those below it. -/
theorem flatMap_childNodes_perm (node : Node α) :
    ((node :: node.descendants).flatMap childNodes).Perm node.descendants := by
  induction node using childNodesInduction with
  | step node ih =>
    have hbelow : (node.descendants.flatMap childNodes).Perm
        (node.childNodes.flatMap descendants) := by
      rw [descendants_eq, List.flatMap_assoc]
      exact List.Perm.flatMap_left _ ih
    rw [List.flatMap_cons]
    refine (hbelow.append_left _).trans ?_
    rw [descendants_eq node]
    simpa using List.map_append_flatMap_perm node.childNodes id descendants

/-- A node stands below another one if it is a child node of it or of a node below it. -/
theorem mem_descendants_iff {node other : Node α} :
    other ∈ node.descendants ↔ ∃ parent ∈ node :: node.descendants, other ∈ parent.childNodes := by
  rw [← node.flatMap_childNodes_perm.mem_iff, List.mem_flatMap]

/-- A child node and all nodes below it stand below its parent. -/
theorem cons_descendants_subset {node child : Node α} (h : child ∈ node.childNodes) :
    child :: child.descendants ⊆ node.descendants := by
  intro other hother
  rw [descendants_eq, List.mem_flatMap]
  exact ⟨child, h, hother⟩

/-- In the pre-order list of a tree, what stands below a node follows it in one piece. -/
theorem infix_descendants {node other : Node α} (h : other ∈ node :: node.descendants) :
    other :: other.descendants <:+: node :: node.descendants := by
  induction node using childNodesInduction with
  | step node ih =>
    rcases List.mem_cons.1 h with rfl | hbelow
    · exact List.infix_rfl
    · rw [descendants_eq, List.mem_flatMap] at hbelow
      rcases hbelow with ⟨child, hchild, hother⟩
      have hblock : child :: child.descendants <:+: node.descendants := by
        rw [descendants_eq node]
        exact List.infix_flatMap_of_mem hchild fun child => child :: child.descendants
      exact ((ih child hchild hother).trans hblock).trans (List.suffix_cons _ _).isInfix

/-- A node below another one is smaller. -/
theorem sizeOf_lt_of_mem_descendants {node other : Node α} (h : other ∈ node.descendants) :
    sizeOf other < sizeOf node := by
  induction node using childNodesInduction with
  | step node ih =>
    rw [descendants_eq, List.mem_flatMap] at h
    rcases h with ⟨child, hchild, hother⟩
    have hlt := sizeOf_lt_of_mem_childNodes hchild
    rcases List.mem_cons.1 hother with rfl | hbelow
    · exact hlt
    · exact Nat.lt_trans (ih child hchild hbelow) hlt

/-- What stands below a node of a tree stands below its root. -/
theorem descendants_subset {node other : Node α} (h : other ∈ node :: node.descendants) :
    other.descendants ⊆ node.descendants :=
  (infix_descendants h).sublist.tail.subset

end Node

/-! ## Other marks -/

mutual

/-- With other marks, a tree lists its nodes as before. -/
theorem Node.descendants_map (f : α → β) (node : Node α) :
    (node.map f).descendants = node.descendants.map (Node.map f) := by
  match node with
  | ⟨mark, type, children⟩ =>
    rw [Node.map, Node.descendants, Value.nodesAmong_mapAll f children, Node.descendants]

theorem Value.nodesAmong_mapAll (f : α → β) (values : List (Value α)) :
    Value.nodesAmong (Value.mapAll f values) = (Value.nodesAmong values).map (Node.map f) := by
  match values with
  | [] => rfl
  | .lit literal :: rest => exact Value.nodesAmong_mapAll f rest
  | .list items :: rest => exact Value.nodesAmong_mapAll f rest
  | .node node :: rest =>
    rw [Value.mapAll, Value.map, Value.nodesAmong, Node.descendants_map f node,
      Value.nodesAmong_mapAll f rest, Value.nodesAmong, List.map_append, List.map_cons]

end

/-- Whatever marks are changed into is the mark of every node afterwards. -/
theorem Node.exists_mark_of_mem_map {f : α → β} {tree : Node α} {node : Node β}
    (h : node ∈ tree.map f :: (tree.map f).descendants) : ∃ mark, node.mark = f mark := by
  rw [Node.descendants_map, ← List.map_cons, List.mem_map] at h
  rcases h with ⟨⟨mark, type, children⟩, -, rfl⟩
  exact ⟨mark, rfl⟩

/-! ## Children before their parents -/

mutual

/-- The nodes of a tree, each behind those below it. -/
def Node.bottomUp : Node α → List (Node α)
  | ⟨mark, type, children⟩ => Value.bottomUpAll children ++ [⟨mark, type, children⟩]

/-- The nodes among values, each behind those below it. -/
def Value.bottomUpAll : List (Value α) → List (Node α)
  | [] => []
  | .node node :: rest => node.bottomUp ++ Value.bottomUpAll rest
  | .lit _ :: rest => Value.bottomUpAll rest
  | .list _ :: rest => Value.bottomUpAll rest

end

mutual

/-- Both orders list the same nodes. -/
theorem Node.bottomUp_perm (node : Node α) : node.bottomUp.Perm (node :: node.descendants) := by
  match node with
  | ⟨mark, type, children⟩ =>
    rw [Node.bottomUp, Node.descendants]
    exact (List.perm_append_singleton _ _).trans ((Value.bottomUpAll_perm children).cons _)

theorem Value.bottomUpAll_perm (values : List (Value α)) :
    (Value.bottomUpAll values).Perm (Value.nodesAmong values) := by
  match values with
  | [] => exact .nil
  | .node node :: rest => exact (Node.bottomUp_perm node).append (Value.bottomUpAll_perm rest)
  | .lit _ :: rest => exact Value.bottomUpAll_perm rest
  | .list _ :: rest => exact Value.bottomUpAll_perm rest

end

theorem Node.mem_bottomUp (node : Node α) : node ∈ node.bottomUp :=
  node.bottomUp_perm.mem_iff.2 List.mem_cons_self

end RubyTree
