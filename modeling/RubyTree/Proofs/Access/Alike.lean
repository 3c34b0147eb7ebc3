import Mathlib.Data.List.Forall2
import RubyTree.Access.Property

/-!
# What accessors look at

What an accessor does with a node depends on the type of the node, on how many children
there are, on which of them are nodes and of what types, and on where children are
absent.  A relation between values that keeps all this is kept by every accessor: it is
refused on both of two related nodes, or has related answers.

Main results:

- `Value.KeepsShape` says which relations these are.
- `AnswersAlike` relates the outcomes of one accessor on two nodes.
- `KeepsShape.answersAlike_slotNamed` and `KeepsShape.answersAlike_derived`: slots and derived
  properties, and `KeepsShape.answersAlike_ofSlot` what the name of a slot means.
-/

namespace RubyTree

variable {α β : Type} {ρ σ ρ' σ' : Type}

/-! ## Outcomes of one accessor on two nodes -/

/-- Two outcomes of an accessor are alike: both are answers, and related, or the accessor is refused
on both nodes. -/
inductive AnswersAlike (accessor : String) (a : Node α) (b : Node β) (related : ρ → σ → Prop) :
    Except (AccessError α) ρ → Except (AccessError β) σ → Prop
  /-- Both nodes answer. -/
  | answered {x : ρ} {y : σ} (h : related x y) :
      AnswersAlike accessor a b related (.ok x) (.ok y)
  /-- Both nodes refuse the accessor. -/
  | refused : AnswersAlike accessor a b related
      (.error (.unsupported accessor a)) (.error (.unsupported accessor b))

theorem AnswersAlike.map {accessor : String} {a : Node α} {b : Node β} {related : ρ → σ → Prop}
    {related' : ρ' → σ' → Prop} {f : ρ → ρ'} {g : σ → σ'}
    {outcome : Except (AccessError α) ρ} {other : Except (AccessError β) σ}
    (h : AnswersAlike accessor a b related outcome other)
    (himp : ∀ x y, related x y → related' (f x) (g y)) :
    AnswersAlike accessor a b related' (outcome.map f) (other.map g) := by
  cases h with
  | answered h => exact .answered (himp _ _ h)
  | refused => exact .refused

/-! ## Places in lists -/

theorem rel_getElem? {related : ρ → σ → Prop} {xs : List ρ} {ys : List σ}
    (h : List.Forall₂ related xs ys) (index : Nat) : Option.Rel related xs[index]? ys[index]? := by
  induction h generalizing index with
  | nil => exact .none
  | cons hhead _ ih =>
    cases index with
    | zero => exact .some hhead
    | succ index => exact ih index

theorem rel_getLast? {related : ρ → σ → Prop} {xs : List ρ} {ys : List σ}
    (h : List.Forall₂ related xs ys) : Option.Rel related xs.getLast? ys.getLast? := by
  rw [List.getLast?_eq_getElem?, List.getLast?_eq_getElem?, h.length_eq]
  exact rel_getElem? h _

theorem forall₂_dropLast {related : ρ → σ → Prop} {xs : List ρ} {ys : List σ}
    (h : List.Forall₂ related xs ys) : List.Forall₂ related xs.dropLast ys.dropLast := by
  rw [List.dropLast_eq_take, List.dropLast_eq_take, h.length_eq]
  exact List.forall₂_take _ h

/-! ## Relations between values -/

/-- Two values have one shape: they are literals, both of them absent or none; nodes of one type,
with related children; or lists of related values. -/
inductive Value.SameShape (related : Value α → Value β → Prop) : Value α → Value β → Prop
  /-- Two literals. -/
  | lit {l m : Literal} (h : l = .nil ↔ m = .nil) : SameShape related (.lit l) (.lit m)
  /-- Two nodes. -/
  | node {a : Node α} {b : Node β} (htype : a.type = b.type)
      (hchildren : List.Forall₂ related a.children b.children) :
      SameShape related (.node a) (.node b)
  /-- Two lists. -/
  | list {xs : List (Value α)} {ys : List (Value β)} (h : List.Forall₂ related xs ys) :
      SameShape related (.list xs) (.list ys)

/-- The relation between values keeps the shape, and relates absent values and lists of related
values. -/
structure Value.KeepsShape (related : Value α → Value β → Prop) : Prop where
  /-- Related values have one shape. -/
  shape : ∀ {x : Value α} {y : Value β}, related x y → SameShape related x y
  /-- Absent values are related. -/
  nil : related .nil .nil
  /-- Lists of related values are related. -/
  list : ∀ {xs : List (Value α)} {ys : List (Value β)}, List.Forall₂ related xs ys →
    related (.list xs) (.list ys)

namespace Value.KeepsShape

variable {related : Value α → Value β → Prop} {a : Node α} {b : Node β}

/-! ## Children of related nodes -/

theorem type_eq (hkeeps : KeepsShape related) (h : related (.node a) (.node b)) :
    a.type = b.type := by
  cases hkeeps.shape h with
  | node htype _ => exact htype

theorem children (hkeeps : KeepsShape related) (h : related (.node a) (.node b)) :
    List.Forall₂ related a.children b.children := by
  cases hkeeps.shape h with
  | node _ hchildren => exact hchildren

theorem hasKind_eq (hkeeps : KeepsShape related) (h : related (.node a) (.node b)) (kind : Kind) :
    a.hasKind kind = b.hasKind kind := by
  rw [Node.hasKind, Node.hasKind, hkeeps.type_eq h]

/-- Values that may be missing are related with the absent value in the place of missing ones. -/
theorem getD (hkeeps : KeepsShape related) {x : Option (Value α)} {y : Option (Value β)}
    (h : Option.Rel related x y) : related (x.getD .nil) (y.getD .nil) := by
  cases h with
  | some h => exact h
  | none => exact hkeeps.nil

theorem child (hkeeps : KeepsShape related) (h : related (.node a) (.node b)) (index : Nat) :
    related (a.child index) (b.child index) :=
  hkeeps.getD (rel_getElem? (hkeeps.children h) index)

theorem elseStatement (hkeeps : KeepsShape related) (h : related (.node a) (.node b)) :
    related a.elseStatement b.elseStatement :=
  hkeeps.getD (rel_getLast? (hkeeps.children h))

theorem inner (hkeeps : KeepsShape related) (h : related (.node a) (.node b)) :
    List.Forall₂ related a.inner b.inner :=
  forall₂_dropLast (List.forall₂_drop 1 (hkeeps.children h))

theorem node? (hkeeps : KeepsShape related) {x : Value α} {y : Value β} (h : related x y) :
    Option.Rel (fun m n => related (.node m) (.node n)) x.node? y.node? := by
  cases hkeeps.shape h with
  | lit _ => exact .none
  | node _ _ => exact .some h
  | list _ => exact .none

theorem childNodes (hkeeps : KeepsShape related) (h : related (.node a) (.node b)) :
    List.Forall₂ (fun m n => related (.node m) (.node n)) a.childNodes b.childNodes :=
  List.rel_filterMap (fun _ _ hvalue => hkeeps.node? hvalue) (hkeeps.children h)

theorem childNodesOf (hkeeps : KeepsShape related) (h : related (.node a) (.node b))
    (kind : Kind) :
    List.Forall₂ (fun m n => related (.node m) (.node n)) (a.childNodesOf kind)
      (b.childNodesOf kind) :=
  List.rel_filter (fun m n hnode => by simp only [hkeeps.hasKind_eq hnode]) (hkeeps.childNodes h)

theorem unpackParameters (hkeeps : KeepsShape related) {x : Value α} {y : Value β}
    (h : related x y) :
    List.Forall₂ related (Node.unpackParameters x) (Node.unpackParameters y) := by
  cases hkeeps.shape h with
  | lit _ => exact .cons h .nil
  | list _ => exact .cons h .nil
  | @node m n _ hchildren =>
    rw [Node.unpackParameters, Node.unpackParameters, hkeeps.hasKind_eq h]
    split
    · exact hchildren
    · exact .cons h .nil

end Value.KeepsShape

/-! ## Bodies -/

/-- The statements that a value groups at the start of a body: none if it is absent.  Any other
value is a statement itself. -/
def Value.grouped? : Value α → Option (List (Value α))
  | .lit literal => if literal = .nil then some [] else none
  | .node first => if Node.isGrouping first.type then some first.children else none
  | .list _ => none

/-- A body is what its first child groups, or else the first child alone at the front and all
children from there on elsewhere. -/
theorem Node.bodyFrom_eq (node : Node α) (start : Nat) :
    node.bodyFrom start = (node.child start).grouped?.getD
      (if start = 0 then [node.child 0] else node.children.drop start) := by
  unfold bodyFrom
  generalize node.child start = first
  cases first with
  | lit literal => cases literal <;> rfl
  | node first =>
    simp only [Value.grouped?]
    cases isGrouping first.type <;> rfl
  | list items => rfl

namespace Value.KeepsShape

variable {related : Value α → Value β → Prop} {a : Node α} {b : Node β}

theorem grouped? (hkeeps : KeepsShape related) {x : Value α} {y : Value β} (h : related x y) :
    Option.Rel (List.Forall₂ related) x.grouped? y.grouped? := by
  cases hkeeps.shape h with
  | lit hnil =>
    simp only [Value.grouped?, hnil]
    split
    · exact .some .nil
    · exact .none
  | node htype hchildren =>
    simp only [Value.grouped?, htype]
    split
    · exact .some hchildren
    · exact .none
  | list _ => exact .none

theorem bodyFrom (hkeeps : KeepsShape related) (h : related (.node a) (.node b)) (start : Nat) :
    List.Forall₂ related (a.bodyFrom start) (b.bodyFrom start) := by
  have hgrouped := hkeeps.grouped? (hkeeps.child h start)
  rw [Node.bodyFrom_eq, Node.bodyFrom_eq]
  generalize (a.child start).grouped? = xs at hgrouped
  generalize (b.child start).grouped? = ys at hgrouped
  cases hgrouped with
  | some h => exact h
  | none =>
    split
    · exact .cons (hkeeps.child h 0) .nil
    · exact List.forall₂_drop start (hkeeps.children h)

/-! ## Accessors by name -/

/-- A slot is refused on both of two related nodes or has related answers. -/
theorem answersAlike_slot (hkeeps : KeepsShape related) (h : related (.node a) (.node b))
    (slot : Slot) : AnswersAlike slot.label a b related (a.slot slot) (b.slot slot) := by
  rw [Node.slot, Node.slot, hkeeps.type_eq h]
  cases b.type.slotIndex? slot with
  | some index => exact .answered (hkeeps.child h index)
  | none => exact .refused

/-- So is a slot by any name. -/
theorem answersAlike_slotNamed (hkeeps : KeepsShape related) (h : related (.node a) (.node b))
    (label : String) :
    AnswersAlike label a b related (a.slotNamed label) (b.slotNamed label) := by
  unfold Node.slotNamed
  split
  · next slot hslot =>
    obtain rfl := Slot.label_of_ofLabel? hslot
    exact hkeeps.answersAlike_slot h slot
  · exact .refused

theorem answersAlike_onKind (hkeeps : KeepsShape related) (h : related (.node a) (.node b))
    (kind : Kind) (accessor : String) {answers : ρ → σ → Prop} {x : ρ} {y : σ}
    (hxy : answers x y) :
    AnswersAlike accessor a b answers (a.onKind kind accessor x) (b.onKind kind accessor y) := by
  rw [Node.onKind, Node.onKind, hkeeps.hasKind_eq h]
  split
  · exact .answered hxy
  · exact .refused

theorem answersAlike_onHash (hkeeps : KeepsShape related) (h : related (.node a) (.node b))
    (accessor : String) {answers : ρ → σ → Prop} {x : ρ} {y : σ} (hxy : answers x y) :
    AnswersAlike accessor a b answers (a.onHash accessor x) (b.onHash accessor y) := by
  rw [Node.onHash, Node.onHash, hkeeps.type_eq h]
  split
  · exact .answered hxy
  · exact .refused

theorem answersAlike_arguments (hkeeps : KeepsShape related) (h : related (.node a) (.node b)) :
    AnswersAlike "arguments" a b (List.Forall₂ related) a.arguments b.arguments := by
  have hchildren := hkeeps.children h
  rw [Node.arguments, Node.arguments, hkeeps.type_eq h]
  split
  · next index _ => exact .answered (hkeeps.unpackParameters (hkeeps.child h index))
  · split
    · exact .answered (List.forall₂_drop 2 hchildren)
    · exact .answered (List.forall₂_drop 2 hchildren)
    · exact .answered hchildren
    · exact .answered hchildren
    · exact .refused

theorem answersAlike_body (hkeeps : KeepsShape related) (h : related (.node a) (.node b)) :
    AnswersAlike "body" a b (List.Forall₂ related) a.body b.body := by
  rw [Node.body, Node.body, hkeeps.type_eq h]
  split
  · exact .answered (hkeeps.children h)
  · split
    · next start _ => exact .answered (hkeeps.bodyFrom h start)
    · exact .refused

theorem answersAlike_elements (hkeeps : KeepsShape related) (h : related (.node a) (.node b)) :
    AnswersAlike "elements" a b (List.Forall₂ related) a.elements b.elements := by
  have hchildren := hkeeps.children h
  rw [Node.elements, Node.elements, hkeeps.type_eq h]
  split
  · exact .answered hchildren
  · exact hkeeps.answersAlike_onKind h .regexp "elements" (forall₂_dropLast hchildren)

theorem ofNodes (hkeeps : KeepsShape related) {ms : List (Node α)} {ns : List (Node β)}
    (h : List.Forall₂ (fun m n => related (.node m) (.node n)) ms ns) :
    related (.ofNodes ms) (.ofNodes ns) := by
  apply hkeeps.list
  rw [List.forall₂_map_left_iff, List.forall₂_map_right_iff]
  exact h

theorem map_child (hkeeps : KeepsShape related) {ms : List (Node α)} {ns : List (Node β)}
    (h : List.Forall₂ (fun m n => related (.node m) (.node n)) ms ns) (index : Nat) :
    List.Forall₂ related (ms.map (·.child index)) (ns.map (·.child index)) := by
  rw [List.forall₂_map_left_iff, List.forall₂_map_right_iff]
  exact h.imp fun _ _ hnode => hkeeps.child hnode index

/-- A derived property is refused on both of two related nodes or has related answers. -/
theorem answersAlike_derived (hkeeps : KeepsShape related) (h : related (.node a) (.node b))
    (property : Derived) :
    AnswersAlike property.name a b related (property.read a) (property.read b) := by
  have hpairs := hkeeps.childNodesOf h .pair
  cases property with
  | arguments => exact (hkeeps.answersAlike_arguments h).map fun _ _ => hkeeps.list
  | body => exact (hkeeps.answersAlike_body h).map fun _ _ => hkeeps.list
  | whenStatements =>
    exact (hkeeps.answersAlike_onKind h .case "when_statements" (hkeeps.inner h)).map
      fun _ _ => hkeeps.list
  | inStatements =>
    exact (hkeeps.answersAlike_onKind h .caseMatch "in_statements" (hkeeps.inner h)).map
      fun _ _ => hkeeps.list
  | rescueBodies =>
    exact (hkeeps.answersAlike_onKind h .rescue "rescue_bodies" (hkeeps.inner h)).map
      fun _ _ => hkeeps.list
  | ensureBody =>
    exact (hkeeps.answersAlike_onKind h .ensure "ensure_body"
      (List.forall₂_drop 1 (hkeeps.children h))).map fun _ _ => hkeeps.list
  | elseStatement => exact .answered (hkeeps.elseStatement h)
  | elements => exact (hkeeps.answersAlike_elements h).map fun _ _ => hkeeps.list
  | options => exact hkeeps.answersAlike_onKind h .regexp "options" (hkeeps.elseStatement h)
  | exceptions => exact hkeeps.answersAlike_onKind h .resbody "exceptions" (hkeeps.child h 0)
  | pairs => exact (hkeeps.answersAlike_onHash h "pairs" hpairs).map fun _ _ => hkeeps.ofNodes
  | kwsplats =>
    exact (hkeeps.answersAlike_onHash h "kwsplats" (hkeeps.childNodesOf h .kwsplat)).map
      fun _ _ => hkeeps.ofNodes
  | keys =>
    exact (hkeeps.answersAlike_onHash h "keys" (hkeeps.map_child hpairs 0)).map
      fun _ _ => hkeeps.list
  | values =>
    exact (hkeeps.answersAlike_onHash h "values" (hkeeps.map_child hpairs 1)).map
      fun _ _ => hkeeps.list

/-- The property that a slot means is refused on both of two related nodes or has related
answers. -/
theorem answersAlike_ofSlot (hkeeps : KeepsShape related) (h : related (.node a) (.node b))
    (slot : Slot) :
    AnswersAlike slot.label a b related ((Property.ofSlot slot).read a)
      ((Property.ofSlot slot).read b) := by
  unfold Property.ofSlot
  split
  · next property hproperty =>
    have hname : property.name = slot.label := by simpa using List.find?_some hproperty
    rw [← hname]
    exact hkeeps.answersAlike_derived h property
  · exact hkeeps.answersAlike_slot h slot

end Value.KeepsShape

end RubyTree
