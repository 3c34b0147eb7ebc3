import Mathlib.Algebra.Field.Rat
import Mathlib.Data.Int.Cast.Lemmas
import Mathlib.Data.List.Forall2
import RubyTree.Tree.Node

/-!
# Equality of trees

Trees are equal if they have the same types and equal literals at the same places.
Literals that are numbers are equal if they stand for the same rational number, whatever
their form; all others are equal only to themselves.  What is not a number equals
nothing, so a tree equals itself if no such value stands in it.

Main results:

- `Literal.equal_iff` says what equal literals are.
- `Node.equal_iff` and `Value.equalAll_iff` take equality to the children and to the
  items of lists.
- `Node.equal_self`, `Node.equal_comm` and `Node.equal_trans`: equality is an equivalence.
- `Node.equal_map`: it does not look at the marks.
- `Node.forall₂_descendants`: equal trees have equal nodes, one by one.
-/

namespace RubyTree

variable {α β γ δ : Type}

/-! ## Literals -/

namespace Literal

/-- The rational number that a literal stands for exactly: truth values are one and zero. -/
def rational? : Literal → Option ℚ
  | .bool value => some (if value then 1 else 0)
  | .int value => some value
  | .float (.finite negative rank) =>
    some (Binary64.signedUnits negative rank / Binary64.unitsPerOne)
  | _ => none

theorem unitsPerOne_ne_zero : (Binary64.unitsPerOne : ℚ) ≠ 0 := by
  have hpos : 0 < Binary64.unitsPerOne := by decide
  exact Nat.cast_ne_zero.2 hpos.ne'

/-- The finite numbers of literals are the rational ones, counted in units. -/
theorem rational?_eq_some_iff {l : Literal} {q : ℚ} :
    l.rational? = some q ↔
      ∃ units : Int, l.number? = some (.finite units) ∧ units / Binary64.unitsPerOne = q := by
  cases l with
  | bool value => cases value <;> simp [rational?, number?, div_self unitsPerOne_ne_zero]
  | int value => simp [rational?, number?, mul_div_cancel_right₀ _ unitsPerOne_ne_zero]
  | float value => cases value <;> simp [rational?, number?]
  | _ => simp [rational?, number?]

theorem number?_eq_infinite_iff {l : Literal} {negative : Bool} :
    l.number? = some (.infinite negative) ↔ l = .float (.infinite negative) := by
  cases l with
  | float value => cases value <;> simp [number?]
  | _ => simp [number?]

/-- Literals are equal if they stand for the same rational number, and otherwise only if they are
the same, and not the value that is not a number. -/
theorem equal_iff {a b : Literal} :
    a.equal b = true ↔
      (∃ q, a.rational? = some q ∧ b.rational? = some q) ∨ (a = b ∧ a.isNaN = false) := by
  constructor
  · intro h
    unfold equal at h
    split at h
    · next m n hm hn =>
      obtain rfl : m = n := of_decide_eq_true h
      cases m with
      | finite units =>
        exact .inl ⟨units / Binary64.unitsPerOne, rational?_eq_some_iff.2 ⟨units, hm, rfl⟩,
          rational?_eq_some_iff.2 ⟨units, hn, rfl⟩⟩
      | infinite negative =>
        obtain rfl := number?_eq_infinite_iff.1 hm
        exact .inr ⟨(number?_eq_infinite_iff.1 hn).symm, rfl⟩
    · right
      simpa using h
    · cases h
  · rintro (⟨q, ha, hb⟩ | ⟨rfl, hnan⟩)
    · rcases rational?_eq_some_iff.1 ha with ⟨u, hu, rfl⟩
      rcases rational?_eq_some_iff.1 hb with ⟨v, hv, hvu⟩
      have huv : u = v := Int.cast_injective ((div_left_inj' unitsPerOne_ne_zero).1 hvu).symm
      simp [equal, hu, hv, huv]
    · exact equal_self hnan

theorem equal_trans {a b c : Literal} (hab : a.equal b = true) (hbc : b.equal c = true) :
    a.equal c = true := by
  rw [equal_iff] at hab hbc ⊢
  rcases hab with ⟨q, ha, hb⟩ | ⟨rfl, -⟩
  · rcases hbc with ⟨r, hb', hc⟩ | ⟨rfl, -⟩
    · cases hb.symm.trans hb'
      exact .inl ⟨q, ha, hc⟩
    · exact .inl ⟨q, ha, hb⟩
  · exact hbc

end Literal

/-! ## Trees without what is not a number -/

mutual

/-- No literal of the tree is the value that is not a number. -/
def Node.isFreeOfNaN : Node α → Bool
  | ⟨_, _, children⟩ => Value.allFreeOfNaN children

/-- No literal of the value is the value that is not a number. -/
def Value.isFreeOfNaN : Value α → Bool
  | .lit literal => !literal.isNaN
  | .node node => node.isFreeOfNaN
  | .list items => Value.allFreeOfNaN items

/-- No literal of the values is the value that is not a number. -/
def Value.allFreeOfNaN : List (Value α) → Bool
  | [] => true
  | item :: rest => item.isFreeOfNaN && Value.allFreeOfNaN rest

end

/-! ## Children and items -/

/-- Lists are equal item by item. -/
theorem Value.equalAll_iff {as : List (Value α)} {bs : List (Value β)} :
    Value.equalAll as bs = true ↔ List.Forall₂ (fun a b => a.equal b = true) as bs := by
  induction as generalizing bs with
  | nil => cases bs <;> simp [Value.equalAll]
  | cons a as ih => cases bs <;> simp [Value.equalAll, ih]

/-- Nodes are equal if their types are the same and their children are equal one by one. -/
theorem Node.equal_iff {a : Node α} {b : Node β} :
    a.equal b = true ↔
      a.type = b.type ∧ List.Forall₂ (fun x y => x.equal y = true) a.children b.children := by
  rcases a with ⟨_, _, as⟩
  rcases b with ⟨_, _, bs⟩
  rw [Node.equal, Bool.and_eq_true, decide_eq_true_iff, Value.equalAll_iff]

/-! ## Equivalence -/

mutual

/-- A tree equals itself with any marks, unless what is not a number stands in it. -/
theorem Node.equal_self {node : Node α} (h : node.isFreeOfNaN = true) : node.equal node = true := by
  match node with
  | ⟨mark, type, children⟩ =>
    rw [Node.equal, Value.equalAll_self h]
    simp

theorem Value.equal_self {value : Value α} (h : value.isFreeOfNaN = true) :
    value.equal value = true := by
  match value with
  | .lit literal => exact Literal.equal_self (by simpa [Value.isFreeOfNaN] using h)
  | .node node =>
    rw [Value.isFreeOfNaN] at h
    exact Node.equal_self h
  | .list items =>
    rw [Value.isFreeOfNaN] at h
    exact Value.equalAll_self h

theorem Value.equalAll_self {values : List (Value α)} (h : Value.allFreeOfNaN values = true) :
    Value.equalAll values values = true := by
  match values with
  | [] => rfl
  | value :: rest =>
    have hparts := Bool.and_eq_true_iff.1 h
    rw [Value.equalAll, Value.equal_self hparts.1, Value.equalAll_self hparts.2]
    rfl

end

mutual

/-- Equality does not depend on the order of the two trees. -/
theorem Node.equal_comm (a : Node α) (b : Node β) : a.equal b = b.equal a := by
  match a, b with
  | ⟨_, s, as⟩, ⟨_, t, bs⟩ =>
    rw [Node.equal, Node.equal, Value.equalAll_comm as bs]
    simp only [eq_comm]

theorem Value.equal_comm (a : Value α) (b : Value β) : a.equal b = b.equal a := by
  match a, b with
  | .lit a, .lit b => exact Literal.equal_comm a b
  | .node a, .node b => exact Node.equal_comm a b
  | .list as, .list bs => exact Value.equalAll_comm as bs
  | .lit _, .node _ | .lit _, .list _ => rfl
  | .node _, .lit _ | .node _, .list _ => rfl
  | .list _, .lit _ | .list _, .node _ => rfl

theorem Value.equalAll_comm (as : List (Value α)) (bs : List (Value β)) :
    Value.equalAll as bs = Value.equalAll bs as := by
  match as, bs with
  | [], [] => rfl
  | a :: as, b :: bs =>
    rw [Value.equalAll, Value.equalAll, Value.equal_comm a b, Value.equalAll_comm as bs]
  | [], _ :: _ | _ :: _, [] => rfl

end

mutual

/-- Trees that equal the same tree are equal. -/
theorem Node.equal_trans {a : Node α} {b : Node β} {c : Node γ} (hab : a.equal b = true)
    (hbc : b.equal c = true) : a.equal c = true := by
  match a, b, c with
  | ⟨_, s, as⟩, ⟨_, t, bs⟩, ⟨_, u, cs⟩ =>
    rw [Node.equal, Bool.and_eq_true, decide_eq_true_iff] at hab hbc ⊢
    exact ⟨hab.1.trans hbc.1, Value.equalAll_trans hab.2 hbc.2⟩

theorem Value.equal_trans {a : Value α} {b : Value β} {c : Value γ} (hab : a.equal b = true)
    (hbc : b.equal c = true) : a.equal c = true := by
  match a, b, c with
  | .lit a, .lit b, .lit c => exact Literal.equal_trans hab hbc
  | .node a, .node b, .node c => exact Node.equal_trans (a := a) (b := b) hab hbc
  | .list as, .list bs, .list cs =>
    rw [Value.equal] at hab hbc ⊢
    exact Value.equalAll_trans hab hbc

theorem Value.equalAll_trans {as : List (Value α)} {bs : List (Value β)} {cs : List (Value γ)}
    (hab : Value.equalAll as bs = true) (hbc : Value.equalAll bs cs = true) :
    Value.equalAll as cs = true := by
  match as, bs, cs with
  | [], [], [] => rfl
  | a :: as, b :: bs, c :: cs =>
    rw [Value.equalAll, Bool.and_eq_true] at hab hbc ⊢
    exact ⟨Value.equal_trans hab.1 hbc.1, Value.equalAll_trans hab.2 hbc.2⟩

end

/-! ## Marks -/

mutual

/-- Equality does not look at the marks. -/
theorem Node.equal_map (f : α → γ) (g : β → δ) (a : Node α) (b : Node β) :
    (a.map f).equal (b.map g) = a.equal b := by
  match a, b with
  | ⟨_, s, as⟩, ⟨_, t, bs⟩ =>
    rw [Node.map, Node.map, Node.equal, Node.equal, Value.equalAll_mapAll f g as bs]

theorem Value.equal_map (f : α → γ) (g : β → δ) (a : Value α) (b : Value β) :
    (a.map f).equal (b.map g) = a.equal b := by
  match a, b with
  | .lit _, .lit _ => rfl
  | .node a, .node b => exact Node.equal_map f g a b
  | .list as, .list bs => exact Value.equalAll_mapAll f g as bs
  | .lit _, .node _ | .lit _, .list _ => rfl
  | .node _, .lit _ | .node _, .list _ => rfl
  | .list _, .lit _ | .list _, .node _ => rfl

theorem Value.equalAll_mapAll (f : α → γ) (g : β → δ) (as : List (Value α))
    (bs : List (Value β)) :
    Value.equalAll (Value.mapAll f as) (Value.mapAll g bs) = Value.equalAll as bs := by
  match as, bs with
  | [], [] => rfl
  | a :: as, b :: bs =>
    rw [Value.mapAll, Value.mapAll, Value.equalAll, Value.equalAll, Value.equal_map f g a b,
      Value.equalAll_mapAll f g as bs]
  | [], _ :: _ | _ :: _, [] => rfl

end

/-! ## Nodes of equal trees -/

mutual

/-- The nodes below equal nodes are equal one by one. -/
theorem Node.forall₂_descendants {a : Node α} {b : Node β} (h : a.equal b = true) :
    List.Forall₂ (fun m n => m.equal n = true) a.descendants b.descendants := by
  match a, b with
  | ⟨_, s, as⟩, ⟨_, t, bs⟩ =>
    rw [Node.equal, Bool.and_eq_true] at h
    exact Value.forall₂_nodesAmong h.2

theorem Value.forall₂_nodesAmong {as : List (Value α)} {bs : List (Value β)}
    (h : Value.equalAll as bs = true) :
    List.Forall₂ (fun m n => m.equal n = true) (Value.nodesAmong as) (Value.nodesAmong bs) := by
  match as, bs with
  | [], [] => exact .nil
  | .node a :: as, .node b :: bs =>
    rw [Value.equalAll, Bool.and_eq_true] at h
    exact .cons h.1 (List.rel_append (Node.forall₂_descendants (a := a) (b := b) h.1)
      (Value.forall₂_nodesAmong h.2))
  | .lit a :: as, .lit b :: bs =>
    rw [Value.equalAll, Bool.and_eq_true] at h
    rw [Value.nodesAmong, Value.nodesAmong]
    exact Value.forall₂_nodesAmong h.2
  | .list a :: as, .list b :: bs =>
    rw [Value.equalAll, Bool.and_eq_true] at h
    rw [Value.nodesAmong, Value.nodesAmong]
    exact Value.forall₂_nodesAmong h.2

end

end RubyTree
