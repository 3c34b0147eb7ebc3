import RubyTree.Access.LiteralValue
import RubyTree.Proofs.Access.Alike
import RubyTree.Proofs.Tree.Equality

/-!
# Equal nodes answer alike

What an accessor does with a node depends on the type of the node, on how many children
there are, on which of them are nodes and of what types, and on where children are
absent.  Equal nodes agree on all of these, so every accessor is refused on both of them
or gives equal answers, although literals in them may have different forms.

Main results:

- `Value.keepsShape_equal`: equality keeps the shape, so slots and derived properties of equal nodes
  are alike.
- `Node.valuesAlike_toValue`: values of literal nodes.
- `Node.equal_congruence` puts this together with the laws of equality.
-/

namespace RubyTree

variable {α β γ δ : Type} {ρ σ : Type}

/-! ## Equality keeps the shape -/

/-- A literal equals the absent value only if it is absent. -/
theorem Literal.eq_nil_iff_of_equal {a b : Literal} (h : a.equal b = true) :
    a = .nil ↔ b = .nil := by
  constructor
  · rintro rfl
    rcases Literal.equal_iff.1 h with ⟨q, hq, -⟩ | ⟨rfl, -⟩
    · cases hq
    · rfl
  · rintro rfl
    rcases Literal.equal_iff.1 h with ⟨q, -, hq⟩ | ⟨rfl, -⟩
    · cases hq
    · rfl

/-- Equality keeps the shape of values. -/
theorem Value.keepsShape_equal :
    KeepsShape (fun (x : Value α) (y : Value β) => x.equal y = true) where
  shape {x y} h := by
    match x, y with
    | .lit l, .lit m => exact .lit (Literal.eq_nil_iff_of_equal h)
    | .node a, .node b =>
      have hequal := (Node.equal_iff (a := a) (b := b)).1 h
      exact .node hequal.1 hequal.2
    | .list xs, .list ys => exact .list (Value.equalAll_iff.1 h)
  nil := rfl
  list h := Value.equalAll_iff.2 h

/-! ## Values of literal nodes -/

/-- Two readings of values are alike: both find something, which is related, or both come to a
literal node without children. -/
inductive ValuesAlike (related : ρ → σ → Prop) :
    Except (AccessError α) ρ → Except (AccessError β) σ → Prop
  /-- Both find something. -/
  | found {x : ρ} {y : σ} (h : related x y) : ValuesAlike related (.ok x) (.ok y)
  /-- Both find nothing. -/
  | missing : ValuesAlike related (.error .emptyLiteral) (.error .emptyLiteral)

/-- No node stands for what is not a number by its type alone. -/
theorem NodeType.isNaN_of_reading {type : NodeType} {literal : Literal}
    (h : type.reading = .constant literal) : literal.isNaN = false := by
  unfold NodeType.reading at h
  split at h <;> cases h <;> rfl

mutual

/-- The values of equal nodes are equal or missing on both. -/
theorem Node.valuesAlike_toValue {a : Node α} {b : Node β} (h : a.equal b = true) :
    ValuesAlike (fun x y => x.equal y = true) a.toValue b.toValue := by
  match a, b with
  | ⟨m, s, as⟩, ⟨n, t, bs⟩ =>
    obtain ⟨rfl, hchildren⟩ : s = t ∧ Value.equalAll as bs = true := by simpa [Node.equal] using h
    rw [Node.toValue.eq_def, Node.toValue.eq_def]
    cases hreading : s.reading with
    | lastChild =>
      have hlast := rel_getLast? (Value.equalAll_iff.1 hchildren)
      simp only [hreading]
      generalize as.getLast? = x at hlast
      generalize bs.getLast? = y at hlast
      cases hlast with
      | some hvalue => exact .found hvalue
      | none => exact .missing
    | constant literal =>
      simp only [hreading]
      exact .found (Literal.equal_self (NodeType.isNaN_of_reading hreading))
    | allChildren =>
      have hvalues := Value.valuesAlike_toValues hchildren
      simp only [hreading]
      generalize Value.toValues as = x at hvalues
      generalize Value.toValues bs = y at hvalues
      cases hvalues with
      | found hitems => exact .found (Value.equalAll_iff.2 hitems)
      | missing => exact .missing
    | firstChild =>
      simp only [hreading]
      match as, bs with
      | [], [] => exact .found rfl
      | x :: as, y :: bs =>
        rw [Value.equalAll, Bool.and_eq_true] at hchildren
        exact Value.valuesAlike_toValue hchildren.1
    | itself =>
      simp only [hreading]
      exact .found h

theorem Value.valuesAlike_toValue {x : Value α} {y : Value β} (h : x.equal y = true) :
    ValuesAlike (fun x y => x.equal y = true) x.toValue y.toValue := by
  match x, y with
  | .lit _, .lit _ => exact .found h
  | .list _, .list _ => exact .found h
  | .node m, .node n => exact Node.valuesAlike_toValue (a := m) (b := n) h

theorem Value.valuesAlike_toValues {xs : List (Value α)} {ys : List (Value β)}
    (h : Value.equalAll xs ys = true) :
    ValuesAlike (List.Forall₂ fun x y => x.equal y = true) (Value.toValues xs)
      (Value.toValues ys) := by
  match xs, ys with
  | [], [] => exact .found .nil
  | x :: xs, y :: ys =>
    rw [Value.equalAll, Bool.and_eq_true] at h
    have hfirst := Value.valuesAlike_toValue h.1
    have hrest := Value.valuesAlike_toValues h.2
    rw [Value.toValues.eq_def, Value.toValues.eq_def]
    simp only
    generalize x.toValue = o at hfirst
    generalize y.toValue = p at hfirst
    generalize Value.toValues xs = os at hrest
    generalize Value.toValues ys = ps at hrest
    cases hfirst with
    | found hvalue =>
      cases hrest with
      | found hvalues => exact .found (.cons hvalue hvalues)
      | missing => exact .missing
    | missing => exact .missing

end

/-! ## The laws of equality -/

/-- Equality of nodes is an equivalence, apart from what is not a number, and does not look at the
marks.  It compares types, children one by one, literals as the rational numbers that they are or
else as themselves, and lists item by item.  On equal nodes every slot and every derived property is
refused or has equal answers, child nodes and descendants are equal one by one, and the values are
equal or missing. -/
theorem Node.equal_congruence (a : Node α) (b : Node β) (c : Node γ) :
    (a.isFreeOfNaN = true → a.equal a = true) ∧
    a.equal b = b.equal a ∧
    (a.equal b = true → b.equal c = true → a.equal c = true) ∧
    (∀ (f : α → γ) (g : β → δ), (a.map f).equal (b.map g) = a.equal b) ∧
    (a.equal b = true ↔
      a.type = b.type ∧ List.Forall₂ (fun x y => x.equal y = true) a.children b.children) ∧
    (∀ l m : Literal, (Value.lit l : Value α).equal (Value.lit m : Value β) = true ↔
      (∃ q, l.rational? = some q ∧ m.rational? = some q) ∨ (l = m ∧ l.isNaN = false)) ∧
    (∀ (xs : List (Value α)) (ys : List (Value β)), (Value.list xs).equal (Value.list ys) = true ↔
      List.Forall₂ (fun x y => x.equal y = true) xs ys) ∧
    (a.equal b = true →
      (∀ label, AnswersAlike label a b (fun x y => x.equal y = true) (a.slotNamed label)
        (b.slotNamed label)) ∧
      (∀ property : Derived, AnswersAlike property.name a b (fun x y => x.equal y = true)
        (property.read a) (property.read b)) ∧
      List.Forall₂ (fun m n => m.equal n = true) a.childNodes b.childNodes ∧
      List.Forall₂ (fun m n => m.equal n = true) a.descendants b.descendants ∧
      ValuesAlike (fun x y => x.equal y = true) a.toValue b.toValue) := by
  refine ⟨equal_self, equal_comm a b, equal_trans, fun f g => equal_map f g a b, equal_iff,
    fun _ _ => Literal.equal_iff, fun _ _ => Value.equalAll_iff, fun h => ⟨?_, ?_, ?_, ?_, ?_⟩⟩
  · exact Value.keepsShape_equal.answersAlike_slotNamed h
  · exact Value.keepsShape_equal.answersAlike_derived h
  · exact Value.keepsShape_equal.childNodes h
  · exact forall₂_descendants h
  · exact valuesAlike_toValue h

/-- The truth value, the whole number and the binary value are one number, also in the body of a
definition; the nodes have equal bodies and equal values. -/
theorem Node.equal_congruence_one :
    let one : Literal := .float (.finite false ⟨1023 * binadeSize, by decide⟩)
    let node (literal : Literal) : Node Unit :=
      ⟨(), .known .ensure, [.node ⟨(), .known .begin, [.lit literal, .lit (.sym ⟨"a"⟩)]⟩]⟩
    (node one).isFreeOfNaN = true ∧ (node one).equal (node one) = true ∧
      (node (.bool true)).equal (node (.int 1)) = true ∧
      (node (.int 1)).equal (node one) = true ∧
      (node (.bool true)).equal (node one) = true ∧
      AnswersAlike "body" (node (.bool true)) (node one)
        (fun x y : Value Unit => x.equal y = true)
        (.ok (.list [.lit (.bool true), .lit (.sym ⟨"a"⟩)]))
        (.ok (.list [.lit one, .lit (.sym ⟨"a"⟩)])) := by
  intro one node
  have hfree : (node one).isFreeOfNaN = true := rfl
  have htrue : (node (.bool true)).equal (node (.int 1)) = true := by decide +kernel
  have hint : (node (.int 1)).equal (node one) = true := by decide +kernel
  have hself := (equal_congruence (δ := Unit) (node one) (node one) (node one)).1 hfree
  have hlaws := equal_congruence (δ := Unit) (node (.bool true)) (node (.int 1)) (node one)
  have hequal := hlaws.2.2.1 htrue hint
  have halike := equal_congruence (δ := Unit) (node (.bool true)) (node one) (node one)
  exact ⟨hfree, hself, htrue, hint, hequal, (halike.2.2.2.2.2.2.2 hequal).2.1 .body⟩

end RubyTree
