import RubyTree.Proofs.Access.Answers
import RubyTree.Proofs.Tree.Equality

/-!
# The same key

Keys are compared like literals, but truth values are set apart from the numbers that
they equal, at any depth of nested lists.  Inside nodes they are not.

Main results:

- `Value.sameKey_self`, `Value.sameKey_comm` and `Value.sameKey_trans`: being the same
  key is an equivalence.
- `Value.equal_of_sameKey` and `Value.sameKey_eq_equal` compare it with equality, and
  `Value.isFreeOfBools_of_sameKey` says where they differ.
- `findPairIn_congr`: a search does not tell the same keys apart.
-/

namespace RubyTree

variable {α β γ δ : Type}

/-! ## Keys without truth values -/

mutual

/-- No truth value stands in the value outside nodes. -/
def Value.isFreeOfBools : Value α → Bool
  | .lit literal => !literal.isBool
  | .node _ => true
  | .list items => Value.allFreeOfBools items

/-- No truth value stands in the values outside nodes. -/
def Value.allFreeOfBools : List (Value α) → Bool
  | [] => true
  | item :: rest => item.isFreeOfBools && Value.allFreeOfBools rest

end

/-! ## Equivalence -/

namespace Value

theorem sameKeys_iff {as : List (Value α)} {bs : List (Value β)} :
    sameKeys as bs = true ↔ List.Forall₂ (fun a b => a.sameKey b = true) as bs := by
  induction as generalizing bs with
  | nil => cases bs <;> simp [sameKeys]
  | cons a as ih => cases bs <;> simp [sameKeys, ih]

theorem sameKey_lit_iff {a b : Literal} :
    (lit a : Value α).sameKey (lit b : Value β) = true ↔
      a.isBool = b.isBool ∧ a.equal b = true := by
  rw [sameKey, Bool.and_eq_true, beq_iff_eq]

mutual

/-- A value is the same key as itself, unless what is not a number stands in it. -/
theorem sameKey_self {value : Value α} (h : value.isFreeOfNaN = true) :
    value.sameKey value = true := by
  match value with
  | .lit literal =>
    have hself : (lit literal : Value α).equal (lit literal) = true := equal_self h
    exact sameKey_lit_iff.2 ⟨rfl, hself⟩
  | .node n => exact Node.equal_self h
  | .list items => exact sameKeys_self h

theorem sameKeys_self {values : List (Value α)} (h : allFreeOfNaN values = true) :
    sameKeys values values = true := by
  match values with
  | [] => rfl
  | value :: rest =>
    have hparts := Bool.and_eq_true_iff.1 h
    rw [sameKeys, sameKey_self hparts.1, sameKeys_self hparts.2]
    rfl

end

mutual

/-- Being the same key does not depend on the order of the two values. -/
theorem sameKey_comm (a : Value α) (b : Value β) : a.sameKey b = b.sameKey a := by
  match a, b with
  | .lit a, .lit b => rw [sameKey, sameKey, Literal.equal_comm, Bool.beq_comm]
  | .node a, .node b => exact Node.equal_comm a b
  | .list as, .list bs => exact sameKeys_comm as bs
  | .lit _, .node _ | .lit _, .list _ => rfl
  | .node _, .lit _ | .node _, .list _ => rfl
  | .list _, .lit _ | .list _, .node _ => rfl

theorem sameKeys_comm (as : List (Value α)) (bs : List (Value β)) :
    sameKeys as bs = sameKeys bs as := by
  match as, bs with
  | [], [] => rfl
  | a :: as, b :: bs => rw [sameKeys, sameKeys, sameKey_comm a b, sameKeys_comm as bs]
  | [], _ :: _ | _ :: _, [] => rfl

end

mutual

/-- Values that are the same key as one value are the same key. -/
theorem sameKey_trans {a : Value α} {b : Value β} {c : Value γ} (hab : a.sameKey b = true)
    (hbc : b.sameKey c = true) : a.sameKey c = true := by
  match a, b, c with
  | .lit a, .lit b, .lit c =>
    rw [sameKey_lit_iff] at hab hbc ⊢
    exact ⟨hab.1.trans hbc.1, Literal.equal_trans hab.2 hbc.2⟩
  | .node a, .node b, .node c =>
    rw [sameKey] at hab hbc ⊢
    exact Node.equal_trans hab hbc
  | .list as, .list bs, .list cs =>
    rw [sameKey] at hab hbc ⊢
    exact sameKeys_trans hab hbc

theorem sameKeys_trans {as : List (Value α)} {bs : List (Value β)} {cs : List (Value γ)}
    (hab : sameKeys as bs = true) (hbc : sameKeys bs cs = true) : sameKeys as cs = true := by
  match as, bs, cs with
  | [], [], [] => rfl
  | a :: as, b :: bs, c :: cs =>
    rw [sameKeys, Bool.and_eq_true] at hab hbc ⊢
    exact ⟨sameKey_trans hab.1 hbc.1, sameKeys_trans hab.2 hbc.2⟩

end

/-! ## Keys and equality -/

mutual

/-- The same keys are equal. -/
theorem equal_of_sameKey {a : Value α} {b : Value β} (h : a.sameKey b = true) :
    a.equal b = true := by
  match a, b with
  | .lit a, .lit b => exact (sameKey_lit_iff.1 h).2
  | .node a, .node b => exact h
  | .list as, .list bs => exact equalAll_of_sameKeys h

theorem equalAll_of_sameKeys {as : List (Value α)} {bs : List (Value β)}
    (h : sameKeys as bs = true) : equalAll as bs = true := by
  match as, bs with
  | [], [] => rfl
  | a :: as, b :: bs =>
    rw [sameKeys, Bool.and_eq_true] at h
    rw [equalAll, equal_of_sameKey h.1, equalAll_of_sameKeys h.2]
    rfl

end

mutual

/-- A key with truth values outside nodes is never the same as one without them. -/
theorem isFreeOfBools_of_sameKey {a : Value α} {b : Value β} (h : a.sameKey b = true) :
    a.isFreeOfBools = b.isFreeOfBools := by
  match a, b with
  | .lit a, .lit b => rw [isFreeOfBools, isFreeOfBools, (sameKey_lit_iff.1 h).1]
  | .node a, .node b => rfl
  | .list as, .list bs => exact allFreeOfBools_of_sameKeys h

theorem allFreeOfBools_of_sameKeys {as : List (Value α)} {bs : List (Value β)}
    (h : sameKeys as bs = true) : allFreeOfBools as = allFreeOfBools bs := by
  match as, bs with
  | [], [] => rfl
  | a :: as, b :: bs =>
    rw [sameKeys, Bool.and_eq_true] at h
    rw [allFreeOfBools, allFreeOfBools, isFreeOfBools_of_sameKey h.1,
      allFreeOfBools_of_sameKeys h.2]

end

mutual

/-- Without truth values outside nodes, keys are the same exactly if they are equal. -/
theorem sameKey_eq_equal {a : Value α} {b : Value β} (ha : a.isFreeOfBools = true)
    (hb : b.isFreeOfBools = true) : a.sameKey b = a.equal b := by
  match a, b with
  | .lit a, .lit b =>
    rw [isFreeOfBools, Bool.not_eq_true'] at ha hb
    rw [sameKey, equal, ha, hb]
    rfl
  | .node a, .node b => rfl
  | .list as, .list bs => exact sameKeys_eq_equalAll ha hb
  | .lit _, .node _ | .lit _, .list _ => rfl
  | .node _, .lit _ | .node _, .list _ => rfl
  | .list _, .lit _ | .list _, .node _ => rfl

theorem sameKeys_eq_equalAll {as : List (Value α)} {bs : List (Value β)}
    (ha : allFreeOfBools as = true) (hb : allFreeOfBools bs = true) :
    sameKeys as bs = equalAll as bs := by
  match as, bs with
  | [], [] => rfl
  | a :: as, b :: bs =>
    rw [allFreeOfBools, Bool.and_eq_true] at ha hb
    rw [sameKeys, equalAll, sameKey_eq_equal ha.1 hb.1, sameKeys_eq_equalAll ha.2 hb.2]
  | [], _ :: _ | _ :: _, [] => rfl

end

/-! ## Searches -/

/-- Nothing is the same key as only one of two values that are the same key. -/
theorem sameKey_congr {key other : Value α} (h : key.sameKey other = true) (found : Value β) :
    found.sameKey key = found.sameKey other := by
  rw [Bool.eq_iff_iff]
  exact ⟨fun hkey => sameKey_trans hkey h,
    fun hother => sameKey_trans hother (sameKey_comm key other ▸ h)⟩

end Value

/-- A search finds the same pair for the same key. -/
theorem findPairIn_congr {key other : Value α} (h : key.sameKey other = true)
    (pairs : List (Node α)) : findPairIn key pairs = findPairIn other pairs := by
  induction pairs with
  | nil => rfl
  | cons pair rest ih => simp only [findPairIn, Value.sameKey_congr h, ih]

/-- Being the same key is an equivalence, apart from what is not a number.  It sets truth values
apart from numbers, through lists and not inside nodes; the same keys are equal, and where no truth
value stands outside nodes, equal keys are the same.  Lookups answer alike for the same keys. -/
theorem Value.sameKey_equivalence (a : Value α) (b : Value β) (c : Value γ) :
    (a.isFreeOfNaN = true → a.sameKey a = true) ∧
    a.sameKey b = b.sameKey a ∧
    (a.sameKey b = true → b.sameKey c = true → a.sameKey c = true) ∧
    (a.sameKey b = true → a.equal b = true) ∧
    (a.sameKey b = true → a.isFreeOfBools = b.isFreeOfBools) ∧
    (a.isFreeOfBools = true → b.isFreeOfBools = true → a.sameKey b = a.equal b) ∧
    (∀ l m : Literal, (Value.lit l : Value α).sameKey (Value.lit m : Value β) = true ↔
      l.isBool = m.isBool ∧ l.equal m = true) ∧
    (∀ (xs : List (Value α)) (ys : List (Value β)), (Value.list xs).sameKey (Value.list ys) = true ↔
      List.Forall₂ (fun x y => x.sameKey y = true) xs ys) ∧
    (∀ (node : Node δ) (key other : Value δ), Node.isHash node.type = true →
      key.sameKey other = true →
      node.hasKey key = node.hasKey other ∧ node.hashPair key = node.hashPair other ∧
        node.hashValue key = node.hashValue other) := by
  refine ⟨sameKey_self, sameKey_comm a b, sameKey_trans, equal_of_sameKey, isFreeOfBools_of_sameKey,
    sameKey_eq_equal, fun _ _ => sameKey_lit_iff, fun _ _ => sameKeys_iff,
    fun node key other hhash h => ?_⟩
  have hsearch : ∀ accessor, node.search accessor key = node.search accessor other := by
    intro accessor
    rw [Node.search_of_hash hhash, Node.search_of_hash hhash, findPairIn_congr h]
  simp only [Node.hasKey, Node.hashPair, Node.hashValue, hsearch, and_self]

/-- One in nested lists is one key as a whole number and as a binary value, and a hash answers both
alike.  The truth value equals it, but is another key, in a list as well. -/
theorem Value.sameKey_equivalence_one :
    let one : Literal := .float (.finite false ⟨1023 * binadeSize, by decide⟩)
    let key (literal : Literal) : Value Unit := .list [.list [.lit literal], .lit (.str "a")]
    let hash : Node Unit := ⟨(), .known .hash, [.node ⟨(), .known .pair,
      [.node ⟨(), .known .array, [.node ⟨(), .known .array, [.lit (.int 1)]⟩, .lit (.str "a")]⟩,
        .lit (.int 7)]⟩]⟩
    (key one).isFreeOfNaN = true ∧ (key one).sameKey (key one) = true ∧
      (key (.int 1)).sameKey (key one) = true ∧ (key one).sameKey (key (.int 1)) = true ∧
      (key (.int 1)).sameKey (key (.int 1)) = true ∧ (key one).equal (key (.int 1)) = true ∧
      (key (.int 1)).isFreeOfBools = true ∧ (key (.int 1)).equal (key one) = true ∧
      (key (.bool true)).equal (key one) = true ∧ (key (.bool true)).sameKey (key one) = false ∧
      hash.hashValue (key one) = .ok (.lit (.int 7)) := by
  intro one key hash
  have hnan : (key one).isFreeOfNaN = true := rfl
  have hint : (key (.int 1)).sameKey (key one) = true := by decide +kernel
  have hbool : (key (.bool true)).equal (key one) = true := by decide +kernel
  have hfree : (key (.int 1)).isFreeOfBools = true := rfl
  have hfreeOne : (key one).isFreeOfBools = true := rfl
  have hself := (sameKey_equivalence (δ := Unit) (key one) (key one) (key one)).1 hnan
  have hlaws := sameKey_equivalence (δ := Unit) (key one) (key (.int 1)) (key one)
  have hback : (key one).sameKey (key (.int 1)) = true := hlaws.2.1.trans hint
  have hints := sameKey_equivalence (δ := Unit) (key (.int 1)) (key one) (key (.int 1))
  have hequal := (hints.2.2.2.2.2.1 hfree rfl).symm.trans hint
  have htrue := sameKey_equivalence (δ := Unit) (key (.bool true)) (key one) (key one)
  have hother : (key (.bool true)).sameKey (key one) = false := by
    rw [Bool.eq_false_iff]
    intro hsame
    cases htrue.2.2.2.2.1 hsame
  have hvalue : hash.hashValue (key (.int 1)) = .ok (.lit (.int 7)) := rfl
  have hlookup := hlaws.2.2.2.2.2.2.2.2 hash (key (.int 1)) (key one) rfl hint
  exact ⟨hnan, hself, hint, hback, hints.2.2.1 hint hback, hlaws.2.2.2.1 hback, hfree, hequal,
    hbool, hother, hlookup.2.2.symm.trans hvalue⟩

end RubyTree
