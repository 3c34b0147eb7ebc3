import Mathlib.Order.Bounds.Basic
import RubyTree.Proofs.Access.Attributes
import RubyTree.Proofs.Access.Lookups
import RubyTree.Proofs.Tree.Descendants

/-!
# What names are resolved to

A key text means one pair of a hash: the first one with the symbol for its key, wherever it
stands, and only without one the first one with the string.  Everything that a hash answers to a
name is said of this pair, or of its absence.  On a list of parameters two names search the
children, and no other name means anything on any node.

Main results:

- `findPairIn_eq_find?`: where all keys have values, the search for a symbol or a string is the
  one for the first pair with that very literal.
- `Node.lookupKey_answerKey`: the answer about a key and the question whether there is one come to
  the same pair, `Node.pairNamed?`.
- `ChildSearch.run_answers`: a search of the children counts, or finds the least position.
- `Node.resolve_and_canResolve` puts this together for all nodes and names.
-/

namespace RubyTree

variable {α : Type}

/-! ## Keys that are symbols or strings -/

/-- What is neither a number nor a truth value is the same key as itself only. -/
theorem Value.sameKey_lit_eq_true_iff {found : Value α} {literal : Literal}
    (hnumber : literal.number? = none) (hnan : literal.isNaN = false) :
    found.sameKey (.lit literal : Value α) = true ↔ found = .lit literal := by
  cases found with
  | lit other =>
    rw [sameKey, Bool.and_eq_true, beq_iff_eq, Value.lit.injEq]
    constructor
    · rintro ⟨-, hequal⟩
      unfold Literal.equal at hequal
      rw [hnumber] at hequal
      cases hother : other.number? with
      | some number => simp [hother] at hequal
      | none =>
        rw [hother] at hequal
        exact of_decide_eq_true (Bool.and_eq_true_iff.1 hequal).1
    · rintro rfl
      exact ⟨rfl, Literal.equal_self hnan⟩
  | node n => simp [sameKey]
  | list items => simp [sameKey]

/-- The key of the pair stands for the very literal. -/
def Node.isKeyedBy (literal : Literal) (pair : Node α) : Bool :=
  match pair.pairKey.toValue with
  | .ok (.lit found) => found = literal
  | _ => false

theorem Node.isKeyedBy_iff {literal : Literal} {pair : Node α} :
    pair.isKeyedBy literal = true ↔ pair.pairKey.toValue = .ok (.lit literal) := by
  unfold isKeyedBy
  split
  · next found hfound => simp [hfound]
  · next hother => simpa using hother literal

/-- Where all keys have values, the search for a symbol or a string ends at the first pair that
has it for its key. -/
theorem findPairIn_eq_find? {pairs : List (Node α)} {literal : Literal}
    (hvalues : ∀ pair ∈ pairs, ∃ value, pair.pairKey.toValue = .ok value)
    (hnumber : literal.number? = none) (hnan : literal.isNaN = false) :
    findPairIn (.lit literal) pairs = .ok (pairs.find? (·.isKeyedBy literal)) := by
  induction pairs with
  | nil => rfl
  | cons pair rest ih =>
    rcases List.forall_mem_cons.1 hvalues with ⟨⟨value, hvalue⟩, hrest⟩
    have hsame : value.sameKey (.lit literal) = true ↔ value = .lit literal :=
      Value.sameKey_lit_eq_true_iff hnumber hnan
    by_cases hkey : value = .lit literal
    · have hkeyed : pair.isKeyedBy literal = true := Node.isKeyedBy_iff.2 (hkey ▸ hvalue)
      rw [findPairIn_cons_of_standsFor ⟨value, hvalue, hsame.2 hkey⟩,
        List.find?_cons_of_pos hkeyed]
    · have hkeyed : ¬ pair.isKeyedBy literal = true := by
        rw [Node.isKeyedBy_iff, hvalue, Except.ok.injEq]
        exact hkey
      rw [findPairIn_cons_of_sameKey_eq_false hvalue (by simpa using mt hsame.1 hkey),
        List.find?_cons_of_neg hkeyed, ih hrest]

/-! ## Answers about keys -/

/-- What is answered about a pair, or where there is none. -/
def KeyAspect.answer : KeyAspect → Option TreeNode → TreeValue
  | .pair, found => .ofNode? found
  | .value, none => .nil
  | .value, some found => found.pairValue
  | .source, none => .lit (.str "")
  | .source, some found =>
    match found.pairValue with
    | .node child =>
      match child.span? with
      | some span => .lit (.str span.text)
      | none => .nil
    | _ => .nil

namespace Node

/-- The pair of a hash that a key text means: the first one whose key is the symbol, or else the
first one whose key is the string. -/
def pairNamed? (node : Node α) (text : String) : Option (Node α) :=
  ((pairsAmong node.children).find? (·.isKeyedBy (.sym ⟨text⟩))).or
    ((pairsAmong node.children).find? (·.isKeyedBy (.str text)))

/-- Every node that is the key of a pair among the children stands for a value. -/
def KeysHaveValues (node : Node α) : Prop :=
  ∀ pair keyNode : Node α, .node pair ∈ node.children → pair.hasKind .pair = true →
    pair.slot .key = .ok (.node keyNode) → ∃ value, keyNode.toValue = .ok value

theorem KeysHaveValues.pairKey {node : Node α} (h : node.KeysHaveValues) :
    ∀ pair ∈ pairsAmong node.children, ∃ value, pair.pairKey.toValue = .ok value := by
  intro pair hpair
  rcases List.mem_filter.1 hpair with ⟨hmem, hkind⟩
  cases hkey : pair.pairKey with
  | lit literal => exact ⟨.lit literal, rfl⟩
  | list items => exact ⟨.list items, rfl⟩
  | node keyNode =>
    exact h pair keyNode (mem_childNodes.1 hmem) hkind (hkey ▸ slot_key_of_hasKind hkind)

section Hash

variable {node : TreeNode}

/-- The answer about a key that a search finds. -/
theorem presentKey_of_findPairIn (hhash : isHash node.type = true) {key : TreeValue}
    {pair : TreeNode} (hfound : findPairIn key (pairsAmong node.children) = .ok (some pair))
    (aspect : KeyAspect) : node.presentKey key aspect = .ok (aspect.answer (some pair)) := by
  rcases lookups_of_findPairIn hhash hfound with ⟨hpair, -, hvalue⟩
  cases aspect with
  | pair =>
    rw [presentKey, hpair]
    rfl
  | value =>
    rw [presentKey, hvalue]
    rfl
  | source =>
    rw [presentKey, hvalue, Option.elim_some, Except.map, KeyAspect.answer]
    cases pair.pairValue with
    | lit literal => rfl
    | list items => rfl
    | node value =>
      cases hspan : value.span? with
      | none => simp [sourceValue, source?, hspan, Value.nil]
      | some span => simp [sourceValue, source?, hspan]

/-- A hash finds a form of a key text exactly if the text means a pair, and what it answers about
the key is said of that pair. -/
theorem lookupKey_answerKey (hhash : isHash node.type = true) (hvalues : node.KeysHaveValues)
    (question : HashQuestion) :
    (node.lookupKey question.key).map Option.isSome =
        .ok (node.pairNamed? question.key).isSome ∧
      node.answerKey question = .ok (question.aspect.answer (node.pairNamed? question.key)) := by
  have hsymbol : findPairIn (.lit (.sym ⟨question.key⟩)) (pairsAmong node.children) =
      .ok ((pairsAmong node.children).find? (·.isKeyedBy (.sym ⟨question.key⟩))) :=
    findPairIn_eq_find? hvalues.pairKey rfl rfl
  have hstring : findPairIn (.lit (.str question.key)) (pairsAmong node.children) =
      .ok ((pairsAmong node.children).find? (·.isKeyedBy (.str question.key))) :=
    findPairIn_eq_find? hvalues.pairKey rfl rfl
  have hhasSymbol := (lookups_of_findPairIn hhash hsymbol).2.1
  have hhasString := (lookups_of_findPairIn hhash hstring).2.1
  rw [pairNamed?]
  cases hfirst : (pairsAmong node.children).find? (·.isKeyedBy (.sym ⟨question.key⟩)) with
  | some pair =>
    rw [hfirst] at hsymbol hhasSymbol
    have hlookup : node.lookupKey question.key = .ok (some (.lit (.sym ⟨question.key⟩))) := by
      simp only [lookupKey, hhasSymbol, Option.isSome_some]
    refine ⟨by rw [hlookup]; rfl, ?_⟩
    simp only [answerKey, hlookup]
    exact presentKey_of_findPairIn hhash hsymbol question.aspect
  | none =>
    rw [hfirst] at hhasSymbol
    cases hsecond : (pairsAmong node.children).find? (·.isKeyedBy (.str question.key)) with
    | some pair =>
      rw [hsecond] at hstring hhasString
      have hlookup : node.lookupKey question.key = .ok (some (.lit (.str question.key))) := by
        simp only [lookupKey, hhasSymbol, hhasString, Option.isSome_some, Option.isSome_none]
      refine ⟨by rw [hlookup]; rfl, ?_⟩
      simp only [answerKey, hlookup]
      exact presentKey_of_findPairIn hhash hstring question.aspect
    | none =>
      rw [hsecond] at hhasString
      have hlookup : node.lookupKey question.key = .ok none := by
        simp only [lookupKey, hhasSymbol, hhasString, Option.isSome_none]
      refine ⟨by rw [hlookup]; rfl, ?_⟩
      simp only [answerKey, hlookup]
      cases question.aspect <;> rfl

end Hash

end Node

/-! ## Searches of the children -/

namespace ChildSearch

/-- The place that a limit names among `size` places: counted from the end if it is negative. -/
def limit (size : Nat) (bound : Int) : Int :=
  if bound < 0 then bound + size else bound

/-- The positions of the children that equal a value, from one limit on and before another. -/
def positions (children : List TreeValue) (value : TreeValue) (start stop : Int) : Set Nat :=
  {i | limit children.length start ≤ i ∧ i < limit children.length stop ∧
    ∃ child, children[i]? = some child ∧ child.equal value = true}

/-- What a search of the children answers: the number of those that equal a value, or the least
position of one between the limits.  There is no answer without such a position, and none to
arguments that do not fit. -/
inductive Answers (children : List TreeValue) :
    ChildSearch → List TreeValue → Except (AccessError Mark) TreeValue → Prop
  /-- The number of equal children. -/
  | counted (value : TreeValue) :
      Answers children .count [value]
        (.ok (.lit (.int (children.filter (·.equal value)).length)))
  /-- The least position. -/
  | found {value : TreeValue} {limits : List TreeValue} {start stop : Int} {i : Nat}
      (hlimits : limits? children.length limits = some (start, stop))
      (hleast : IsLeast (positions children value start stop) i) :
      Answers children .index (value :: limits) (.ok (.lit (.int i)))
  /-- No equal child between the limits. -/
  | absent {value : TreeValue} {limits : List TreeValue} {start stop : Int}
      (hlimits : limits? children.length limits = some (start, stop))
      (hnone : positions children value start stop = ∅) :
      Answers children .index (value :: limits) (.error .childNotFound)
  /-- Not one value to count. -/
  | uncounted {arguments : List TreeValue} (harguments : arguments.length ≠ 1) :
      Answers children .count arguments (.error (.unfitArguments "count"))
  /-- No value to look for, or limits that are none. -/
  | unlimited {arguments : List TreeValue}
      (harguments : ∀ value limits, arguments = value :: limits →
        limits? children.length limits = none) :
      Answers children .index arguments (.error (.unfitArguments "index"))

section Positions

variable {children : List TreeValue} {value : TreeValue} {start stop : Int} {i j m n : Nat}

theorem getElem?_window {child : TreeValue} :
    ((children.take m).drop n)[j]? = some child ↔ n + j < m ∧ children[n + j]? = some child := by
  rw [List.getElem?_drop, List.getElem?_take]
  split
  · next hlt => simp [hlt]
  · next hge => simp [hge]

/-- The positions of equal children are those in the part of the list that is searched. -/
theorem mem_positions_iff :
    i ∈ positions children value start stop ↔
      ∃ j child, i = (limit children.length start).toNat + j ∧
        ((children.take (limit children.length stop).toNat).drop
          (limit children.length start).toNat)[j]? = some child ∧ child.equal value = true := by
  constructor
  · rintro ⟨hstart, hstop, child, hchild, hequal⟩
    have hsum : (limit children.length start).toNat + (i - (limit children.length start).toNat) =
        i := by omega
    refine ⟨i - (limit children.length start).toNat, child, hsum.symm, ?_, hequal⟩
    rw [getElem?_window, hsum]
    exact ⟨by omega, hchild⟩
  · rintro ⟨j, child, rfl, hwindow, hequal⟩
    rcases getElem?_window.1 hwindow with ⟨hlt, hchild⟩
    exact ⟨by omega, by omega, child, hchild, hequal⟩

/-- A position that is found is the least one. -/
theorem isLeast_of_indexOf? (h : indexOf? children value start stop = some i) :
    IsLeast (positions children value start stop) i := by
  rcases Option.map_eq_some_iff.1 h with ⟨j, hfind, rfl⟩
  rcases List.findIdx?_eq_some_iff_getElem.1 hfind with ⟨hj, hequal, hbefore⟩
  refine ⟨mem_positions_iff.2 ⟨j, _, rfl, List.getElem?_eq_getElem hj, hequal⟩, ?_⟩
  intro k hk
  rcases mem_positions_iff.1 hk with ⟨l, child, rfl, hwindow, hchild⟩
  rcases List.getElem?_eq_some_iff.1 hwindow with ⟨hl, rfl⟩
  have hle : j ≤ l := by
    by_contra hlt
    exact hbefore l (Nat.lt_of_not_le hlt) hchild
  exact Nat.add_le_add_left hle _

/-- Where no position is found there is none. -/
theorem positions_eq_empty_of_indexOf? (h : indexOf? children value start stop = none) :
    positions children value start stop = ∅ := by
  rw [Set.eq_empty_iff_forall_notMem]
  intro k hk
  rcases mem_positions_iff.1 hk with ⟨j, child, rfl, hwindow, hchild⟩
  have hother := List.findIdx?_eq_none_iff.1 (Option.map_eq_none_iff.1 h) child
    (List.mem_of_getElem? hwindow)
  simp [hchild] at hother

end Positions

/-- A search of the children gives the answer that it should, whatever its arguments. -/
theorem run_answers (search : ChildSearch) (children arguments : List TreeValue) :
    Answers children search arguments (search.run children arguments) := by
  cases search with
  | count =>
    match arguments with
    | [value] =>
      rw [run, countOf, List.countP_eq_length_filter]
      exact .counted value
    | [] => exact .uncounted (by simp)
    | _ :: _ :: _ => exact .uncounted (by simp)
  | index =>
    match arguments with
    | [] => exact .unlimited (by simp)
    | value :: rest =>
      rw [run]
      cases hlimits : limits? children.length rest with
      | none =>
        refine .unlimited ?_
        rintro _ _ ⟨⟩
        exact hlimits
      | some limits =>
        rcases limits with ⟨start, stop⟩
        cases hindex : indexOf? children value start stop with
        | some position =>
          simp only [hindex]
          exact .found hlimits (isLeast_of_indexOf? hindex)
        | none =>
          simp only [hindex]
          exact .absent hlimits (positions_eq_empty_of_indexOf? hindex)

end ChildSearch

/-! ## All names -/

theorem ChildSearch.ofName?_eq_some_iff {name : String} {search : ChildSearch} :
    ofName? name = some search ↔ name = search.name := by
  constructor
  · intro h
    have hname : search.name = name := by simpa using List.find?_some h
    exact hname.symm
  · rintro rfl
    cases search <;> rfl

/-- A name asks the questions that it spells. -/
theorem HashQuestion.ofName?_eq_some_iff {name : String} {question : HashQuestion} :
    ofName? name = some question ↔ question.key ≠ "" ∧ name = question.name := by
  constructor
  · intro h
    rcases List.exists_of_findSome?_eq_some h with ⟨aspect, -, hsplit⟩
    unfold splitBefore? at hsplit
    split at hsplit
    · next hends =>
      cases hsplit
      rcases List.isSuffixOf_iff_suffix.1 hends.1 with ⟨key, hkey⟩
      have hname : name = String.ofList key ++ String.ofList aspect.ending := by
        rw [← String.ofList_append, hkey, String.ofList_toList]
      have hlength : name.toList.length - aspect.ending.length = key.length := by
        rw [← hkey, List.length_append, Nat.add_sub_cancel]
      have htake : name.toList.take (name.toList.length - aspect.ending.length) = key := by
        rw [hlength, ← hkey, List.take_left]
      rw [htake]
      refine ⟨fun hempty => ?_, hname⟩
      have hnil : key = [] := by simpa using hempty
      rw [← hkey, hnil] at hends
      simp at hends
    · cases hsplit
  · rintro ⟨hkey, rfl⟩
    exact ofName?_name hkey

namespace Node

/-- Everything that can be asked of a node by a name.  On a hash, a name that is a key text and an
ending has no other split, and it is answered by the pair that the text means, or by the answer
for a missing key; it can be resolved exactly if there is such a pair.  On a list of parameters the
names of the two searches of the children can always be resolved, and run the search.  All other
names, on these and on all other nodes, are unknown and cannot be resolved. -/
theorem resolve_and_canResolve (node : TreeNode) (name : String) (arguments : List TreeValue) :
    (∀ question : HashQuestion, node.hasKind .hash = true → question.key ≠ "" →
      name = question.name →
        (∀ other : HashQuestion, other.key ≠ "" → name = other.name → other = question) ∧
        (node.KeysHaveValues →
          node.resolve name arguments =
            .ok (question.aspect.answer (node.pairNamed? question.key)) ∧
          node.canResolve name = .ok (node.pairNamed? question.key).isSome)) ∧
    (∀ search : ChildSearch, node.hasKind .args = true → name = search.name →
      search.Answers node.children arguments (node.resolve name arguments) ∧
        node.canResolve name = .ok true) ∧
    ((node.hasKind .hash = true → ∀ question : HashQuestion, question.key ≠ "" →
        name ≠ question.name) →
      (node.hasKind .args = true → ∀ search : ChildSearch, name ≠ search.name) →
      node.resolve name arguments = .error (.unknownName name node.type) ∧
        node.canResolve name = .ok false) := by
  refine ⟨fun question hhash hkey hname => ?_, fun search hargs hname => ?_,
    fun hquestion hsearch => ?_⟩
  · have hof := HashQuestion.ofName?_eq_some_iff.2 ⟨hkey, hname⟩
    refine ⟨fun other hother hspelled => ?_, fun hvalues => ?_⟩
    · have hofOther := HashQuestion.ofName?_eq_some_iff.2 ⟨hother, hspelled⟩
      exact Option.some.inj (hofOther.symm.trans hof)
    · have htype : node.type = .known .hash := by simpa [hasKind] using hhash
      have hanswers := lookupKey_answerKey (by rw [htype]; rfl) hvalues question
      have hasked : node.hashQuestion? name = some question := by
        rw [hashQuestion?, if_pos hhash, hof]
      simp only [resolve, canResolve, childSearch?_of_hash hhash, hasked]
      exact hanswers.symm
  · have hasked : node.childSearch? name = some search := by
      rw [childSearch?, if_pos hargs, ChildSearch.ofName?_eq_some_iff.2 hname]
    simp only [resolve, canResolve, hasked]
    exact ⟨search.run_answers node.children arguments, trivial⟩
  · have hnoSearch : node.childSearch? name = none := by
      rw [childSearch?]
      split
      · next hargs =>
        rw [Option.eq_none_iff_forall_ne_some]
        intro search hsome
        exact hsearch hargs search (ChildSearch.ofName?_eq_some_iff.1 hsome)
      · rfl
    have hnoQuestion : node.hashQuestion? name = none := by
      rw [hashQuestion?]
      split
      · next hhash =>
        rw [Option.eq_none_iff_forall_ne_some]
        intro question hsome
        rcases HashQuestion.ofName?_eq_some_iff.1 hsome with ⟨hkey, hname⟩
        exact hquestion hhash question hkey hname
      · rfl
    simp only [resolve, canResolve, hnoSearch, hnoQuestion, and_self]

/-- The symbol is found behind the string of the same text, and its value has no source text.  A
second key with two endings in its name is missing.  A list of parameters finds the first equal
child from the second one on, and no other node knows the names. -/
theorem resolve_and_canResolve_symbol_first :
    let string : TreeNode := ⟨⟨0, none⟩, .known .pair,
      [.node ⟨⟨1, none⟩, .known .str, [.lit (.str "a")]⟩, .lit (.int 1)]⟩
    let symbol : TreeNode := ⟨⟨2, none⟩, .known .pair,
      [.node ⟨⟨3, none⟩, .known .sym, [.lit (.sym ⟨"a"⟩)]⟩, .lit (.int 2)]⟩
    let hash : TreeNode := ⟨⟨4, none⟩, .known .hash, [.node string, .node symbol]⟩
    let pattern : TreeNode := ⟨⟨5, none⟩, .known .hashPattern, hash.children⟩
    let args : TreeNode := ⟨⟨6, none⟩, .known .args, [.lit (.int 1), .lit .nil, .lit (.bool true)]⟩
    hash.KeysHaveValues ∧
      (hash.resolve "a_pair" [] = .ok (.node symbol) ∧ hash.canResolve "a_pair" = .ok true) ∧
      hash.resolve "a_source" [] = .ok .nil ∧
      (hash.resolve "a_value_source" [] = .ok (.lit (.str "")) ∧
        hash.canResolve "a_value_source" = .ok false) ∧
      (args.resolve "index" [.lit (.int 1), .lit (.int (-2))] = .ok (.lit (.int 2)) ∧
        args.canResolve "index" = .ok true) ∧
      (pattern.resolve "a_pair" [] = .error (.unknownName "a_pair" (.known .hashPattern)) ∧
        pattern.canResolve "a_pair" = .ok false) := by
  intro string symbol hash pattern args
  have hvalues : hash.KeysHaveValues := by
    intro pair keyNode hpair hkind hslot
    simp only [hash, List.mem_cons, List.not_mem_nil, or_false, Value.node.injEq] at hpair
    rcases hpair with rfl | rfl
    · cases hslot
      exact ⟨_, rfl⟩
    · cases hslot
      exact ⟨_, rfl⟩
  have hhash : hash.hasKind .hash = true := rfl
  have hpair := ((resolve_and_canResolve hash "a_pair" []).1 ⟨.pair, "a"⟩ hhash (by decide)
    rfl).2 hvalues
  have hsource := ((resolve_and_canResolve hash "a_source" []).1 ⟨.source, "a"⟩ hhash (by decide)
    rfl).2 hvalues
  have hmissing := ((resolve_and_canResolve hash "a_value_source" []).1 ⟨.source, "a_value"⟩ hhash
    (by decide) rfl).2 hvalues
  have hindex := (resolve_and_canResolve args "index" [.lit (.int 1), .lit (.int (-2))]).2.1 .index
    rfl rfl
  have hunknown := (resolve_and_canResolve pattern "a_pair" []).2.2 (fun h => by cases h)
    (fun h => by cases h)
  have hleast : IsLeast (ChildSearch.positions args.children (.lit (.int 1)) (-2) 3) 2 := by
    refine ⟨⟨by decide, by decide, _, rfl, by decide +kernel⟩, ?_⟩
    rintro i ⟨hstart, hstop, child, hchild, hequal⟩
    by_contra hlt
    obtain rfl : i = 1 := by
      change (-2 : Int) + 3 ≤ i at hstart
      omega
    cases hchild
    cases hequal
  have hfound : args.resolve "index" [.lit (.int 1), .lit (.int (-2))] = .ok (.lit (.int 2)) := by
    generalize args.resolve "index" _ = outcome at hindex
    cases hindex.1 with
    | found hlimits hposition =>
      cases hlimits
      rw [hposition.unique hleast]
      rfl
    | absent hlimits hnone =>
      cases hlimits
      exact ((hnone ▸ hleast.1 : 2 ∈ (∅ : Set Nat))).elim
    | unlimited hlimits => cases hlimits _ _ rfl
  exact ⟨hvalues, hpair, hsource.1, hmissing, ⟨hfound, hindex.2⟩, hunknown⟩

end Node

end RubyTree
