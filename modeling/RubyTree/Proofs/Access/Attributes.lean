import RubyTree.Access.Attribute
import RubyTree.Proofs.Access.Answers

/-!
# Attributes of hashes

A name asked as an attribute means what is installed under it on every node before it
means anything about the keys of a hash.  So the two ways to ask for a key, as an
attribute and by resolving the name, agree exactly on the names that are not installed.
Six of the installed names have the form of a question about a key.

Main results:

- `HashQuestion.name` spells a question, and `HashQuestion.ofName?_name` reads it back.
- `shadowedQuestions` lists the questions whose names are installed
  (`isInstalled_name_iff`).
- `readAttribute_hash_iff`: an attribute of a hash is the answer about the key exactly
  where the question is not among them.
-/

namespace RubyTree

/-! ## Names of questions -/

namespace HashQuestion

/-- The name that asks a question: the text of the key and the ending of the aspect. -/
def name (question : HashQuestion) : String :=
  question.key ++ String.ofList question.aspect.ending

/-- No ending is the end of another one. -/
theorem ending_of_isSuffix {text : List Char} {a b : KeyAspect} (ha : a.ending <:+ text)
    (hb : b.ending <:+ text) : a = b := by
  rcases List.suffix_or_suffix_of_suffix ha hb with h | h
  · revert h
    cases a <;> cases b <;> decide
  · revert h
    cases a <;> cases b <;> decide

/-- A name is split before the ending that it has, and before no other one. -/
theorem splitBefore?_name {question : HashQuestion} (h : question.key ≠ "") (aspect : KeyAspect) :
    splitBefore? question.name.toList aspect =
      if aspect = question.aspect then some question else none := by
  have hlist : question.name.toList = question.key.toList ++ question.aspect.ending := by
    rw [name, String.toList_append, String.toList_ofList]
  have hkey : question.key.toList ≠ [] := by simpa using h
  split
  · next haspect =>
    subst haspect
    have hlength : 0 < question.key.toList.length := List.length_pos_iff.2 hkey
    rw [splitBefore?, if_pos]
    · rw [hlist, List.length_append, Nat.add_sub_cancel, List.take_left, String.ofList_toList]
    · rw [hlist, List.isSuffixOf_iff_suffix, List.length_append]
      exact ⟨List.suffix_append _ _, by omega⟩
  · next haspect =>
    rw [splitBefore?, if_neg]
    rintro ⟨hsuffix, -⟩
    apply haspect
    apply ending_of_isSuffix (List.isSuffixOf_iff_suffix.1 hsuffix)
    rw [hlist]
    exact List.suffix_append _ _

/-- The name of a question starts as its key does. -/
theorem head?_name {question : HashQuestion} (h : question.key ≠ "") :
    question.name.toList.head? = question.key.toList.head? := by
  rw [name, String.toList_append, String.toList_ofList, List.head?_append_of_ne_nil]
  simpa using h

/-- The name of a question asks that question. -/
theorem ofName?_name {question : HashQuestion} (h : question.key ≠ "") :
    ofName? question.name = some question := by
  simp only [ofName?, List.findSome?_cons, List.findSome?_nil, splitBefore?_name h]
  cases question.aspect <;> rfl

end HashQuestion

/-! ## Installed names -/

/-- The name means a field, a property or a method of every node. -/
def isInstalled (name : String) : Bool :=
  (Field.ofName? name).isSome || (Property.ofName? name).isSome || (Method.ofName? name).isSome

/-- The questions about keys whose names are installed. -/
def shadowedQuestions : List HashQuestion :=
  [⟨.pair, "hash"⟩, ⟨.value, "hash"⟩, ⟨.value, "left"⟩, ⟨.value, "right"⟩, ⟨.value, "to"⟩,
   ⟨.source, "to"⟩]

/-- The names of all fields, properties and methods. -/
def installedNames : List String :=
  ["type", "children", "span", "parent", "_parent"] ++ Derived.all.map Derived.name ++
    Slot.all.map Slot.label ++ Method.all.map Method.name

theorem mem_installedNames {name : String} (h : isInstalled name = true) :
    name ∈ installedNames := by
  simp only [isInstalled, Bool.or_eq_true, Option.isSome_iff_exists, or_assoc] at h
  simp only [installedNames, List.mem_append, or_assoc]
  rcases h with ⟨field, hfield⟩ | ⟨property, hproperty⟩ | ⟨method, hmethod⟩
  · left
    rcases List.lookup_eq_some_iff.1 hfield with ⟨before, after, hlist, -⟩
    have hnames := congrArg (List.map Prod.fst) hlist
    rw [List.map_append, List.map_cons] at hnames
    exact hnames ▸ List.mem_append_right _ List.mem_cons_self
  · right
    unfold Property.ofName? at hproperty
    split at hproperty
    · next derived hderived =>
      left
      exact List.mem_map.2
        ⟨derived, List.mem_of_find?_eq_some hderived, by simpa using List.find?_some hderived⟩
    · rcases Option.map_eq_some_iff.1 hproperty with ⟨slot, hslot, -⟩
      right; left
      exact List.mem_map.2 ⟨slot, slot.mem_all, Slot.label_of_ofLabel? hslot⟩
  · right; right; right
    exact List.mem_map.2
      ⟨method, List.mem_of_find?_eq_some hmethod, by simpa using List.find?_some hmethod⟩

/-- An installed name that asks about a key asks one of the shadowed questions. -/
theorem mem_shadowedQuestions {name : String} (h : name ∈ installedNames)
    {question : HashQuestion} (hname : HashQuestion.ofName? name = some question) :
    question ∈ shadowedQuestions := by
  have hall : ∀ name ∈ installedNames,
      (HashQuestion.ofName? name).all fun question => shadowedQuestions.contains question := by
    decide +kernel
  simpa [hname] using hall name h

/-- A question has an installed name exactly if it is shadowed. -/
theorem isInstalled_name_iff {question : HashQuestion} (h : question.key ≠ "") :
    isInstalled question.name = true ↔ question ∈ shadowedQuestions := by
  constructor
  · intro hinstalled
    exact mem_shadowedQuestions (mem_installedNames hinstalled) (HashQuestion.ofName?_name h)
  · have hall : ∀ question ∈ shadowedQuestions, isInstalled question.name = true := by
      decide +kernel
    exact hall question

/-! ## Attributes -/

variable {node : TreeNode} {name : String}

/-- A name that is neither installed nor reserved is resolved when it is asked for. -/
theorem readAttribute_of_not_installed (forest : Forest) (hinstalled : isInstalled name = false)
    (hreserved : name.toList.head? ≠ some '_') :
    forest.readAttribute node name = node.dynamicAttribute name := by
  simp only [isInstalled, Bool.or_eq_false_iff, Option.isSome_eq_false_iff,
    Option.isNone_iff_eq_none] at hinstalled
  obtain ⟨⟨hfield, hproperty⟩, hmethod⟩ := hinstalled
  simp only [Forest.readAttribute, hfield, hproperty, hmethod, if_neg hreserved]

/-- The children of a hash are not searched. -/
theorem childSearch?_of_hash (h : node.hasKind .hash = true) (name : String) :
    node.childSearch? name = none := by
  have htype : node.type = .known .hash := by simpa [Node.hasKind] using h
  simp [Node.childSearch?, Node.hasKind, htype]

/-- A question on a hash is resolved as one about its key. -/
theorem resolve_name {question : HashQuestion} (hhash : node.hasKind .hash = true)
    (hkey : question.key ≠ "") (arguments : List TreeValue) :
    node.resolve question.name arguments = node.answerKey question := by
  have hquestion : node.hashQuestion? question.name = some question := by
    rw [Node.hashQuestion?, if_pos hhash, HashQuestion.ofName?_name hkey]
  simp only [Node.resolve, childSearch?_of_hash hhash, hquestion]

/-- A property that the type does not have is refused. -/
theorem readAttribute_of_property (forest : Forest) {property : Property}
    (hfield : Field.ofName? name = none) (hproperty : Property.ofName? name = some property)
    (hsupports : property.supports node.type = false) :
    forest.readAttribute node name = .error (.unsupported name node) := by
  have hread : property.read node = .error (.unsupported name node) := by
    have hanswers := answersIf_property hproperty node
    rwa [hsupports] at hanswers
  simp only [Forest.readAttribute, hfield, hproperty, hread]
  rfl

/-- An installed name of the form of a question is refused on a hash if it is a property, and is
answered by itself if it is a method. -/
theorem readAttribute_shadowed (forest : Forest) {question : HashQuestion}
    (hhash : node.hasKind .hash = true) (h : question ∈ shadowedQuestions) :
    forest.readAttribute node question.name =
      if (Property.ofName? question.name).isSome then .error (.unsupported question.name node)
      else .ok (.callable question.name) := by
  have htype : node.type = .known .hash := by simpa [Node.hasKind] using hhash
  simp only [shadowedQuestions, List.mem_cons, List.not_mem_nil, or_false] at h
  rcases h with rfl | rfl | rfl | rfl | rfl | rfl
  · rfl
  · rfl
  · exact readAttribute_of_property forest rfl rfl (by rw [htype]; rfl)
  · exact readAttribute_of_property forest rfl rfl (by rw [htype]; rfl)
  · rfl
  · rfl

/-! ## Answers about keys -/

variable {key : TreeValue} {cause : AccessError Mark} {question : HashQuestion}

/-- A search on a hash has no failure but a key without a value. -/
theorem search_eq_error {accessor : String} (hhash : Node.isHash node.type = true)
    (h : node.search accessor key = .error cause) : cause = .emptyLiteral := by
  rw [Node.search_of_hash hhash] at h
  exact (findPairIn_eq_error_iff.1 h).1

/-- An answer about a key has no failure but a key without a value. -/
theorem answerKey_eq_error (hhash : Node.isHash node.type = true)
    (h : node.answerKey question = .error cause) : cause = .emptyLiteral := by
  have hhasKey : ∀ {key other}, node.hasKey key = .error other → other = .emptyLiteral :=
    fun h => search_eq_error hhash (map_eq_error_iff.1 h)
  have hlookup : ∀ {other}, node.lookupKey question.key = .error other → other = .emptyLiteral := by
    intro other h
    unfold Node.lookupKey at h
    split at h
    · next hsymbol =>
      cases h
      exact hhasKey hsymbol
    · cases h
    · split at h
      · next hstring =>
        cases h
        exact hhasKey hstring
      · cases h
      · cases h
  unfold Node.answerKey at h
  split at h
  · next hkey =>
    cases h
    exact hlookup hkey
  · cases h
  · next key hkey =>
    unfold Node.presentKey at h
    split at h
    · exact search_eq_error hhash (map_eq_error_iff.1 h)
    · exact search_eq_error hhash (map_eq_error_iff.1 h)
    · exact search_eq_error hhash (map_eq_error_iff.1 (map_eq_error_iff.1 h))

/-- Without a pair for the key in either form, the answer is the one of a missing key. -/
theorem answerKey_of_missing (hhash : Node.isHash node.type = true)
    (hsymbol : KeyMissing (.lit (.sym ⟨question.key⟩)) (node.childNodesOf .pair))
    (hstring : KeyMissing (.lit (.str question.key)) (node.childNodesOf .pair)) :
    node.answerKey question = .ok (Node.missingKey question.aspect) := by
  have hmissing : ∀ {key : TreeValue}, KeyMissing key (node.childNodesOf .pair) →
      node.hasKey key = .ok false := by
    intro key h
    rw [Node.hasKey, Node.search_of_hash hhash, findPairIn_eq_none_iff.2 h]
    rfl
  have hlookup : node.lookupKey question.key = .ok none := by
    simp only [Node.lookupKey, hmissing hsymbol, hmissing hstring]
  simp only [Node.answerKey, hlookup]

/-- A question whose name is not installed means the same as an attribute and when it is
resolved. -/
theorem readAttribute_name (forest : Forest) (hhash : node.hasKind .hash = true)
    (hkey : question.key ≠ "") (hreserved : question.key.toList.head? ≠ some '_')
    (h : question ∉ shadowedQuestions) :
    forest.readAttribute node question.name = (node.resolve question.name []).map .value := by
  have hinstalled : isInstalled question.name = false := by
    rwa [← Bool.not_eq_true, isInstalled_name_iff hkey]
  rw [readAttribute_of_not_installed forest hinstalled
    (by rwa [HashQuestion.head?_name hkey]), Node.dynamicAttribute]
  simp only [childSearch?_of_hash hhash]

/-- On a hash, a name that asks about a key means the same as an attribute and when it is resolved,
which is the answer about the key, exactly if the name is not installed.  An installed name is
refused where it is a property, which no hash has, and is answered by itself where it is a method,
whatever the keys are.  A key that is missing in both forms is answered by the absent value or the
empty text. -/
theorem readAttribute_hash_iff (forest : Forest) (hhash : node.hasKind .hash = true)
    (hkey : question.key ≠ "") (hreserved : question.key.toList.head? ≠ some '_') :
    node.resolve question.name [] = node.answerKey question ∧
    (forest.readAttribute node question.name =
        (node.resolve question.name []).map .value ↔ question ∉ shadowedQuestions) ∧
    (question ∈ shadowedQuestions → forest.readAttribute node question.name =
      if (Property.ofName? question.name).isSome then .error (.unsupported question.name node)
      else .ok (.callable question.name)) ∧
    (question ∉ shadowedQuestions →
      KeyMissing (.lit (.sym ⟨question.key⟩)) (node.childNodesOf .pair) →
      KeyMissing (.lit (.str question.key)) (node.childNodesOf .pair) →
      forest.readAttribute node question.name = .ok (.value (Node.missingKey question.aspect))) := by
  have hisHash : Node.isHash node.type = true := by
    have htype : node.type = .known .hash := by simpa [Node.hasKind] using hhash
    rw [htype]
    rfl
  have hresolve := resolve_name hhash hkey []
  have hdynamic := readAttribute_name forest hhash hkey hreserved
  refine ⟨hresolve, ⟨?_, hdynamic⟩, readAttribute_shadowed forest hhash, ?_⟩
  · intro heq hshadowed
    rw [readAttribute_shadowed forest hhash hshadowed, hresolve] at heq
    split at heq
    · cases answerKey_eq_error hisHash (map_eq_error_iff.1 heq.symm)
    · cases hanswer : node.answerKey question <;> simp [hanswer, Except.map] at heq
  · intro h hsymbol hstring
    rw [hdynamic h, hresolve, answerKey_of_missing hisHash hsymbol hstring]
    rfl

/-- A key with a dash is answered by the pair that holds it as a string, and a key that is missing
by the empty text. -/
theorem readAttribute_hash_iff_dash :
    let pair : TreeNode := ⟨⟨1, none⟩, .known .pair,
      [.node ⟨⟨0, none⟩, .known .str, [.lit (.str "data-turbo")]⟩, .lit (.bool false)]⟩
    let hash : TreeNode := ⟨⟨2, none⟩, .known .hash, [.node pair]⟩
    let found : HashQuestion := ⟨.pair, "data-turbo"⟩
    let missing : HashQuestion := ⟨.source, "missing"⟩
    hash.hasKind .hash = true ∧
      (found.key ≠ "" ∧ found.key.toList.head? ≠ some '_') ∧
      (missing.key ≠ "" ∧ missing.key.toList.head? ≠ some '_') ∧
      Forest.empty.readAttribute hash found.name = .ok (.value (.node pair)) ∧
      Forest.empty.readAttribute hash missing.name = .ok (.value (.lit (.str ""))) := by
  intro pair hash found missing
  have hhash : hash.hasKind .hash = true := rfl
  have hfound : found.key ≠ "" ∧ found.key.toList.head? ≠ some '_' := by decide +kernel
  have hmissing : missing.key ≠ "" ∧ missing.key.toList.head? ≠ some '_' := by decide +kernel
  refine ⟨hhash, hfound, hmissing, ?_, ?_⟩
  · rcases readAttribute_hash_iff Forest.empty hhash hfound.1 hfound.2 with ⟨hresolve, hiff, -, -⟩
    rw [hiff.2 (by decide), hresolve]
    rfl
  · apply (readAttribute_hash_iff Forest.empty hhash hmissing.1 hmissing.2).2.2.2 (by decide)
    · exact List.forall_mem_singleton.2 ⟨_, rfl, rfl⟩
    · exact List.forall_mem_singleton.2 ⟨_, rfl, rfl⟩

/-- A hash with the key `left` resolves `left_value` to its value and refuses it as an
attribute. -/
theorem not_readAttribute_eq_resolve :
    ¬ ∀ (forest : Forest) (node : TreeNode) (question : HashQuestion),
      node.hasKind .hash = true → question.key ≠ "" → question.key.toList.head? ≠ some '_' →
      forest.readAttribute node question.name = (node.resolve question.name []).map .value := by
  intro h
  let pair : TreeNode := ⟨⟨1, none⟩, .known .pair,
    [.node ⟨⟨0, none⟩, .known .sym, [.lit (.sym ⟨"left"⟩)]⟩, .lit (.int 1)]⟩
  let hash : TreeNode := ⟨⟨2, none⟩, .known .hash, [.node pair]⟩
  have heq := h Forest.empty hash ⟨.value, "left"⟩ rfl (by decide) (by decide +kernel)
  rw [readAttribute_shadowed Forest.empty rfl (by decide), resolve_name rfl (by decide)] at heq
  have hanswer : hash.answerKey ⟨.value, "left"⟩ = .ok (.lit (.int 1)) := rfl
  rw [hanswer] at heq
  cases heq

end RubyTree
