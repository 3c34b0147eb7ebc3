import RubyTree.Access.Hash
import RubyTree.Tree.Mark

/-!
# Names that are resolved when they are asked for

On a hash, a key text followed by `_pair`, `_value` or `_source` asks for the
pair of that key, for its value, or for the source text of its value.  The key is
looked for as a symbol first and as a string second.  On a list of parameters,
`count` and `index` search the children.

Main results:

- `HashQuestion.ofName?` splits a name into a key text and what is asked.
- `Node.resolve` answers a name, `Node.canResolve` tells whether there is
  something to answer, and `Node.dynamicAttribute` answers it as an attribute.
-/

namespace RubyTree

/-! ## Questions about keys -/

/-- What is asked about a key. -/
inductive KeyAspect where
  /-- The pair. -/
  | pair
  /-- The value of the pair. -/
  | value
  /-- The source text of the value. -/
  | source
deriving DecidableEq

/-- The end of a name that asks for an aspect. -/
def KeyAspect.ending : KeyAspect → List Char
  | .pair => ['_', 'p', 'a', 'i', 'r']
  | .value => ['_', 'v', 'a', 'l', 'u', 'e']
  | .source => ['_', 's', 'o', 'u', 'r', 'c', 'e']

/-- A question about a key of a hash. -/
structure HashQuestion where
  /-- What is asked. -/
  aspect : KeyAspect
  /-- The text of the key. -/
  key : String
deriving DecidableEq

namespace HashQuestion

/-- The name split before an ending, unless nothing is left of it. -/
def splitBefore? (name : List Char) (aspect : KeyAspect) : Option HashQuestion :=
  if aspect.ending.isSuffixOf name ∧ aspect.ending.length < name.length then
    some ⟨aspect, String.ofList (name.take (name.length - aspect.ending.length))⟩
  else none

/-- The question that a name asks. -/
def ofName? (name : String) : Option HashQuestion :=
  [KeyAspect.pair, .value, .source].findSome? (splitBefore? name.toList)

end HashQuestion

namespace Node

/-- The form of a key text that a hash holds: the symbol, or else the string. -/
def lookupKey (node : TreeNode) (text : String) :
    Except (AccessError Mark) (Option TreeValue) :=
  match node.hasKey (.lit (.sym ⟨text⟩)) with
  | .error cause => .error cause
  | .ok true => .ok (some (.lit (.sym ⟨text⟩)))
  | .ok false =>
    match node.hasKey (.lit (.str text)) with
    | .error cause => .error cause
    | .ok true => .ok (some (.lit (.str text)))
    | .ok false => .ok none

/-- The answer about a key that a hash does not hold. -/
def missingKey : KeyAspect → TreeValue
  | .source => .lit (.str "")
  | _ => .nil

/-- The source text of a value, absent where there is none. -/
def sourceValue : TreeValue → TreeValue
  | .node node => .lit (node.source?.elim .nil .str)
  | _ => .nil

/-- The answer about a key that a hash holds. -/
def presentKey (node : TreeNode) (key : TreeValue) :
    KeyAspect → Except (AccessError Mark) TreeValue
  | .pair => (node.hashPair key).map .ofNode?
  | .value => node.hashValue key
  | .source => (node.hashValue key).map sourceValue

/-- The answer to a question about a key. -/
def answerKey (node : TreeNode) (question : HashQuestion) :
    Except (AccessError Mark) TreeValue :=
  match node.lookupKey question.key with
  | .error cause => .error cause
  | .ok none => .ok (missingKey question.aspect)
  | .ok (some key) => node.presentKey key question.aspect

end Node

/-! ## Searching parameters -/

/-- The searches of a list of children. -/
inductive ChildSearch where
  /-- How many children equal a value. -/
  | count
  /-- Where the first child stands that equals a value. -/
  | index
deriving DecidableEq

namespace ChildSearch

/-- The name of a search. -/
def name : ChildSearch → String
  | .count => "count"
  | .index => "index"

/-- The search with a name. -/
def ofName? (name : String) : Option ChildSearch :=
  [.count, .index].find? (·.name == name)

/-- The number of children that equal a value.  As in `Value.equal`, a child that is the very object
asked for is not taken as equal without a look at it. -/
def countOf (children : List TreeValue) (value : TreeValue) : Nat :=
  children.countP (·.equal value)

/-- The position of the first child from `start` on, and before `stop`, that equals a value.
Positions below zero count from the end.  As in `Value.equal`, a child that is the very object asked
for is not taken as equal without a look at it. -/
def indexOf? (children : List TreeValue) (value : TreeValue) (start stop : Int) : Option Nat :=
  let size : Int := children.length
  let first := (if start < 0 then start + size else start).toNat
  let last := (if stop < 0 then stop + size else stop).toNat
  (((children.take last).drop first).findIdx? (·.equal value)).map (first + ·)

/-- The whole number that a value is. -/
def int? : TreeValue → Option Int
  | .lit (.int n) => some n
  | .lit (.bool b) => some (if b then 1 else 0)
  | _ => none

/-- The limits of a search, by default the whole list. -/
def limits? (size : Nat) : List TreeValue → Option (Int × Int)
  | [] => some (0, size)
  | [start] => (int? start).map fun first => (first, (size : Int))
  | [start, stop] => do
    let first ← int? start
    let last ← int? stop
    return (first, last)
  | _ => none

/-- Runs a search on children. -/
def run (search : ChildSearch) (children arguments : List TreeValue) :
    Except (AccessError Mark) TreeValue :=
  match search, arguments with
  | .count, [value] => .ok (.lit (.int (countOf children value)))
  | .index, value :: rest =>
    match limits? children.length rest with
    | none => .error (.unfitArguments search.name)
    | some (start, stop) =>
      match indexOf? children value start stop with
      | some position => .ok (.lit (.int position))
      | none => .error .childNotFound
  | _, _ => .error (.unfitArguments search.name)

end ChildSearch

namespace Node

/-! ## Resolving names -/

/-- The search of the children that a name asks of a list of parameters. -/
def childSearch? (node : TreeNode) (name : String) : Option ChildSearch :=
  if node.hasKind .args then ChildSearch.ofName? name else none

/-- The question that a name asks about a key of a hash. -/
def hashQuestion? (node : TreeNode) (name : String) : Option HashQuestion :=
  if node.hasKind .hash then HashQuestion.ofName? name else none

/-- The answer to a name, with arguments for a search. -/
def resolve (node : TreeNode) (name : String) (arguments : List TreeValue) :
    Except (AccessError Mark) TreeValue :=
  match node.childSearch? name with
  | some search => search.run node.children arguments
  | none =>
    match node.hashQuestion? name with
    | some question => node.answerKey question
    | none => .error (.unknownName name node.type)

/-- There is something to answer to a name. -/
def canResolve (node : TreeNode) (name : String) : Except (AccessError Mark) Bool :=
  match node.childSearch? name with
  | some _ => .ok true
  | none =>
    match node.hashQuestion? name with
    | some question => (node.lookupKey question.key).map Option.isSome
    | none => .ok false

end Node

/-- The answer to an attribute: a value, a part of the node, or something that can be called. -/
inductive Answer where
  /-- A value. -/
  | value (value : TreeValue)
  /-- The type of a node. -/
  | type (type : NodeType)
  /-- The children of a node. -/
  | children (children : List TreeValue)
  /-- A place in a source. -/
  | span (span : Text.Span)
  /-- Something that can be called, by its name. -/
  | callable (name : String)

/-- The name of the class of an answer in messages, for answers that cannot be called. -/
def Answer.className? : Answer → Option String
  | .value given => some given.className
  | .type (.known _) => some "NodeType"
  | .type (.other ..) => some "str"
  | .children _ => some "tuple"
  | .span _ => some "SourceSpan"
  | .callable _ => none

/-- The answer to a name as an attribute: a search is answered by itself, before it runs. -/
def Node.dynamicAttribute (node : TreeNode) (name : String) : Except (AccessError Mark) Answer :=
  match node.childSearch? name with
  | some search => .ok (.callable search.name)
  | none => (node.resolve name []).map .value

end RubyTree
