import RubyTree.Access.LiteralValue
import RubyTree.Access.Property

/-!
# Looking up keys

A hash is searched from its first pair on for a key of the same value.  Keys are
compared as numbers like literals are, but a truth value is the same only as a
truth value, also inside lists.

Main results:

- `Value.sameKey` compares keys.
- `Node.findPair` is the search; `Node.hasKey`, `Node.hashPair` and
  `Node.hashValue` are its three answers.
-/

namespace RubyTree

variable {α β : Type}

/-! ## Keys -/

/-- The literal is a truth value. -/
def Literal.isBool : Literal → Bool
  | .bool _ => true
  | _ => false

mutual

/-- Two values are the same key. -/
def Value.sameKey : Value α → Value β → Bool
  | .lit a, .lit b => a.isBool == b.isBool && a.equal b
  | .node a, .node b => a.equal b
  | .list as, .list bs => Value.sameKeys as bs
  | _, _ => false

/-- Two lists are the same key item by item. -/
def Value.sameKeys : List (Value α) → List (Value β) → Bool
  | [], [] => true
  | a :: as, b :: bs => a.sameKey b && Value.sameKeys as bs
  | _, _ => false

end

/-! ## The search -/

/-- The first pair with a key, among pairs in order.  The keys before it have to have values. -/
def findPairIn (key : Value α) : List (Node α) → Except (AccessError α) (Option (Node α))
  | [] => .ok none
  | pair :: rest =>
    match pair.pairKey.toValue with
    | .error cause => .error cause
    | .ok found => if found.sameKey key then .ok (some pair) else findPairIn key rest

namespace Node

/-- The first pair of a hash with a key. -/
def findPair (node : Node α) (key : Value α) : Except (AccessError α) (Option (Node α)) :=
  findPairIn key (node.childNodesOf .pair)

/-- The search on hashes, and a refusal on all other nodes. -/
def search (node : Node α) (accessor : String) (key : Value α) :
    Except (AccessError α) (Option (Node α)) :=
  if isHash node.type then node.findPair key else .error (.unsupported accessor node)

/-- The hash has a pair with the key. -/
def hasKey (node : Node α) (key : Value α) : Except (AccessError α) Bool :=
  (node.search "has_key" key).map Option.isSome

/-- The first pair with the key, if there is one. -/
def hashPair (node : Node α) (key : Value α) : Except (AccessError α) (Option (Node α)) :=
  node.search "hash_pair" key

/-- The value of the first pair with the key; absent without one. -/
def hashValue (node : Node α) (key : Value α) : Except (AccessError α) (Value α) :=
  (node.search "hash_value" key).map fun
    | some pair => pair.pairValue
    | none => .nil

end Node

end RubyTree
