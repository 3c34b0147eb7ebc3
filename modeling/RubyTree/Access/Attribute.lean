import RubyTree.Access.Dynamic
import RubyTree.Tree.Forest

/-!
# Attributes and methods of nodes

A name asked of a node of a forest means, in this order, a field, a property, a
method, or what the node resolves it to.  Names that start with an underscore are
reserved and mean nothing.

Main results:

- `Forest.readAttribute` answers a name, and `Forest.hasAttribute` tells whether it
  means anything.
- `Method` lists the methods and `Method.run` calls one, after `Method.signature`.
- `Forest.call` calls what a name means.
-/

namespace RubyTree

/-! ## Refusals -/

/-- Why a question about a node of a forest has no answer. -/
inductive QuestionError where
  /-- The node refuses it. -/
  | access (cause : AccessError Mark)
  /-- The node has no place among siblings. -/
  | place (cause : PlaceError)

/-- The text of the refusal. -/
def QuestionError.message : QuestionError → String
  | .access cause => cause.message
  | .place cause => cause.message

/-- An answer that the node itself may refuse. -/
def QuestionError.ofAccess {ρ : Type} (answer : Except (AccessError Mark) ρ) :
    Except QuestionError ρ :=
  answer.mapError .access

/-- An answer that the place of the node may refuse. -/
def QuestionError.ofPlace {ρ : Type} (answer : Except PlaceError ρ) : Except QuestionError ρ :=
  answer.mapError .place

/-! ## Fields -/

/-- The fields of a node. -/
inductive Field where
  /-- The type. -/
  | type
  /-- The children. -/
  | children
  /-- The place in the source. -/
  | span
  /-- The parent. -/
  | parent
deriving DecidableEq

/-- The field with a name.  The parent has a reserved name besides its public one. -/
def Field.ofName? (name : String) : Option Field :=
  [("type", Field.type), ("children", .children), ("span", .span), ("parent", .parent),
   ("_parent", .parent)].lookup name

/-- Reads a field of a node. -/
def Field.read (forest : Forest) (node : TreeNode) : Field → Answer
  | .type => .type node.type
  | .children => .children node.children
  | .span => node.span?.elim (.value .nil) .span
  | .parent => .value (.ofNode? (forest.parent? node))

/-! ## Methods -/

/-- The methods of a node. -/
inductive Method where
  /-- The children of the parent behind the node. -/
  | siblings
  /-- The child of the parent behind the node. -/
  | nextSibling
  /-- The child of the parent before the node. -/
  | prevSibling
  /-- The children that are nodes. -/
  | childNodes
  /-- The parents above the node. -/
  | ancestors
  /-- The top of the chain of parents. -/
  | root
  /-- The nodes below the node. -/
  | descendants
  /-- Points the node to a parent. -/
  | setParent
  /-- The hash has a key. -/
  | hasKey
  /-- The pair of a key. -/
  | hashPair
  /-- The value of a key. -/
  | hashValue
  /-- The value of a literal node. -/
  | toValue
  /-- The source text of the node. -/
  | toSource
deriving DecidableEq

namespace Method

/-- Every method. -/
def all : List Method :=
  [.siblings, .nextSibling, .prevSibling, .childNodes, .ancestors, .root, .descendants,
   .setParent, .hasKey, .hashPair, .hashValue, .toValue, .toSource]

/-- The name of a method. -/
def name : Method → String
  | .siblings => "siblings"
  | .nextSibling => "next_sibling"
  | .prevSibling => "prev_sibling"
  | .childNodes => "child_nodes"
  | .ancestors => "ancestors"
  | .root => "root"
  | .descendants => "descendants"
  | .setParent => "set_parent"
  | .hasKey => "has_key"
  | .hashPair => "hash_pair"
  | .hashValue => "hash_value"
  | .toValue => "to_value"
  | .toSource => "to_source"

/-- The methods that are also functions of a node. -/
def functions : List Method :=
  [.hasKey, .hashPair, .hashValue, .toValue, .toSource]

/-- What a method takes besides the node. -/
def signature (method : Method) : Signature :=
  ⟨if method ∈ functions then method.name else "Node." ++ method.name,
    match method with
    | .setParent => some "node"
    | .hasKey => some "key"
    | .hashPair => some "key"
    | .hashValue => some "key"
    | _ => none⟩

/-- The method with a name. -/
def ofName? (name : String) : Option Method :=
  all.find? (·.name == name)

/-- Calls a method of a node.  Only one of them changes the forest. -/
def run (method : Method) (forest : Forest) (node : TreeNode) (arguments : List TreeValue) :
    Except QuestionError (TreeValue × Forest) :=
  let same (answer : Except QuestionError TreeValue) := answer.map (·, forest)
  match method, arguments with
  | .siblings, [] => same ((QuestionError.ofPlace (forest.siblings node)).map .list)
  | .nextSibling, [] => same (QuestionError.ofPlace (forest.nextSibling node))
  | .prevSibling, [] => same (QuestionError.ofPlace (forest.prevSibling node))
  | .childNodes, [] => same (.ok (.ofNodes node.childNodes))
  | .ancestors, [] => same (.ok (.ofNodes (forest.ancestors node)))
  | .root, [] => same (.ok (.node (forest.root node)))
  | .descendants, [] => same (.ok (.ofNodes node.descendants))
  | .setParent, [parent] => .ok (.nil, forest.setParent node parent.node?)
  | .hasKey, [key] =>
    same ((QuestionError.ofAccess (node.hasKey key)).map fun found => .lit (.bool found))
  | .hashPair, [key] => same ((QuestionError.ofAccess (node.hashPair key)).map .ofNode?)
  | .hashValue, [key] => same (QuestionError.ofAccess (node.hashValue key))
  | .toValue, [] => same (QuestionError.ofAccess node.toValue)
  | .toSource, [] => same (.ok (node.source?.elim .nil fun text => .lit (.str text)))
  | _, _ => .error (.access (method.signature.refusal arguments.length))

end Method

namespace Forest

/-! ## Attributes -/

/-- The answer of a node to a name. -/
def readAttribute (forest : Forest) (node : TreeNode) (name : String) :
    Except (AccessError Mark) Answer :=
  match Field.ofName? name with
  | some field => .ok (field.read forest node)
  | none =>
    match Property.ofName? name with
    | some property => (property.read node).map .value
    | none =>
      match Method.ofName? name with
      | some method => .ok (.callable method.name)
      | none =>
        if name.toList.head? = some '_' then .error (.reservedName name)
        else node.dynamicAttribute name

/-- The node answers to a name.  A property that the type refuses is an answer of its own. -/
def hasAttribute (forest : Forest) (node : TreeNode) (name : String) :
    Except (AccessError Mark) Bool :=
  match forest.readAttribute node name with
  | .ok _ => .ok true
  | .error cause => if cause.isMissing then .ok false else .error cause

/-- Calls what a name means on a node. -/
def call (forest : Forest) (node : TreeNode) (name : String) (arguments : List TreeValue) :
    Except QuestionError (TreeValue × Forest) :=
  match Method.ofName? name with
  | some method => method.run forest node arguments
  | none =>
    match forest.readAttribute node name with
    | .error cause => .error (.access cause)
    | .ok answer =>
      match answer.className? with
      | some className => .error (.access (.notCallable className))
      | none => (QuestionError.ofAccess (node.resolve name arguments)).map (·, forest)

end Forest

end RubyTree
