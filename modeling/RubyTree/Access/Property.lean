import RubyTree.Access.Error

/-!
# Slots and derived properties

A plain slot is the child at its declared position.  A derived property depends
on the family of the node: what the arguments are, where the body starts, which
children are branches.  Where a slot and a derived property share a name, the
name means the property.

Main results:

- `Node.slot` reads a plain slot; a missing last child reads as absent.
- `Derived` lists the derived properties, and `Derived.read` reads one.
- `Node.property` reads a slot or a derived property by its name.
-/

namespace RubyTree

variable {α : Type}

namespace Node

/-! ## Plain slots -/

/-- The child at a position, or the absent value. -/
def child (node : Node α) (index : Nat) : Value α :=
  node.children[index]?.getD .nil

/-- The child in the position that the type of the node declares for a slot. -/
def slot (node : Node α) (slot : Slot) : Except (AccessError α) (Value α) :=
  match node.type.slotIndex? slot with
  | some index => .ok (node.child index)
  | none => .error (.unsupported slot.label node)

/-- A plain slot by its name.  No type declares a name that is no slot. -/
def slotNamed (node : Node α) (label : String) : Except (AccessError α) (Value α) :=
  match Slot.ofLabel? label with
  | some slot => node.slot slot
  | none => .error (.unsupported label node)

/-! ## Arguments -/

/-- The position of the parameters of a definition. -/
def parametersIndex? : NodeType → Option Nat
  | .known .defn => some 1
  | .known .block => some 1
  | .known .numblock => some 1
  | .known .defs => some 2
  | _ => none

/-- Parameters one by one, or as a single value where they are no list of parameters. -/
def unpackParameters : Value α → List (Value α)
  | .node node => if node.hasKind .args then node.children else [.node node]
  | value => [value]

/-- The arguments of a call or the parameters of a definition. -/
def arguments (node : Node α) : Except (AccessError α) (List (Value α)) :=
  match parametersIndex? node.type with
  | some index => .ok (unpackParameters (node.child index))
  | none =>
    match node.type with
    | .known .send => .ok (node.children.drop 2)
    | .known .csend => .ok (node.children.drop 2)
    | .known .defined => .ok node.children
    | .known .yield => .ok node.children
    | _ => .error (.unsupported "arguments" node)

/-! ## Bodies -/

/-- The type groups statements. -/
def isGrouping : NodeType → Bool
  | .known .begin => true
  | .known .kwbegin => true
  | _ => false

/-- The position of the first child of a body. -/
def bodyStart? : NodeType → Option Nat
  | .known .rescue => some 0
  | .known .ensure => some 0
  | .known .preexe => some 0
  | .known .postexe => some 0
  | .known .when => some 1
  | .known .moduleDefn => some 1
  | .known .sclass => some 1
  | .known .until => some 1
  | .known .untilPost => some 1
  | .known .while => some 1
  | .known .whilePost => some 1
  | .known .defn => some 2
  | .known .block => some 2
  | .known .classDefn => some 2
  | .known .for => some 2
  | .known .inPattern => some 2
  | .known .numblock => some 2
  | .known .resbody => some 2
  | .known .defs => some 3
  | _ => none

/-- The statements of a body whose first child is at a position.  A body at the front is one
child, since handlers follow it. -/
def bodyFrom (node : Node α) (start : Nat) : List (Value α) :=
  let statements := if start = 0 then [node.child 0] else node.children.drop start
  match node.child start with
  | .lit .nil => []
  | .node first => if isGrouping first.type then first.children else statements
  | _ => statements

/-- The statements of a body, taken out of their group. -/
def body (node : Node α) : Except (AccessError α) (List (Value α)) :=
  if isGrouping node.type then .ok node.children
  else
    match bodyStart? node.type with
    | some start => .ok (node.bodyFrom start)
    | none => .error (.unsupported "body" node)

/-! ## Branches -/

/-- The children without the first and the last one. -/
def inner (node : Node α) : List (Value α) :=
  (node.children.drop 1).dropLast

/-- The last child, whatever the type. -/
def elseStatement (node : Node α) : Value α :=
  node.children.getLast?.getD .nil

/-- The answer on nodes of one kind, and a refusal on all others. -/
def onKind (node : Node α) (kind : Kind) (accessor : String) {ρ : Type} (answer : ρ) :
    Except (AccessError α) ρ :=
  if node.hasKind kind then .ok answer else .error (.unsupported accessor node)

/-- The branches of a case. -/
def whenStatements (node : Node α) : Except (AccessError α) (List (Value α)) :=
  node.onKind .case "when_statements" node.inner

/-- The branches of a pattern match. -/
def inStatements (node : Node α) : Except (AccessError α) (List (Value α)) :=
  node.onKind .caseMatch "in_statements" node.inner

/-- The rescue clauses of a body. -/
def rescueBodies (node : Node α) : Except (AccessError α) (List (Value α)) :=
  node.onKind .rescue "rescue_bodies" node.inner

/-- The statements of an ensure clause. -/
def ensureBody (node : Node α) : Except (AccessError α) (List (Value α)) :=
  node.onKind .ensure "ensure_body" (node.children.drop 1)

/-- The exception classes of a rescue clause. -/
def exceptions (node : Node α) : Except (AccessError α) (Value α) :=
  node.onKind .resbody "exceptions" (node.child 0)

/-! ## Elements and options -/

/-- The children of the type are its elements. -/
def hasElements : NodeType → Bool
  | .known .array => true
  | .known .arrayPattern => true
  | .known .arrayPatternWithTail => true
  | .known .findPattern => true
  | .known .dstr => true
  | .known .dsym => true
  | .known .xstr => true
  | .known .regopt => true
  | .known .mlhs => true
  | .known .undef => true
  | _ => false

/-- The elements of a node; the last child of a regular expression holds its options. -/
def elements (node : Node α) : Except (AccessError α) (List (Value α)) :=
  if hasElements node.type then .ok node.children
  else node.onKind .regexp "elements" node.children.dropLast

/-- The options of a regular expression. -/
def options (node : Node α) : Except (AccessError α) (Value α) :=
  node.onKind .regexp "options" node.elseStatement

/-! ## Pairs -/

/-- The type is a hash or its pattern. -/
def isHash : NodeType → Bool
  | .known .hash => true
  | .known .hashPattern => true
  | _ => false

/-- The answer on hashes, and a refusal on all others. -/
def onHash (node : Node α) (accessor : String) {ρ : Type} (answer : ρ) :
    Except (AccessError α) ρ :=
  if isHash node.type then .ok answer else .error (.unsupported accessor node)

/-- The child nodes of a kind. -/
def childNodesOf (node : Node α) (kind : Kind) : List (Node α) :=
  node.childNodes.filter (·.hasKind kind)

/-- The pairs of a hash. -/
def pairs (node : Node α) : Except (AccessError α) (List (Node α)) :=
  node.onHash "pairs" (node.childNodesOf .pair)

/-- The double splats of a hash. -/
def kwsplats (node : Node α) : Except (AccessError α) (List (Node α)) :=
  node.onHash "kwsplats" (node.childNodesOf .kwsplat)

/-- The key of a pair. -/
def pairKey (pair : Node α) : Value α :=
  pair.child 0

/-- The value of a pair. -/
def pairValue (pair : Node α) : Value α :=
  pair.child 1

/-- The keys of a hash. -/
def keys (node : Node α) : Except (AccessError α) (List (Value α)) :=
  node.onHash "keys" ((node.childNodesOf .pair).map pairKey)

/-- The values of a hash. -/
def values (node : Node α) : Except (AccessError α) (List (Value α)) :=
  node.onHash "values" ((node.childNodesOf .pair).map pairValue)

end Node

/-! ## Derived properties by name -/

/-- The properties that are not read from a fixed position. -/
inductive Derived where
  /-- The arguments of a call or the parameters of a definition. -/
  | arguments
  /-- The statements of a body. -/
  | body
  /-- The branches of a case. -/
  | whenStatements
  /-- The branches of a pattern match. -/
  | inStatements
  /-- The rescue clauses of a body. -/
  | rescueBodies
  /-- The statements of an ensure clause. -/
  | ensureBody
  /-- The last child. -/
  | elseStatement
  /-- The elements. -/
  | elements
  /-- The options of a regular expression. -/
  | options
  /-- The exception classes of a rescue clause. -/
  | exceptions
  /-- The pairs of a hash. -/
  | pairs
  /-- The double splats of a hash. -/
  | kwsplats
  /-- The keys of a hash. -/
  | keys
  /-- The values of a hash. -/
  | values
deriving DecidableEq

namespace Derived

/-- Every derived property. -/
def all : List Derived :=
  [.arguments, .body, .whenStatements, .inStatements, .rescueBodies, .ensureBody,
   .elseStatement, .elements, .options, .exceptions, .pairs, .kwsplats, .keys, .values]

/-- The name of a derived property. -/
def name : Derived → String
  | .arguments => "arguments"
  | .body => "body"
  | .whenStatements => "when_statements"
  | .inStatements => "in_statements"
  | .rescueBodies => "rescue_bodies"
  | .ensureBody => "ensure_body"
  | .elseStatement => "else_statement"
  | .elements => "elements"
  | .options => "options"
  | .exceptions => "exceptions"
  | .pairs => "pairs"
  | .kwsplats => "kwsplats"
  | .keys => "keys"
  | .values => "values"

/-- The derived property with a name. -/
def ofName? (name : String) : Option Derived :=
  all.find? (·.name == name)

/-- Reads a derived property of a node. -/
def read : Derived → Node α → Except (AccessError α) (Value α)
  | .arguments, node => node.arguments.map .list
  | .body, node => node.body.map .list
  | .whenStatements, node => node.whenStatements.map .list
  | .inStatements, node => node.inStatements.map .list
  | .rescueBodies, node => node.rescueBodies.map .list
  | .ensureBody, node => node.ensureBody.map .list
  | .elseStatement, node => .ok node.elseStatement
  | .elements, node => node.elements.map .list
  | .options, node => node.options
  | .exceptions, node => node.exceptions
  | .pairs, node => node.pairs.map .ofNodes
  | .kwsplats, node => node.kwsplats.map .ofNodes
  | .keys, node => node.keys.map .list
  | .values, node => node.values.map .list

end Derived

/-! ## Properties by name -/

/-- A name that is read as a property: a derived property, or else a plain slot. -/
inductive Property where
  /-- A derived property. -/
  | derived (property : Derived)
  /-- A plain slot. -/
  | slot (slot : Slot)
deriving DecidableEq

namespace Property

/-- The property that a name means. -/
def ofName? (name : String) : Option Property :=
  match Derived.ofName? name with
  | some property => some (.derived property)
  | none => (Slot.ofLabel? name).map .slot

/-- The property that the name of a slot means. -/
def ofSlot (slot : Slot) : Property :=
  match Derived.ofName? slot.label with
  | some property => .derived property
  | none => .slot slot

/-- The property is derived. -/
def isDerived : Property → Bool
  | .derived _ => true
  | .slot _ => false

/-- The names of all properties, in the order of their code points. -/
def names : List String :=
  (((Slot.all.map Slot.label) ++ (Derived.all.map Derived.name)).eraseDups).mergeSort
    fun a b => !(b < a : Bool)

/-- Reads a property of a node. -/
def read : Property → Node α → Except (AccessError α) (Value α)
  | .derived property, node => property.read node
  | .slot s, node => node.slot s

end Property

end RubyTree
