import RubyTree.Access.Attribute

/-!
# Functions of nodes

Much of what can be asked of a node can also be asked by a function on nodes: the
derived properties, the slots, the keys and values of a hash, and what names are
resolved to.

Main results:

- `NodeFunction` lists the functions, and `NodeFunction.ofName?` finds one by its name.
- `NodeFunction.run` asks a node.
-/

namespace RubyTree

/-- The functions of a node. -/
inductive NodeFunction where
  /-- A derived property. -/
  | derived (property : Derived)
  /-- A slot by its name. -/
  | slot
  /-- A method that is also a function. -/
  | method (method : Method)
  /-- What a name is resolved to. -/
  | resolve
  /-- A name is resolved to something. -/
  | canResolve
  /-- What a name is resolved to as an attribute. -/
  | dynamicAttribute

namespace NodeFunction

/-- The functions that are asked with a name. -/
def named : List (String × NodeFunction) :=
  [("get_slot", .slot), ("resolve_dynamic", .resolve), ("can_resolve_dynamic", .canResolve),
   ("dynamic_attribute", .dynamicAttribute)]

/-- The function with a name. -/
def ofName? (name : String) : Option NodeFunction :=
  match Derived.ofName? name with
  | some property => some (.derived property)
  | none =>
    match Method.functions.find? (·.name == name) with
    | some called => some (.method called)
    | none => named.lookup name

/-- What a function takes besides the node. -/
def signature : NodeFunction → Signature
  | .derived property => ⟨property.name, none⟩
  | .slot => ⟨"get_slot", some "slot"⟩
  | .method called => called.signature
  | .resolve => ⟨"resolve_dynamic", some "name"⟩
  | .canResolve => ⟨"can_resolve_dynamic", some "name"⟩
  | .dynamicAttribute => ⟨"dynamic_attribute", some "name"⟩

/-- Asks a node of a forest. -/
def run (function : NodeFunction) (forest : Forest) (node : TreeNode) (arguments : List TreeValue) :
    Except QuestionError Answer :=
  match function, arguments with
  | .derived property, [] => (QuestionError.ofAccess (property.read node)).map .value
  | .slot, [.lit (.str name)] => (QuestionError.ofAccess (node.slotNamed name)).map .value
  | .method called, _ =>
    (called.run forest node arguments).map fun (value, _) => .value value
  | .resolve, .lit (.str name) :: rest =>
    (QuestionError.ofAccess (node.resolve name rest)).map .value
  | .canResolve, [.lit (.str name)] =>
    (QuestionError.ofAccess (node.canResolve name)).map fun found => .value (.lit (.bool found))
  | .dynamicAttribute, [.lit (.str name)] =>
    QuestionError.ofAccess (node.dynamicAttribute name)
  | _, _ => .error (.access (function.signature.refusal arguments.length))

end NodeFunction

end RubyTree
