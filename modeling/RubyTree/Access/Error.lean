import RubyTree.Sexp.Printer

/-!
# Refused questions

A question about a node can be refused for a few reasons.  Only the first one is
about the type of the node; the others arise where a question goes on to
something that is not there.

Main results:

- `AccessError` lists the reasons and `AccessError.message` their texts.
- `Signature.refusal` is the reason where the number of arguments does not fit.
- `AccessError.isMissing` tells the reasons that mean that a name is unknown.
-/

namespace RubyTree

variable {α : Type}

/-- Why a question about a node has no answer. -/
inductive AccessError (α : Type) where
  /-- The type of the node does not declare the accessor. -/
  | unsupported (accessor : String) (node : Node α)
  /-- A literal node has no child to give its value. -/
  | emptyLiteral
  /-- No rule gives the name a meaning on a node of the type. -/
  | unknownName (name : String) (type : NodeType)
  /-- The name is reserved. -/
  | reservedName (name : String)
  /-- No child equals the value that was looked for. -/
  | childNotFound
  /-- The arguments do not fit. -/
  | unfitArguments (name : String)
  /-- An argument is missing. -/
  | missingArgument (callee parameter : String)
  /-- There are more arguments than parameters, the node counted among both. -/
  | surplusArguments (callee : String) (taken given : Nat)
  /-- The answer cannot be called. -/
  | notCallable (className : String)

/-- The text of a refusal. -/
def AccessError.message : AccessError α → String
  | .unsupported accessor node => accessor ++ " is not supported for " ++ node.inspect
  | .emptyLiteral => "tuple index out of range"
  | .unknownName name type =>
    "'Node' object has no attribute " ++ Text.quotedString name ++ " for " ++ type.name ++ " node"
  | .reservedName name => name
  | .childNotFound => "tuple.index(x): x not in tuple"
  | .unfitArguments name => name ++ "() got unfit arguments"
  | .missingArgument callee parameter =>
    callee ++ "() missing 1 required positional argument: " ++ Text.quotedString parameter
  | .surplusArguments callee taken given =>
    callee ++ "() takes " ++ toString taken ++ " positional argument" ++
      (if taken = 1 then "" else "s") ++ " but " ++ toString given ++ " were given"
  | .notCallable className => "'" ++ className ++ "' object is not callable"

/-- The refusal means that the name is unknown. -/
def AccessError.isMissing : AccessError α → Bool
  | .unknownName .. => true
  | .reservedName _ => true
  | _ => false

/-! ## Arguments -/

/-- What something that is called takes besides the node. -/
structure Signature where
  /-- Its name in messages. -/
  callee : String
  /-- The name of its parameter, if it has one. -/
  parameter? : Option String

/-- The refusal of a number of arguments. -/
def Signature.refusal (signature : Signature) (given : Nat) : AccessError α :=
  match signature.parameter?, given with
  | some parameter, 0 => .missingArgument signature.callee parameter
  | none, 0 => .unfitArguments signature.callee
  | some _, 1 => .unfitArguments signature.callee
  | some _, _ => .surplusArguments signature.callee 2 (1 + given)
  | none, _ => .surplusArguments signature.callee 1 (1 + given)

/-! ## Names of classes -/

/-- The name of the class of a value in messages. -/
def Value.className : Value α → String
  | .lit .nil => "NoneType"
  | .lit (.bool _) => "bool"
  | .lit (.int _) => "int"
  | .lit (.float _) => "float"
  | .lit (.str _) => "str"
  | .lit (.sym _) => "Symbol"
  | .node _ => "Node"
  | .list _ => "list"

/-- The text of the refusal to order a symbol and a value that is none. -/
def Symbol.unordered (comparison : String) (other : Value α) : String :=
  "'" ++ comparison ++ "' not supported between instances of 'Symbol' and '" ++
    other.className ++ "'"

end RubyTree
