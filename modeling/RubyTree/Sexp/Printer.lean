import RubyTree.Sexp.Spelling
import RubyTree.Text.Quoted
import RubyTree.Tree.Node

/-!
# Printing node trees

A node is printed as its type and its children between parentheses.  Literals
follow on the same line, and every child node starts a line of its own, indented
by its depth.  There are two styles that differ in the texts between the parts.

Main results:

- `Style` holds those texts and `Options` the choices of a caller.
- `Node.render` prints a tree at a depth; `Node.print` starts at depth zero.
- `Node.inspect` is the form in which messages show a node.
-/

namespace RubyTree.Sexp

/-! ## Styles and options -/

/-- The two printed forms. -/
inductive Style where
  /-- Type and children between parentheses. -/
  | sexp
  /-- Calls of a constructor with commas between the arguments. -/
  | inspect
deriving DecidableEq

namespace Style

/-- The name of a style. -/
def name : Style → String
  | .sexp => "sexp"
  | .inspect => "inspect"

/-- The style with a name. -/
def ofName? (name : String) : Option Style :=
  [.sexp, .inspect].find? (·.name == name)

/-- The text of the refusal of a name. -/
def unknown (name : String) : String :=
  Text.quotedString name ++ " is not a valid SexpStyle"

/-- What stands before the type of a node. -/
def opening : Style → List Char
  | .sexp => ['(']
  | .inspect => ['s', '(', ':']

/-- What stands before a child on the same line. -/
def separator : Style → List Char
  | .sexp => [' ']
  | .inspect => [',', ' ']

/-- What stands before the line of a child node. -/
def lineBreak : Style → List Char
  | .sexp => ['\n']
  | .inspect => [',', '\n']

end Style

/-- How a tree is printed. -/
structure Options where
  /-- The printed form. -/
  style : Style
  /-- The number of spaces for each level; below zero there are none. -/
  indent : Int
  /-- Underscores in types are printed as dashes. -/
  dasherize : Bool
deriving DecidableEq

namespace Options

/-- Two spaces and dashes. -/
def standard : Options :=
  ⟨.sexp, 2, true⟩

/-- The usual options of a style: inspected types keep their underscores. -/
def ofStyle : Style → Options
  | .sexp => standard
  | .inspect => ⟨.inspect, 2, false⟩

/-- The printed name of a type. -/
def typeName (options : Options) (type : NodeType) : List Char :=
  if options.dasherize then type.name.toList.map fun c => if c = '_' then '-' else c
  else type.name.toList

/-- The spaces before a node at a depth. -/
def margin (options : Options) (depth : Nat) : List Char :=
  List.replicate (options.indent * depth).toNat ' '

end Options

end RubyTree.Sexp

namespace RubyTree

open RubyTree.Sexp

variable {α : Type}

/-- A literal as it stands in a list. -/
def Literal.listed : Literal → List Char
  | .nil => ['N', 'o', 'n', 'e']
  | .bool true => ['T', 'r', 'u', 'e']
  | .bool false => ['F', 'a', 'l', 's', 'e']
  | .int value => intSpelling value
  | .float value => value.display
  | .str value => Text.quoted value.toList
  | .sym value => ':' :: value.name.toList

/-! ## Trees -/

mutual

/-- A node at a depth. -/
def Node.render (options : Options) (depth : Nat) : Node α → List Char
  | ⟨_, type, children⟩ =>
    options.margin depth ++ options.style.opening ++ options.typeName type ++
      Value.renderAll options (depth + 1) children ++ [')']

/-- The children of a node, each behind its separator. -/
def Value.renderAll (options : Options) (depth : Nat) : List (Value α) → List Char
  | [] => []
  | .lit literal :: rest =>
    options.style.separator ++ literal.spelling ++ Value.renderAll options depth rest
  | .node node :: rest =>
    options.style.lineBreak ++ node.render options depth ++ Value.renderAll options depth rest
  | .list items :: rest =>
    options.style.separator ++ '[' :: Value.listedAll items ++ ']' ::
      Value.renderAll options depth rest

/-- A value as it stands in a list. -/
def Value.listed : Value α → List Char
  | .lit literal => literal.listed
  | .node node => node.render (.ofStyle .inspect) 0
  | .list items => '[' :: Value.listedAll items ++ [']']

/-- The values of a list, with commas between them. -/
def Value.listedAll : List (Value α) → List Char
  | [] => []
  | [item] => item.listed
  | item :: next :: rest => item.listed ++ ',' :: ' ' :: Value.listedAll (next :: rest)

end

/-- The printed form of a tree. -/
def Node.print (options : Options) (node : Node α) : String :=
  String.ofList (node.render options 0)

/-- The form of a tree in messages. -/
def Node.inspect (node : Node α) : String :=
  node.print (.ofStyle .inspect)

/-- The spelling of a value: literals as Ruby inspects them, nodes inspected, and lists between
brackets. -/
def Value.spelling : Value α → List Char
  | .lit literal => literal.spelling
  | value => value.listed

end RubyTree
