import RubyTree.Schema.Kind

/-!
# Slots

A slot is a named position among the children of a node.  Each kind declares
its slots in the order of its children; the last ones may be missing.

Main results:

- `Kind.slots` is the declaration and `Kind.slotIndex?` the position of a slot.
- `Slot.all` lists every slot in the order in which the kinds first declare it
  (`Slot.all_eq_eraseDups`).
- `Slot.label` and `Slot.ofLabel?` are inverse to each other.
-/

namespace RubyTree

/-- The named positions of children. -/
inductive Slot where
  /-- The name an alias introduces. -/
  | newName
  /-- The name an alias refers to. -/
  | oldName
  /-- The left operand. -/
  | leftValue
  /-- The right operand. -/
  | rightValue
  /-- The variable that is assigned. -/
  | variable
  /-- The value. -/
  | value
  /-- The name. -/
  | name
  /-- The elements. -/
  | elements
  /-- The statements of a body. -/
  | body
  /-- The call that takes a block. -/
  | caller
  /-- The arguments of a call or the parameters of a definition. -/
  | arguments
  /-- The expression that a construct is about. -/
  | expression
  /-- The branches of a case. -/
  | whenStatements
  /-- The last branch. -/
  | elseStatement
  /-- The branches of a pattern match. -/
  | inStatements
  /-- The constant that scopes a constant. -/
  | parentConst
  /-- The superclass. -/
  | parentClass
  /-- The receiver of a call. -/
  | receiver
  /-- The name of a called method. -/
  | message
  /-- The object of a singleton method. -/
  | self
  /-- The lower end. -/
  | begin
  /-- The upper end. -/
  | end
  /-- The statements of an ensure clause. -/
  | ensureBody
  /-- The pairs of a hash. -/
  | pairs
  /-- The double splats of a hash. -/
  | kwsplats
  /-- The branch of a true condition. -/
  | ifStatement
  /-- The guard of a pattern. -/
  | guard
  /-- The key of a pair. -/
  | key
  /-- The number of numbered parameters. -/
  | argumentsCount
  /-- The operator of an assignment. -/
  | operator
  /-- The options of a regular expression. -/
  | options
  /-- The exception classes of a rescue clause. -/
  | exceptions
  /-- The rescue clauses. -/
  | rescueBodies
deriving DecidableEq

namespace Slot

/-! ## Labels -/

/-- The name of a slot. -/
def label : Slot → String
  | .newName => "new_name"
  | .oldName => "old_name"
  | .leftValue => "left_value"
  | .rightValue => "right_value"
  | .variable => "variable"
  | .value => "value"
  | .name => "name"
  | .elements => "elements"
  | .body => "body"
  | .caller => "caller"
  | .arguments => "arguments"
  | .expression => "expression"
  | .whenStatements => "when_statements"
  | .elseStatement => "else_statement"
  | .inStatements => "in_statements"
  | .parentConst => "parent_const"
  | .parentClass => "parent_class"
  | .receiver => "receiver"
  | .message => "message"
  | .self => "self"
  | .begin => "begin"
  | .end => "end"
  | .ensureBody => "ensure_body"
  | .pairs => "pairs"
  | .kwsplats => "kwsplats"
  | .ifStatement => "if_statement"
  | .guard => "guard"
  | .key => "key"
  | .argumentsCount => "arguments_count"
  | .operator => "operator"
  | .options => "options"
  | .exceptions => "exceptions"
  | .rescueBodies => "rescue_bodies"

/-- Every slot, in the order in which the kinds first declare it. -/
def all : List Slot :=
  [.newName, .oldName, .leftValue, .rightValue, .variable, .value, .name, .elements, .body,
   .caller, .arguments, .expression, .whenStatements, .elseStatement, .inStatements, .parentConst,
   .parentClass, .receiver, .message, .self, .begin, .end, .ensureBody, .pairs, .kwsplats,
   .ifStatement, .guard, .key, .argumentsCount, .operator, .options, .exceptions, .rescueBodies]

/-- The slot with a name. -/
def ofLabel? (label : String) : Option Slot :=
  all.find? (·.label == label)

/-- Every slot is listed. -/
theorem mem_all (slot : Slot) : slot ∈ all := by
  cases slot <;> decide

/-- Every slot is found by its name. -/
theorem ofLabel?_label (slot : Slot) : ofLabel? slot.label = some slot :=
  (by decide +kernel : ∀ slot ∈ all, ofLabel? slot.label = some slot) slot (mem_all slot)

/-- A slot that is found by a name has that name. -/
theorem label_of_ofLabel? {label : String} {slot : Slot} (h : ofLabel? label = some slot) :
    slot.label = label := by
  simpa using List.find?_some h

/-- Slots with the same name are the same. -/
theorem label_injective {a b : Slot} (h : a.label = b.label) : a = b := by
  have ha := ofLabel?_label a
  rw [h, ofLabel?_label b] at ha
  exact (Option.some.inj ha).symm

end Slot

namespace Kind

/-! ## Declared slots -/

/-- The slots of a kind, in the order of the children. -/
def slots : Kind → List Slot
  | .alias => [.newName, .oldName]
  | .and => [.leftValue, .rightValue]
  | .andAsgn => [.variable, .value]
  | .arg => [.name]
  | .args => []
  | .array => [.elements]
  | .arrayPattern => [.elements]
  | .arrayPatternWithTail => [.elements]
  | .backRef => [.name]
  | .begin => [.body]
  | .block => [.caller, .arguments, .body]
  | .blockarg => [.name]
  | .blockPass => [.name]
  | .break => [.expression]
  | .case => [.expression, .whenStatements, .elseStatement]
  | .caseMatch => [.expression, .inStatements, .elseStatement]
  | .casgn => [.parentConst, .name, .value]
  | .cbase => []
  | .complex => [.value]
  | .const => [.parentConst, .name]
  | .classDefn => [.name, .parentClass, .body]
  | .csend => [.receiver, .message, .arguments]
  | .cvasgn => [.variable, .value]
  | .cvar => [.name]
  | .defn => [.name, .arguments, .body]
  | .defined => [.arguments]
  | .defs => [.self, .name, .arguments, .body]
  | .dstr => [.elements]
  | .dsym => [.elements]
  | .eflipflop => [.begin, .end]
  | .ensure => [.body, .ensureBody]
  | .erange => [.begin, .end]
  | .false => []
  | .findPattern => [.elements]
  | .float => [.value]
  | .for => [.variable, .expression, .body]
  | .forwardArgs => []
  | .gvar => [.name]
  | .gvasgn => [.variable, .value]
  | .hash => [.pairs, .kwsplats]
  | .hashPattern => [.pairs, .kwsplats]
  | .if => [.expression, .ifStatement, .elseStatement]
  | .iflipflop => [.begin, .end]
  | .ifGuard => [.expression]
  | .int => [.value]
  | .inPattern => [.expression, .guard, .body]
  | .irange => [.begin, .end]
  | .ivasgn => [.variable, .value]
  | .ivar => [.name]
  | .kwarg => [.name]
  | .kwbegin => [.body]
  | .kwbody => [.body]
  | .kwnilarg => []
  | .kwoptarg => [.name, .value]
  | .kwrestarg => [.name]
  | .kwsplat => [.name]
  | .lvar => [.name]
  | .lvasgn => [.variable, .value]
  | .masgn => [.variable, .value]
  | .matchAs => [.key, .value]
  | .matchNilPattern => []
  | .matchPattern => [.leftValue, .rightValue]
  | .matchPatternP => [.leftValue, .rightValue]
  | .matchRest => [.variable]
  | .matchVar => [.name]
  | .matchWithLvasgn => [.leftValue, .rightValue]
  | .mlhs => [.elements]
  | .moduleDefn => [.name, .body]
  | .next => [.expression]
  | .nil => []
  | .nthRef => [.name]
  | .numblock => [.caller, .argumentsCount, .body]
  | .optarg => [.name, .value]
  | .opAsgn => [.variable, .operator, .value]
  | .or => [.leftValue, .rightValue]
  | .orAsgn => [.variable, .value]
  | .pair => [.key, .value]
  | .pin => [.expression]
  | .postexe => [.body]
  | .preexe => [.body]
  | .rational => [.value]
  | .redo => []
  | .regexp => [.elements, .options]
  | .regopt => [.elements]
  | .resbody => [.exceptions, .variable, .body]
  | .rescue => [.body, .rescueBodies, .elseStatement]
  | .restarg => [.name]
  | .retry => []
  | .return => [.expression]
  | .sclass => [.name, .body]
  | .self => []
  | .shadowarg => [.name]
  | .send => [.receiver, .message, .arguments]
  | .splat => [.name]
  | .str => [.value]
  | .super => [.arguments]
  | .sym => [.value]
  | .true => []
  | .undef => [.elements]
  | .unlessGuard => [.expression]
  | .until => [.expression, .body]
  | .untilPost => [.expression, .body]
  | .when => [.expression, .body]
  | .while => [.expression, .body]
  | .whilePost => [.expression, .body]
  | .xstr => [.elements]
  | .yield => [.arguments]
  | .zsuper => []

/-- The position of a slot among the children of a kind. -/
def slotIndex? (kind : Kind) (slot : Slot) : Option Nat :=
  kind.slots.idxOf? slot

end Kind

/-- The slots are listed in the order in which the kinds first declare them. -/
theorem Slot.all_eq_eraseDups : Slot.all = (Kind.all.flatMap Kind.slots).eraseDups := by
  decide +kernel

end RubyTree
