/-!
# Kinds of Ruby nodes

A kind is a production of the Ruby grammar that nodes of a syntax tree are
tagged with.  Each kind has one printed name.

Main results:

- `Kind.name` and `Kind.ofName?` are inverse to each other (`Kind.ofName?_name`,
  `Kind.name_of_ofName?`), so names are distinct (`Kind.name_injective`).
- `Kind.all` lists every kind once, in order of declaration.
-/

namespace RubyTree

/-- The known kinds of nodes. -/
inductive Kind where
  /-- Nodes named `alias`. -/
  | alias
  /-- Nodes named `and`. -/
  | and
  /-- Nodes named `and_asgn`. -/
  | andAsgn
  /-- Nodes named `arg`. -/
  | arg
  /-- Nodes named `args`. -/
  | args
  /-- Nodes named `array`. -/
  | array
  /-- Nodes named `array_pattern`. -/
  | arrayPattern
  /-- Nodes named `array_pattern_with_tail`. -/
  | arrayPatternWithTail
  /-- Nodes named `back_ref`. -/
  | backRef
  /-- Nodes named `begin`. -/
  | begin
  /-- Nodes named `block`. -/
  | block
  /-- Nodes named `blockarg`. -/
  | blockarg
  /-- Nodes named `block_pass`. -/
  | blockPass
  /-- Nodes named `break`. -/
  | break
  /-- Nodes named `case`. -/
  | case
  /-- Nodes named `case_match`. -/
  | caseMatch
  /-- Nodes named `casgn`. -/
  | casgn
  /-- Nodes named `cbase`. -/
  | cbase
  /-- Nodes named `complex`. -/
  | complex
  /-- Nodes named `const`. -/
  | const
  /-- Nodes named `class`. -/
  | classDefn
  /-- Nodes named `csend`. -/
  | csend
  /-- Nodes named `cvasgn`. -/
  | cvasgn
  /-- Nodes named `cvar`. -/
  | cvar
  /-- Nodes named `def`. -/
  | defn
  /-- Nodes named `defined?`. -/
  | defined
  /-- Nodes named `defs`. -/
  | defs
  /-- Nodes named `dstr`. -/
  | dstr
  /-- Nodes named `dsym`. -/
  | dsym
  /-- Nodes named `eflipflop`. -/
  | eflipflop
  /-- Nodes named `ensure`. -/
  | ensure
  /-- Nodes named `erange`. -/
  | erange
  /-- Nodes named `false`. -/
  | false
  /-- Nodes named `find_pattern`. -/
  | findPattern
  /-- Nodes named `float`. -/
  | float
  /-- Nodes named `for`. -/
  | for
  /-- Nodes named `forward_args`. -/
  | forwardArgs
  /-- Nodes named `gvar`. -/
  | gvar
  /-- Nodes named `gvasgn`. -/
  | gvasgn
  /-- Nodes named `hash`. -/
  | hash
  /-- Nodes named `hash_pattern`. -/
  | hashPattern
  /-- Nodes named `if`. -/
  | if
  /-- Nodes named `iflipflop`. -/
  | iflipflop
  /-- Nodes named `if_guard`. -/
  | ifGuard
  /-- Nodes named `int`. -/
  | int
  /-- Nodes named `in_pattern`. -/
  | inPattern
  /-- Nodes named `irange`. -/
  | irange
  /-- Nodes named `ivasgn`. -/
  | ivasgn
  /-- Nodes named `ivar`. -/
  | ivar
  /-- Nodes named `kwarg`. -/
  | kwarg
  /-- Nodes named `kwbegin`. -/
  | kwbegin
  /-- Nodes named `kwbody`. -/
  | kwbody
  /-- Nodes named `kwnilarg`. -/
  | kwnilarg
  /-- Nodes named `kwoptarg`. -/
  | kwoptarg
  /-- Nodes named `kwrestarg`. -/
  | kwrestarg
  /-- Nodes named `kwsplat`. -/
  | kwsplat
  /-- Nodes named `lvar`. -/
  | lvar
  /-- Nodes named `lvasgn`. -/
  | lvasgn
  /-- Nodes named `masgn`. -/
  | masgn
  /-- Nodes named `match_as`. -/
  | matchAs
  /-- Nodes named `match_nil_pattern`. -/
  | matchNilPattern
  /-- Nodes named `match_pattern`. -/
  | matchPattern
  /-- Nodes named `match_pattern_p`. -/
  | matchPatternP
  /-- Nodes named `match_rest`. -/
  | matchRest
  /-- Nodes named `match_var`. -/
  | matchVar
  /-- Nodes named `match_with_lvasgn`. -/
  | matchWithLvasgn
  /-- Nodes named `mlhs`. -/
  | mlhs
  /-- Nodes named `module`. -/
  | moduleDefn
  /-- Nodes named `next`. -/
  | next
  /-- Nodes named `nil`. -/
  | nil
  /-- Nodes named `nth_ref`. -/
  | nthRef
  /-- Nodes named `numblock`. -/
  | numblock
  /-- Nodes named `optarg`. -/
  | optarg
  /-- Nodes named `op_asgn`. -/
  | opAsgn
  /-- Nodes named `or`. -/
  | or
  /-- Nodes named `or_asgn`. -/
  | orAsgn
  /-- Nodes named `pair`. -/
  | pair
  /-- Nodes named `pin`. -/
  | pin
  /-- Nodes named `postexe`. -/
  | postexe
  /-- Nodes named `preexe`. -/
  | preexe
  /-- Nodes named `rational`. -/
  | rational
  /-- Nodes named `redo`. -/
  | redo
  /-- Nodes named `regexp`. -/
  | regexp
  /-- Nodes named `regopt`. -/
  | regopt
  /-- Nodes named `resbody`. -/
  | resbody
  /-- Nodes named `rescue`. -/
  | rescue
  /-- Nodes named `restarg`. -/
  | restarg
  /-- Nodes named `retry`. -/
  | retry
  /-- Nodes named `return`. -/
  | return
  /-- Nodes named `sclass`. -/
  | sclass
  /-- Nodes named `self`. -/
  | self
  /-- Nodes named `shadowarg`. -/
  | shadowarg
  /-- Nodes named `send`. -/
  | send
  /-- Nodes named `splat`. -/
  | splat
  /-- Nodes named `str`. -/
  | str
  /-- Nodes named `super`. -/
  | super
  /-- Nodes named `sym`. -/
  | sym
  /-- Nodes named `true`. -/
  | true
  /-- Nodes named `undef`. -/
  | undef
  /-- Nodes named `unless_guard`. -/
  | unlessGuard
  /-- Nodes named `until`. -/
  | until
  /-- Nodes named `until_post`. -/
  | untilPost
  /-- Nodes named `when`. -/
  | when
  /-- Nodes named `while`. -/
  | while
  /-- Nodes named `while_post`. -/
  | whilePost
  /-- Nodes named `xstr`. -/
  | xstr
  /-- Nodes named `yield`. -/
  | yield
  /-- Nodes named `zsuper`. -/
  | zsuper
deriving DecidableEq

namespace Kind

/-! ## Names -/

/-- The printed name of a kind. -/
def name : Kind → String
  | .alias => "alias"
  | .and => "and"
  | .andAsgn => "and_asgn"
  | .arg => "arg"
  | .args => "args"
  | .array => "array"
  | .arrayPattern => "array_pattern"
  | .arrayPatternWithTail => "array_pattern_with_tail"
  | .backRef => "back_ref"
  | .begin => "begin"
  | .block => "block"
  | .blockarg => "blockarg"
  | .blockPass => "block_pass"
  | .break => "break"
  | .case => "case"
  | .caseMatch => "case_match"
  | .casgn => "casgn"
  | .cbase => "cbase"
  | .complex => "complex"
  | .const => "const"
  | .classDefn => "class"
  | .csend => "csend"
  | .cvasgn => "cvasgn"
  | .cvar => "cvar"
  | .defn => "def"
  | .defined => "defined?"
  | .defs => "defs"
  | .dstr => "dstr"
  | .dsym => "dsym"
  | .eflipflop => "eflipflop"
  | .ensure => "ensure"
  | .erange => "erange"
  | .false => "false"
  | .findPattern => "find_pattern"
  | .float => "float"
  | .for => "for"
  | .forwardArgs => "forward_args"
  | .gvar => "gvar"
  | .gvasgn => "gvasgn"
  | .hash => "hash"
  | .hashPattern => "hash_pattern"
  | .if => "if"
  | .iflipflop => "iflipflop"
  | .ifGuard => "if_guard"
  | .int => "int"
  | .inPattern => "in_pattern"
  | .irange => "irange"
  | .ivasgn => "ivasgn"
  | .ivar => "ivar"
  | .kwarg => "kwarg"
  | .kwbegin => "kwbegin"
  | .kwbody => "kwbody"
  | .kwnilarg => "kwnilarg"
  | .kwoptarg => "kwoptarg"
  | .kwrestarg => "kwrestarg"
  | .kwsplat => "kwsplat"
  | .lvar => "lvar"
  | .lvasgn => "lvasgn"
  | .masgn => "masgn"
  | .matchAs => "match_as"
  | .matchNilPattern => "match_nil_pattern"
  | .matchPattern => "match_pattern"
  | .matchPatternP => "match_pattern_p"
  | .matchRest => "match_rest"
  | .matchVar => "match_var"
  | .matchWithLvasgn => "match_with_lvasgn"
  | .mlhs => "mlhs"
  | .moduleDefn => "module"
  | .next => "next"
  | .nil => "nil"
  | .nthRef => "nth_ref"
  | .numblock => "numblock"
  | .optarg => "optarg"
  | .opAsgn => "op_asgn"
  | .or => "or"
  | .orAsgn => "or_asgn"
  | .pair => "pair"
  | .pin => "pin"
  | .postexe => "postexe"
  | .preexe => "preexe"
  | .rational => "rational"
  | .redo => "redo"
  | .regexp => "regexp"
  | .regopt => "regopt"
  | .resbody => "resbody"
  | .rescue => "rescue"
  | .restarg => "restarg"
  | .retry => "retry"
  | .return => "return"
  | .sclass => "sclass"
  | .self => "self"
  | .shadowarg => "shadowarg"
  | .send => "send"
  | .splat => "splat"
  | .str => "str"
  | .super => "super"
  | .sym => "sym"
  | .true => "true"
  | .undef => "undef"
  | .unlessGuard => "unless_guard"
  | .until => "until"
  | .untilPost => "until_post"
  | .when => "when"
  | .while => "while"
  | .whilePost => "while_post"
  | .xstr => "xstr"
  | .yield => "yield"
  | .zsuper => "zsuper"

/-- Every kind, in order of declaration. -/
def all : List Kind :=
  [.alias, .and, .andAsgn, .arg, .args, .array, .arrayPattern, .arrayPatternWithTail, .backRef,
   .begin, .block, .blockarg, .blockPass, .break, .case, .caseMatch, .casgn, .cbase, .complex,
   .const, .classDefn, .csend, .cvasgn, .cvar, .defn, .defined, .defs, .dstr, .dsym, .eflipflop,
   .ensure, .erange, .false, .findPattern, .float, .for, .forwardArgs, .gvar, .gvasgn, .hash,
   .hashPattern, .if, .iflipflop, .ifGuard, .int, .inPattern, .irange, .ivasgn, .ivar, .kwarg,
   .kwbegin, .kwbody, .kwnilarg, .kwoptarg, .kwrestarg, .kwsplat, .lvar, .lvasgn, .masgn, .matchAs,
   .matchNilPattern, .matchPattern, .matchPatternP, .matchRest, .matchVar, .matchWithLvasgn, .mlhs,
   .moduleDefn, .next, .nil, .nthRef, .numblock, .optarg, .opAsgn, .or, .orAsgn, .pair, .pin,
   .postexe, .preexe, .rational, .redo, .regexp, .regopt, .resbody, .rescue, .restarg, .retry,
   .return, .sclass, .self, .shadowarg, .send, .splat, .str, .super, .sym, .true, .undef,
   .unlessGuard, .until, .untilPost, .when, .while, .whilePost, .xstr, .yield, .zsuper]

/-- The kind with a printed name. -/
def ofName? (name : String) : Option Kind :=
  all.find? (·.name == name)

/-! ## Names and kinds determine each other -/

/-- Every kind is listed. -/
theorem mem_all (kind : Kind) : kind ∈ all := by
  cases kind <;> decide +kernel

/-- Every kind is found by its name. -/
theorem ofName?_name (kind : Kind) : ofName? kind.name = some kind :=
  (by decide +kernel : ∀ kind ∈ all, ofName? kind.name = some kind) kind (mem_all kind)

/-- A kind that is found by a name has that name. -/
theorem name_of_ofName? {name : String} {kind : Kind} (h : ofName? name = some kind) :
    kind.name = name := by
  simpa using List.find?_some h

/-- Kinds with the same name are the same. -/
theorem name_injective {a b : Kind} (h : a.name = b.name) : a = b := by
  have ha := ofName?_name a
  rw [h, ofName?_name b] at ha
  exact (Option.some.inj ha).symm

end Kind

end RubyTree
