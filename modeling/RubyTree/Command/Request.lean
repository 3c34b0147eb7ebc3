import RubyTree.Text.Digit

/-!
# Command-line arguments

A request names the paths to read in one row, and optionally a file to write to
and whether to report diagnostics.  Options may be shortened as long as only one
option starts that way, and may stand before or behind the paths.

Main results:

- `Request.ofArguments?` reads arguments, and has no answer where they do not
  fit.
-/

namespace RubyTree.Command

/-- The options of the command. -/
inductive Flag where
  /-- Ask for the usage. -/
  | help
  /-- Name the file to write. -/
  | output
  /-- Show no progress. -/
  | noProgress
  /-- Report diagnostics. -/
  | verbose
deriving DecidableEq

namespace Flag

/-- The long form of each option. -/
def longNames : List (String × Flag) :=
  [("--help", .help), ("--output", .output), ("--no-progress", .noProgress),
   ("--verbose", .verbose)]

/-- The options that an argument may mean: the one of that name, or all that start like it. -/
def candidates (argument : String) : List Flag :=
  if argument = "-h" then [.help]
  else
    match longNames.lookup argument with
    | some flag => [flag]
    | none =>
      if ['-', '-'].isPrefixOf argument.toList then
        (longNames.filter fun (name, _) => argument.toList.isPrefixOf name.toList).map (·.2)
      else []

end Flag

/-- What an argument is by itself. -/
inductive Argument where
  /-- A path, or the value of an option. -/
  | plain (text : String)
  /-- The mark behind which everything is plain. -/
  | endOfOptions
  /-- An option, with the value behind its equals sign. -/
  | flag (flag : Flag) (value : Option String)
  /-- No option of the command, or more than one. -/
  | unknown
deriving DecidableEq

namespace Argument

/-- The text ends here, or behind one line feed. -/
def isEnd (text : List Char) : Bool :=
  text = [] || text = ['\n']

/-- The text is written like a negative number. -/
def isNegativeNumber (text : List Char) : Bool :=
  match text with
  | '-' :: rest =>
    let behind := rest.dropWhile Text.isDecimal
    match behind with
    | '.' :: fraction =>
      (fraction.head?.any Text.isDecimal) && isEnd (fraction.dropWhile Text.isDecimal)
    | _ => (rest.head?.any Text.isDecimal) && isEnd behind
  | _ => false

/-- The text before the first equals sign, and the text behind it. -/
def splitValue (text : String) : String × Option String :=
  match text.toList.dropWhile (· ≠ '=') with
  | [] => (text, none)
  | _ :: value => (String.ofList (text.toList.takeWhile (· ≠ '=')), some (String.ofList value))

/-- Reads an argument before the mark that ends the options. -/
def ofText (text : String) : Argument :=
  if text = "--" then .endOfOptions
  else if text.toList.head? ≠ some '-' ∨ text = "-" then .plain text
  else
    let (name, value) := splitValue text
    match Flag.candidates name with
    | [option] => .flag option value
    | [] => if isNegativeNumber text.toList ∨ ' ' ∈ text.toList then .plain text else .unknown
    | _ => .unknown

/-- Reads arguments in order. -/
def ofTexts : List String → List Argument
  | [] => []
  | text :: rest =>
    match ofText text with
    | .endOfOptions => .endOfOptions :: rest.map .plain
    | argument => argument :: ofTexts rest

end Argument

/-- Where the text of the command goes. -/
inductive Output where
  /-- It is printed. -/
  | printed
  /-- It is written to a file. -/
  | file (path : String)
  /-- It is to be written to a file that has no name. -/
  | nameless
deriving DecidableEq

/-- The output that the value behind an equals sign names.  The mark that ends the options is
never a value, so it leaves the file without a name. -/
def Output.ofValue (value : String) : Output :=
  if value = "--" then .nameless else .file value

/-- What the command is asked to do. -/
structure Request where
  /-- The files and directories to read. -/
  paths : List String
  /-- Where the text goes. -/
  output : Output
  /-- Report diagnostics. -/
  verbose : Bool
deriving DecidableEq

namespace Request

/-- Reads the arguments behind those that are part of the request.  The paths stand in one row:
`rowOpen` says that the row has not ended yet. -/
def extend : List Argument → Bool → Request → Option Request
  | [], _, request => some request
  | .plain text :: rest, rowOpen, request =>
    if rowOpen then extend rest true ⟨request.paths ++ [text], request.output, request.verbose⟩
    else none
  | .endOfOptions :: rest, rowOpen, request =>
    if rowOpen then extend rest true request else none
  | .flag .output (some value) :: rest, rowOpen, request =>
    extend rest (rowOpen && request.paths.isEmpty)
      ⟨request.paths, .ofValue value, request.verbose⟩
  | .flag .output none :: .plain value :: rest, rowOpen, request =>
    extend rest (rowOpen && request.paths.isEmpty) ⟨request.paths, .file value, request.verbose⟩
  | .flag .noProgress none :: rest, rowOpen, request =>
    extend rest (rowOpen && request.paths.isEmpty) request
  | .flag .verbose none :: rest, rowOpen, request =>
    extend rest (rowOpen && request.paths.isEmpty) ⟨request.paths, request.output, true⟩
  | _, _, _ => none

/-- The request of a command line; at least one path has to be named. -/
def ofArguments? (arguments : List String) : Option Request :=
  match extend (Argument.ofTexts arguments) true ⟨[], .printed, false⟩ with
  | some request => if request.paths.isEmpty then none else some request
  | none => none

end Request

end RubyTree.Command
