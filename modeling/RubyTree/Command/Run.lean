import RubyTree.Command.Folder
import RubyTree.Command.Request
import RubyTree.Listing
import RubyTree.Sexp.Marked

/-!
# The dump command

The command reads s-expression files and lists the slots of their nodes.  A
malformed file is reported and left out; it makes the command fail in the end,
but not stop.  What is printed or written is encoded, so a surrogate in a listed
string breaks the command off.

Main results:

- `dumpFile` is what becomes of one file.
- `run` is the whole command: on a folder of files and arguments, what is
  printed, logged and written, and the exit code.
-/

namespace RubyTree.Command

/-! ## Outcomes -/

/-- What the command does. -/
structure Outcome where
  /-- The exit code. -/
  exit : Nat
  /-- The text that the command ends with. -/
  exitMessage : Option String
  /-- What is printed. -/
  printed : String
  /-- The entries of the log. -/
  log : List String
  /-- The places of the files that are written, and their texts. -/
  written : List (Path × String)
  /-- The folder that the command leaves. -/
  after : Folder

/-- Why the command breaks off. -/
inductive CommandError where
  /-- A file has a bad escape. -/
  | escape (cause : Sexp.EscapeError)
  /-- A slot of a node cannot be read. -/
  | access (cause : AccessError Unit)
  /-- The listing cannot be encoded. -/
  | unencodable (cause : Text.EncodeError)
  /-- A path cannot be read or written. -/
  | file (cause : FileError)
  /-- The file to be written has no name. -/
  | namelessOutput

/-- The text of the error. -/
def CommandError.message : CommandError → String
  | .escape cause => cause.message
  | .access cause => cause.message
  | .unencodable cause => cause.message
  | .file cause => cause.message
  | .namelessOutput => "'list' object has no attribute 'parent'"

/-- The lines of the log as they are shown, cut where the text of one breaks the line. -/
def Outcome.logLines (outcome : Outcome) : List String :=
  Text.lines (String.join (outcome.log.map (· ++ "\n")))

/-! ## Log lines -/

/-- The line that reports a diagnostic of the reader. -/
def debugLine (d : Diagnostic) : String :=
  "DEBUG:rubyast.sexp.reader:sexp " ++ d.code ++ " at (" ++ toString d.range.start ++ ", " ++
    toString d.range.stop ++ "): " ++ d.message

/-- The line that reports a malformed file. -/
def warningLine (path : Path) (cause : Sexp.ReadError) : String :=
  "WARNING:dump_accessors:" ++ path.display ++ ": " ++ cause.message

/-- The entries of the log for a malformed file; the diagnostics are there only if they are asked
for. -/
def reports (verbose : Bool) (path : Path) (diagnostics : List Diagnostic) : List String :=
  (if verbose then diagnostics.map debugLine else []) ++ [warningLine path (.malformed diagnostics)]

/-! ## Files -/

/-- What becomes of a file: its lines in code points, or the report of a malformed one. -/
inductive FileResult where
  /-- The block of a well-formed file. -/
  | listed (lines : List (List Nat))
  /-- The log lines of a malformed file. -/
  | malformed (log : List String)

/-- The block of lines of a file. -/
def block (path : Path) (root : Node Unit) : Except (AccessError Unit) (List String) :=
  joinLines (.ok ["# " ++ path.display]) (root.listing 0)

/-- The block of lines of a file in code points.  The lines of the marked root tell which code point
stands behind a replacement character in those of the root. -/
def codeBlock (path : Path) (root marked : Node Unit) :
    Except (AccessError Unit) (List (List Nat)) :=
  match block path root, block path marked with
  | .ok lines, .ok markedLines =>
    .ok (List.zipWith (fun line mark => Text.codesOf line.toList mark.toList) lines markedLines)
  | .error cause, _ => .error cause
  | .ok _, .error cause => .error cause

/-- Reads and lists a file.  Every tree that is read has a marked reading, which is there for the
surrogates in the listed strings. -/
def dumpFile (folder : Folder) (verbose : Bool) (path : Path) :
    Except CommandError FileResult :=
  match folder.readText path with
  | .error cause => .error (.file cause)
  | .ok text =>
    match Node.ofText text with
    | .ok root =>
      match codeBlock path root ((Node.markedOfText text).getD root) with
      | .ok lines => .ok (.listed lines)
      | .error cause => .error (.access cause)
    | .error (.escape cause) => .error (.escape cause)
    | .error (.malformed diagnostics) => .ok (.malformed (reports verbose path diagnostics))

/-- Reads and lists files in order, up to the first that breaks the command off. -/
def dumpFiles (folder : Folder) (verbose : Bool) :
    List Path → Except CommandError (List FileResult)
  | [] => .ok []
  | path :: rest =>
    match dumpFile folder verbose path with
    | .error cause => .error cause
    | .ok result =>
      match dumpFiles folder verbose rest with
      | .error cause => .error cause
      | .ok results => .ok (result :: results)

/-- The lines of a well-formed file. -/
def FileResult.lines : FileResult → List (List Nat)
  | .listed lines => lines
  | .malformed _ => []

/-- The log lines of a malformed file. -/
def FileResult.log : FileResult → List String
  | .listed _ => []
  | .malformed log => log

/-- The file is malformed. -/
def FileResult.isMalformed : FileResult → Bool
  | .listed _ => false
  | .malformed _ => true

/-! ## The command -/

/-- The code point of a line break. -/
def lineFeed : Nat := '\n'.toNat

/-- The text of all well-formed files in code points. -/
def listingCodes (results : List FileResult) : List Nat :=
  [lineFeed].intercalate (results.flatMap FileResult.lines) ++ [lineFeed]

/-- The text that says how many files were listed, and where. -/
def writtenNotice (path : Path) (listed : Nat) : String :=
  "Wrote slots for " ++ toString listed ++ " files to " ++ path.display ++ "\n"

/-- The exit code for a number of malformed files. -/
def exitCode (failures : Nat) : Nat :=
  if failures = 0 then 0 else 1

/-- The outcome for the results of the files.  A file to be written is opened, and empty, before the
text is encoded. -/
def conclude (folder : Folder) (output : Output) (results : List FileResult) :
    Except CommandError Outcome :=
  let log := results.flatMap FileResult.log
  let failures := results.countP FileResult.isMalformed
  let exit := exitCode failures
  let encoded := Text.encodeCodes (listingCodes results)
  match output with
  | .printed =>
    match encoded with
    | .error cause => .error (.unencodable cause)
    | .ok text => .ok ⟨exit, none, text, log, [], folder⟩
  | .nameless => .error .namelessOutput
  | .file name =>
    let path := Path.ofText name
    match folder.writeText path (encoded.toOption.getD ""), encoded with
    | .error cause, _ => .error (.file cause)
    | .ok _, .error cause => .error (.unencodable cause)
    | .ok (after, place), .ok text =>
      .ok ⟨exit, none, writtenNotice path (results.length - failures), log, [(place, text)], after⟩

/-- Runs a request. -/
def runRequest (folder : Folder) (request : Request) : Except CommandError Outcome :=
  match folder.collectAll (request.paths.map Path.ofText) with
  | .error cause => .error (.file cause)
  | .ok [] => .ok ⟨1, some "No s-expression files found", "", [], [], folder⟩
  | .ok paths =>
    match dumpFiles folder request.verbose paths with
    | .error cause => .error cause
    | .ok results => conclude folder request.output results

/-- Runs the command.  Arguments that do not fit end it with code 2. -/
def run (folder : Folder) (arguments : List String) : Except CommandError Outcome :=
  match Request.ofArguments? arguments with
  | none => .ok ⟨2, none, "", [], [], folder⟩
  | some request => runRequest folder request

end RubyTree.Command
