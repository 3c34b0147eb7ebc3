import RubyTree.Proofs.Command.MarkedLines
import RubyTree.Proofs.Command.Writing
import RubyTree.Proofs.Sexp.SecondReading

/-!
# The dump command accounts for every file

Every collected file is either listed or reported, once for each time it is collected and in the
order of collection.  What is listed does not depend on where it goes: a file is written with the
text that would have been printed.

All this holds as long as the text can be encoded.  A string in a well-formed file may name a
surrogate by an escape.  Where it is listed, the command breaks off and nothing is written, although
no file is malformed.

Main results:

- `Folder.dumpFile_eq` is what becomes of one file, and `Folder.dumpFiles_eq` of a row of files.
- `Folder.map_charAt_textCodes`: the characters of the text are the lines of the trees, so
  (`Folder.not_listsSurrogate`) without a replacement character no surrogate is listed.
- `Accounts` is what the command is to do with collected files, and `run_accounts` that it does so
  exactly if no surrogate is listed.
- `not_run_accounts`: a file for which it does not.
-/

namespace RubyTree.Command

open RubyTree.Text

/-! ## Readable files -/

namespace Folder

/-- The tree in a file, if the file is well-formed. -/
def tree? (folder : Folder) (path : Path) : Option (Node Unit) :=
  match folder.readText path with
  | .ok text => (Node.ofText text).toOption
  | .error _ => none

/-- The diagnostics of a file, if the file is malformed. -/
def problems? (folder : Folder) (path : Path) : Option (List Diagnostic) :=
  match folder.readText path with
  | .ok text =>
    match Node.ofText text with
    | .error (.malformed diagnostics) => some diagnostics
    | _ => none
  | .error _ => none

/-- The marked reading of a file, if the file is well-formed. -/
def marked? (folder : Folder) (path : Path) : Option (Node Unit) :=
  match folder.readText path with
  | .ok text => Node.markedOfText text
  | .error _ => none

/-- The file has a text, and reading it ends with a tree or with diagnostics. -/
def IsReadable (folder : Folder) (path : Path) : Prop :=
  (folder.tree? path).isSome = true ∨ (folder.problems? path).isSome = true

/-- The block of lines of a well-formed file. -/
def lines? (folder : Folder) (path : Path) : Option (List String) :=
  (folder.tree? path).bind fun root => (block path root).toOption

/-- The block of lines of a well-formed file, in code points. -/
def codeLines? (folder : Folder) (path : Path) : Option (List (List Nat)) :=
  (folder.tree? path).bind fun root =>
    (codeBlock path root ((folder.marked? path).getD root)).toOption

/-- What becomes of a readable file. -/
def result (folder : Folder) (verbose : Bool) (path : Path) : FileResult :=
  match folder.codeLines? path with
  | some lines => .listed lines
  | none => .malformed (reports verbose path ((folder.problems? path).getD []))

variable {folder : Folder} {path : Path} {paths : List Path} {root : Node Unit}
  {diagnostics : List Diagnostic} {verbose : Bool}

theorem tree?_eq_some_iff :
    folder.tree? path = some root ↔
      ∃ text, folder.readText path = .ok text ∧ Node.ofText text = .ok root := by
  rw [tree?]
  cases folder.readText path with
  | error cause => simp
  | ok text => cases hread : Node.ofText text <;> simp [Except.toOption, hread]

theorem problems?_eq_some_iff :
    folder.problems? path = some diagnostics ↔
      ∃ text, folder.readText path = .ok text ∧
        Node.ofText text = .error (.malformed diagnostics) := by
  rw [problems?]
  cases folder.readText path with
  | error cause => simp
  | ok text =>
    cases hread : Node.ofText text with
    | error cause => cases cause <;> simp [hread]
    | ok root => simp [hread]

/-- A malformed file is not well-formed. -/
theorem tree?_eq_none (h : folder.problems? path = some diagnostics) :
    folder.tree? path = none := by
  rcases problems?_eq_some_iff.1 h with ⟨text, htext, hproblems⟩
  rw [tree?, htext]
  simp [hproblems, Except.toOption]

/-- A well-formed file is not malformed. -/
theorem problems?_eq_none (h : folder.tree? path = some root) : folder.problems? path = none := by
  cases hproblems : folder.problems? path with
  | none => rfl
  | some diagnostics => cases h.symm.trans (tree?_eq_none hproblems)

/-- A readable file is either well-formed or malformed. -/
theorem IsReadable.exclusive (h : folder.IsReadable path) :
    (∃ root, folder.tree? path = some root ∧ folder.problems? path = none) ∨
      ∃ diagnostics, folder.tree? path = none ∧ folder.problems? path = some diagnostics := by
  rcases h with htree | hproblems
  · rcases Option.isSome_iff_exists.1 htree with ⟨root, hroot⟩
    exact .inl ⟨root, hroot, problems?_eq_none hroot⟩
  · rcases Option.isSome_iff_exists.1 hproblems with ⟨diagnostics, hdiagnostics⟩
    exact .inr ⟨diagnostics, tree?_eq_none hdiagnostics, hdiagnostics⟩

theorem IsReadable.isNone_tree? (h : folder.IsReadable path) :
    (folder.tree? path).isNone = (folder.problems? path).isSome := by
  rcases h.exclusive with ⟨root, hroot, hproblems⟩ | ⟨diagnostics, htree, hproblems⟩
  · rw [hroot, hproblems]
    rfl
  · rw [htree, hproblems]
    rfl

/-- A well-formed file has a block of lines, also in code points, and their characters are the
lines. -/
theorem exists_lines (h : folder.tree? path = some root) :
    ∃ lines codes, folder.lines? path = some lines ∧ folder.codeLines? path = some codes ∧
      codes.map (List.map charAt) = lines.map String.toList ∧
      ∀ verbose, dumpFile folder verbose path = .ok (.listed codes) := by
  rcases tree?_eq_some_iff.1 h with ⟨text, htext, hread⟩
  rcases Sexp.exists_markedOfText hread with ⟨marked, hmarked, htwin⟩
  rcases exists_codeBlock path htwin with ⟨lines, codes, hlines, hcodes, hcharacters⟩
  have hreading : folder.marked? path = some marked := by
    rw [marked?, htext]
    exact hmarked
  refine ⟨lines, codes, ?_, ?_, hcharacters, fun verbose => ?_⟩
  · rw [lines?, h, Option.bind_some, hlines]
    rfl
  · rw [codeLines?, h, Option.bind_some, hreading, Option.getD_some, hcodes]
    rfl
  · simp only [dumpFile, htext, hread, hmarked, Option.getD_some, hcodes]

/-- The well-formed files are those that have lines. -/
theorem isSome_lines? : (folder.lines? path).isSome = (folder.tree? path).isSome := by
  cases htree : folder.tree? path with
  | none =>
    rw [lines?, htree]
    rfl
  | some root =>
    rcases exists_lines htree with ⟨lines, -, hlines, -⟩
    rw [hlines]
    rfl

theorem isSome_codeLines? : (folder.codeLines? path).isSome = (folder.tree? path).isSome := by
  cases htree : folder.tree? path with
  | none =>
    rw [codeLines?, htree]
    rfl
  | some root =>
    rcases exists_lines htree with ⟨-, codes, -, hcodes, -⟩
    rw [hcodes]
    rfl

theorem codeLines?_eq_none (h : folder.tree? path = none) : folder.codeLines? path = none := by
  rw [codeLines?, h, Option.bind_none]

/-- Every readable file has a result. -/
theorem dumpFile_eq (h : folder.IsReadable path) :
    dumpFile folder verbose path = .ok (folder.result verbose path) := by
  rcases h.exclusive with ⟨root, hroot, -⟩ | ⟨diagnostics, htree, hproblems⟩
  · rcases exists_lines hroot with ⟨-, codes, -, hcodes, -, hdump⟩
    rw [hdump, result, hcodes]
  · rcases problems?_eq_some_iff.1 hproblems with ⟨text, htext, hread⟩
    rw [dumpFile, htext, result, codeLines?_eq_none htree, hproblems]
    simp [hread]

/-- The results of readable files are those of each of them. -/
theorem dumpFiles_eq (h : ∀ path ∈ paths, folder.IsReadable path) :
    dumpFiles folder verbose paths = .ok (paths.map (folder.result verbose)) := by
  induction paths with
  | nil => rfl
  | cons path rest ih =>
    rcases List.forall_mem_cons.1 h with ⟨hpath, hrest⟩
    rw [dumpFiles, dumpFile_eq hpath, ih hrest]
    rfl

/-! ## Rows of files -/

/-- The blocks of the well-formed ones among files. -/
def blocks (folder : Folder) (paths : List Path) : List (List String) :=
  paths.filterMap folder.lines?

/-- The text that lists the well-formed ones among files.  In a listed string the replacement
character stands for a surrogate. -/
def listing (folder : Folder) (paths : List Path) : String :=
  "\n".intercalate (folder.blocks paths).flatten ++ "\n"

/-- The same text in code points, the surrogates among them. -/
def textCodes (folder : Folder) (paths : List Path) : List Nat :=
  [lineFeed].intercalate (paths.filterMap folder.codeLines?).flatten ++ [lineFeed]

/-- A surrogate stands in the text that lists the files. -/
def ListsSurrogate (folder : Folder) (paths : List Path) : Prop :=
  ∃ code ∈ folder.textCodes paths, isSurrogate code = true

/-- The warnings for the malformed ones among files. -/
def warnings (folder : Folder) (paths : List Path) : List String :=
  paths.filterMap fun path =>
    (folder.problems? path).map fun diagnostics => warningLine path (.malformed diagnostics)

/-- The number of well-formed ones among files. -/
def countListed (folder : Folder) (paths : List Path) : Nat :=
  paths.countP fun path => (folder.tree? path).isSome

/-- There is one block for each well-formed file. -/
theorem length_blocks : (folder.blocks paths).length = folder.countListed paths := by
  rw [blocks, List.length_filterMap_eq_countP, countListed]
  congr 1
  funext path
  exact isSome_lines?

/-- The characters of the text are the lines of the trees. -/
theorem map_charAt_textCodes :
    (folder.textCodes paths).map charAt = (folder.listing paths).toList := by
  apply map_charAt_intercalate
  induction paths with
  | nil => rfl
  | cons path rest ih =>
    rw [blocks, List.filterMap_cons, List.filterMap_cons]
    cases htree : folder.tree? path with
    | none =>
      rw [codeLines?_eq_none htree, lines?, htree]
      exact ih
    | some root =>
      rcases exists_lines htree with ⟨lines, codes, hlines, hcodes, hcharacters, -⟩
      rw [hlines, hcodes]
      simp only [List.flatten_cons, List.map_append, hcharacters]
      exact congrArg _ ih

theorem listingCodes_result :
    listingCodes (paths.map (folder.result verbose)) = folder.textCodes paths := by
  have hlines : (paths.map (folder.result verbose)).flatMap FileResult.lines =
      (paths.filterMap folder.codeLines?).flatten := by
    induction paths with
    | nil => rfl
    | cons path rest ih =>
      rw [List.map_cons, List.flatMap_cons, ih, List.filterMap_cons, result]
      cases folder.codeLines? path <;> rfl
  rw [listingCodes, hlines, textCodes]

/-- Where the replacement character is not listed, neither is a surrogate. -/
theorem not_listsSurrogate (h : '\uFFFD' ∉ (folder.listing paths).toList) :
    ¬ folder.ListsSurrogate paths := by
  rintro ⟨code, hcode, hsurrogate⟩
  rw [← map_charAt_textCodes, ← (charAt_of_isSurrogate hsurrogate).1] at h
  exact h (List.mem_map_of_mem hcode)

/-- A text without surrogates is encoded as the lines of the trees. -/
theorem encodeCodes_textCodes (h : ¬ folder.ListsSurrogate paths) :
    encodeCodes (folder.textCodes paths) = .ok (folder.listing paths) := by
  have hnone : ∀ code ∈ folder.textCodes paths, isSurrogate code = false := by
    intro code hcode
    rw [Bool.eq_false_iff]
    exact fun hsurrogate => h ⟨code, hcode, hsurrogate⟩
  rw [encodeCodes_eq_ok hnone, map_charAt_textCodes, String.ofList_toList]

theorem flatMap_log_result (h : ∀ path ∈ paths, folder.IsReadable path) :
    (paths.map (folder.result false)).flatMap FileResult.log = folder.warnings paths := by
  induction paths with
  | nil => rfl
  | cons path rest ih =>
    rcases List.forall_mem_cons.1 h with ⟨hpath, hrest⟩
    rw [List.map_cons, List.flatMap_cons, ih hrest, warnings, warnings, List.filterMap_cons, result]
    rcases hpath.exclusive with ⟨root, hroot, hproblems⟩ | ⟨diagnostics, htree, hproblems⟩
    · rcases exists_lines hroot with ⟨-, codes, -, hcodes, -⟩
      rw [hcodes, hproblems]
      rfl
    · rw [codeLines?_eq_none htree, hproblems]
      rfl

theorem countP_isMalformed_result :
    (paths.map (folder.result verbose)).countP FileResult.isMalformed =
      paths.countP fun path => (folder.tree? path).isNone := by
  rw [List.countP_map]
  congr 1
  funext path
  rw [Function.comp_apply, result, ← Option.not_isSome, ← isSome_codeLines?]
  cases folder.codeLines? path <;> rfl

/-- The well-formed files are those that are not malformed. -/
theorem length_sub_countP_isMalformed :
    (paths.map (folder.result verbose)).length -
      (paths.map (folder.result verbose)).countP FileResult.isMalformed =
      folder.countListed paths := by
  have hsplit : paths.length =
      folder.countListed paths + paths.countP fun path => (folder.tree? path).isNone := by
    rw [List.length_eq_countP_add_countP fun path => (folder.tree? path).isSome, countListed]
    congr 2
    funext path
    cases folder.tree? path <;> rfl
  rw [countP_isMalformed_result, List.length_map, hsplit, Nat.add_sub_cancel]

end Folder

/-! ## The whole command -/

/-- The text for some files goes where it is to go: it is printed and nothing changes, or it becomes
the text of one file, no other file changes, and the number of well-formed files is printed. -/
def Delivers (folder : Folder) (paths : List Path) (outcome : Outcome) : Output → Prop
  | .printed =>
    outcome.printed = folder.listing paths ∧ outcome.written = [] ∧ outcome.after = folder
  | .file name => ∃ place,
    outcome.written = [(place, folder.listing paths)] ∧
      outcome.after.FileAt (.ofText name) place (folder.listing paths) ∧
      (∀ elsewhere, elsewhere ≠ place →
        outcome.after.file? elsewhere = folder.file? elsewhere) ∧
      outcome.printed = writtenNotice (.ofText name) (folder.countListed paths)
  | .nameless => False

/-- The outcome accounts for each of the collected files. -/
structure Accounts (folder : Folder) (request : Request) (paths : List Path) (outcome : Outcome) :
    Prop where
  /-- There are two exit codes. -/
  exit_le : outcome.exit ≤ 1
  /-- The exit code is one exactly if there is a malformed file. -/
  exit_eq_one_iff : outcome.exit = 1 ↔ ∃ path ∈ paths, (folder.problems? path).isSome = true
  /-- The command ends without a message. -/
  exitMessage : outcome.exitMessage = none
  /-- Where diagnostics are not asked for, the log holds one warning for each malformed file. -/
  log : request.verbose = false → outcome.log = folder.warnings paths
  /-- There is one block for each well-formed file. -/
  length_blocks : (folder.blocks paths).length = folder.countListed paths
  /-- The text of the well-formed files goes where it is to go. -/
  delivers : Delivers folder paths outcome request.output

/-- The command ends as it is to end for the collected files.  Without any file the outcome is a
message, and nothing changes.  Otherwise it accounts for every collected file, and a text that is
written is the one that would have been printed. -/
def AccountsFor (folder : Folder) (request : Request) (paths : List Path)
    (ending : Except CommandError Outcome) : Prop :=
  ∃ outcome, ending = .ok outcome ∧
    (paths = [] → outcome = ⟨1, some "No s-expression files found", "", [], [], folder⟩) ∧
    (paths ≠ [] → Accounts folder request paths outcome ∧
      ∃ plain, runRequest folder ⟨request.paths, .printed, request.verbose⟩ = .ok plain ∧
        plain.printed = folder.listing paths)

/-- The output is printed, or there is a file to write it to. -/
def TakesOutput (folder : Folder) : Output → Prop
  | .printed => True
  | .file name => folder.IsWritable (.ofText name)
  | .nameless => False

/-- The folder has all that the request needs. -/
structure Serves (folder : Folder) (request : Request) : Prop where
  /-- Every path leads to a file or a directory, or to nothing. -/
  paths : ∀ text ∈ request.paths, folder.IsFileOrDirectoryOrMissing (.ofText text)
  /-- No directory has the name of a dump. -/
  namesNoDirectory : folder.NamesNoDirectory
  /-- The output can go where it is to go. -/
  output : TakesOutput folder request.output
  /-- Every file that is collected can be read. -/
  readable : ∀ groups, List.Forall₂ folder.Collects (request.paths.map .ofText) groups →
    ∀ path ∈ groups.flatten, folder.IsReadable path

variable {folder : Folder} {paths : List Path} {request : Request} {outcome : Outcome}

theorem exitCode_le (failures : Nat) : exitCode failures ≤ 1 := by
  unfold exitCode
  split
  · exact Nat.zero_le 1
  · exact Nat.le_refl 1

theorem exitCode_eq_one_iff {failures : Nat} : exitCode failures = 1 ↔ failures ≠ 0 := by
  unfold exitCode
  split
  · next h => simp [h]
  · next h => simp [h]

/-- An outcome that was made from the results of readable files accounts for them, if their text
goes where it is to go. -/
theorem accounts_of_results (hreadable : ∀ path ∈ paths, folder.IsReadable path)
    (hexit : outcome.exit = exitCode
      ((paths.map (folder.result request.verbose)).countP FileResult.isMalformed))
    (hmessage : outcome.exitMessage = none)
    (hlog : outcome.log = (paths.map (folder.result request.verbose)).flatMap FileResult.log)
    (hdelivers : Delivers folder paths outcome request.output) :
    Accounts folder request paths outcome := by
  refine ⟨?_, ?_, hmessage, ?_, Folder.length_blocks, hdelivers⟩
  · rw [hexit]
    exact exitCode_le _
  · rw [hexit, exitCode_eq_one_iff, Folder.countP_isMalformed_result, Ne, List.countP_eq_zero]
    simp only [not_forall, exists_prop, not_not]
    exact exists_congr fun path => and_congr_right fun hpath => by
      rw [(hreadable path hpath).isNone_tree?]
  · intro hverbose
    rw [hlog, hverbose, Folder.flatMap_log_result hreadable]

/-- Without a surrogate in their text, results of readable files are concluded with an outcome that
accounts for the files. -/
theorem exists_conclude (request : Request) (hreadable : ∀ path ∈ paths, folder.IsReadable path)
    (houtput : TakesOutput folder request.output) (hplain : ¬ folder.ListsSurrogate paths) :
    ∃ outcome, conclude folder request.output (paths.map (folder.result request.verbose)) =
      .ok outcome ∧ Accounts folder request paths outcome := by
  let results := paths.map (folder.result request.verbose)
  have hencoded : encodeCodes (listingCodes results) = .ok (folder.listing paths) := by
    rw [Folder.listingCodes_result, Folder.encodeCodes_textCodes hplain]
  cases hdestination : request.output with
  | printed =>
    have hconclude : conclude folder .printed results =
        .ok ⟨exitCode (results.countP FileResult.isMalformed), none, folder.listing paths,
          results.flatMap FileResult.log, [], folder⟩ := by
      simp only [conclude, hencoded]
    refine ⟨_, hconclude, accounts_of_results hreadable rfl rfl rfl ?_⟩
    rw [hdestination]
    exact ⟨rfl, rfl, rfl⟩
  | file name =>
    rw [hdestination] at houtput
    rcases houtput.exists_writeText (folder.listing paths) with
      ⟨after, place, hwritten, hfile, hothers⟩
    have hconclude : conclude folder (.file name) results =
        .ok ⟨exitCode (results.countP FileResult.isMalformed), none,
          writtenNotice (.ofText name) (folder.countListed paths), results.flatMap FileResult.log,
          [(place, folder.listing paths)], after⟩ := by
      simp only [conclude, hencoded, Except.toOption, Option.getD_some, hwritten, results,
        Folder.length_sub_countP_isMalformed]
    refine ⟨_, hconclude, accounts_of_results hreadable rfl rfl rfl ?_⟩
    rw [hdestination]
    exact ⟨place, rfl, hfile, hothers, rfl⟩
  | nameless =>
    rw [hdestination] at houtput
    cases houtput

/-- A text with a surrogate breaks the command off, after a file to be written was opened. -/
theorem conclude_eq_error (request : Request) {cause : EncodeError}
    (houtput : TakesOutput folder request.output)
    (hcause : encodeCodes (folder.textCodes paths) = .error cause) :
    conclude folder request.output (paths.map (folder.result request.verbose)) =
      .error (.unencodable cause) := by
  cases hdestination : request.output with
  | printed => simp only [conclude, Folder.listingCodes_result, hcause]
  | file name =>
    rw [hdestination] at houtput
    rcases houtput.exists_writeText "" with ⟨after, place, hwritten, -⟩
    simp only [conclude, Folder.listingCodes_result, hcause, Except.toOption, Option.getD_none,
      hwritten]
  | nameless =>
    rw [hdestination] at houtput
    cases houtput

/-- A request for which readable files are found comes to what is concluded from their results. -/
theorem runRequest_eq (request : Request)
    (hcollect : folder.collectAll (request.paths.map .ofText) = .ok paths)
    (hne : paths ≠ []) (hreadable : ∀ path ∈ paths, folder.IsReadable path) :
    runRequest folder request =
      conclude folder request.output (paths.map (folder.result request.verbose)) := by
  rw [runRequest, hcollect]
  cases paths with
  | nil => exact absurd rfl hne
  | cons path rest =>
    dsimp only
    rw [Folder.dumpFiles_eq hreadable]

/-- Without a surrogate the command ends as it is to end. -/
theorem accountsFor_runRequest (request : Request)
    (hcollect : folder.collectAll (request.paths.map .ofText) = .ok paths)
    (hreadable : ∀ path ∈ paths, folder.IsReadable path)
    (houtput : TakesOutput folder request.output) (hplain : ¬ folder.ListsSurrogate paths) :
    AccountsFor folder request paths (runRequest folder request) := by
  by_cases hempty : paths = []
  · subst hempty
    refine ⟨_, ?_, fun _ => rfl, fun hne => absurd rfl hne⟩
    rw [runRequest, hcollect]
  · rcases exists_conclude request hreadable houtput hplain with ⟨outcome, hconclude, haccounts⟩
    let printing : Request := ⟨request.paths, .printed, request.verbose⟩
    rcases exists_conclude printing hreadable trivial hplain with ⟨plain, hprint, hprinted⟩
    refine ⟨outcome, ?_, fun h => absurd h hempty, fun _ => ⟨haccounts, plain, ?_, ?_⟩⟩
    · rw [runRequest_eq request hcollect hempty hreadable, hconclude]
    · rw [runRequest_eq printing hcollect hempty hreadable, hprint]
    · exact hprinted.delivers.1

/-- A surrogate breaks the command off at the first run of them. -/
theorem runRequest_eq_error (request : Request)
    (hcollect : folder.collectAll (request.paths.map .ofText) = .ok paths)
    (hreadable : ∀ path ∈ paths, folder.IsReadable path)
    (houtput : TakesOutput folder request.output) (hlists : folder.ListsSurrogate paths) :
    ∃ cause, FirstRun (folder.textCodes paths) cause ∧
      runRequest folder request = .error (.unencodable cause) := by
  have hne : paths ≠ [] := by
    rintro rfl
    rcases hlists with ⟨code, hcode, hsurrogate⟩
    obtain rfl : code = lineFeed := List.mem_singleton.1 hcode
    cases hsurrogate
  rcases exists_firstRun hlists with ⟨cause, hfirst⟩
  refine ⟨cause, hfirst, ?_⟩
  rw [runRequest_eq request hcollect hne hreadable,
    conclude_eq_error request houtput hfirst.encodeCodes_eq]

/-- The command collects what the paths stand for.  Without any file it ends with a message and
changes nothing; otherwise it accounts for every collected file, and a text that is written is the
one that would have been printed.  It does so exactly if no surrogate stands in that text.
Otherwise the command breaks off, with an error that names the first run of them. -/
theorem run_accounts (folder : Folder) (arguments : List String) (request : Request)
    (hrequest : Request.ofArguments? arguments = some request) (hserves : Serves folder request) :
    ∃ groups, List.Forall₂ folder.Collects (request.paths.map .ofText) groups ∧
      (AccountsFor folder request groups.flatten (run folder arguments) ↔
        ¬ folder.ListsSurrogate groups.flatten) ∧
      (folder.ListsSurrogate groups.flatten →
        ∃ cause, FirstRun (folder.textCodes groups.flatten) cause ∧
          run folder arguments = .error (.unencodable cause)) := by
  have hpaths := List.forall_mem_map.2 hserves.paths
  rcases Folder.exists_collectAll hserves.namesNoDirectory hpaths with ⟨groups, hgroups, hcollect⟩
  have hreadable := hserves.readable groups hgroups
  have hrun : run folder arguments = runRequest folder request := by
    rw [run, hrequest]
  have hbreaks := runRequest_eq_error request hcollect hreadable hserves.output
  refine ⟨groups, hgroups, ⟨?_, fun hplain => ?_⟩, fun hlists => ?_⟩
  · rintro ⟨outcome, houtcome, -⟩ hlists
    rcases hbreaks hlists with ⟨cause, -, herror⟩
    cases houtcome.symm.trans (hrun.trans herror)
  · rw [hrun]
    exact accountsFor_runRequest request hcollect hreadable hserves.output hplain
  · rw [hrun]
    exact hbreaks hlists

/-! ### A folder with a malformed file -/

/-- A directory with a well-formed file and a malformed one. -/
def mixedFolder : Folder :=
  ⟨[(⟨.folder, ["d", "b.sexp"]⟩, "("), (⟨.folder, ["d", "a.sexp"]⟩, "(nil)")], []⟩

theorem mixedFolder_fileAt :
    mixedFolder.FileAt (.ofText "d/a.sexp") ⟨.folder, ["d", "a.sexp"]⟩ "(nil)" :=
  ⟨rfl, rfl, rfl⟩

theorem mixedFolder_directoryAt : mixedFolder.DirectoryAt (.ofText "d") ⟨.folder, ["d"]⟩ :=
  ⟨rfl, rfl⟩

theorem mixedFolder_nothingAt : mixedFolder.NothingAt (.ofText "gone") :=
  .inr ⟨⟨.folder, ["gone"]⟩, rfl, rfl, rfl⟩

theorem mixedFolder_tree? :
    mixedFolder.tree? (.ofText "d/a.sexp") = some ⟨(), .known .nil, []⟩ := by
  have hword : ∀ c ∈ ['n', 'i', 'l'], Sexp.isWordChar c = true := List.all_eq_true.1 (by decide)
  have hends : Sexp.EndsWord [')'] := by
    intro c hc
    cases hc
    decide
  have hscan : Sexp.ScansAs "(nil)".toList [.opening, .identifier "nil", .closing] :=
    .opening (.word hword hends (.closing .nil))
  exact Folder.tree?_eq_some_iff.2
    ⟨_, mixedFolder_fileAt.readText, Sexp.ofText_of_scansAs hscan (.node rfl .nil)⟩

theorem exists_problems?_mixedFolder :
    ∃ reports, mixedFolder.problems? (.ofText "d/b.sexp") = some reports := by
  have hfile : mixedFolder.FileAt (.ofText "d/b.sexp") ⟨.folder, ["d", "b.sexp"]⟩ "(" :=
    ⟨rfl, rfl, rfl⟩
  have hscan : Sexp.ScansAs "(".toList [.opening] := .opening .nil
  rcases Sexp.ofText_of_not_wellPlaced hscan id with ⟨reports, hreports, -⟩
  exact ⟨reports, Folder.problems?_eq_some_iff.2 ⟨_, hfile.readText, hreports⟩⟩

theorem mixedFolder_namesNoDirectory : mixedFolder.NamesNoDirectory :=
  Folder.namesNoDirectory_of_parts (by decide) (by decide)

theorem mixedFolder_collects :
    List.Forall₂ mixedFolder.Collects (["d/a.sexp", "gone", "d"].map .ofText)
      [[.ofText "d/a.sexp"], [], [.ofText "d/a.sexp", .ofText "d/b.sexp"]] := by
  refine .cons (.file mixedFolder_fileAt) (.cons (.missing mixedFolder_nothingAt) (.cons ?_ .nil))
  refine .directory mixedFolder_directoryAt (by decide) fun other => ?_
  constructor
  · intro hother
    rcases List.mem_pair.1 hother with rfl | rfl
    · exact ⟨["a.sexp"], by rfl, by decide, by rfl, by rfl⟩
    · exact ⟨["b.sexp"], by rfl, by decide, by rfl, by rfl⟩
  · rintro ⟨parts, rfl, -, -, hfile⟩
    rcases Folder.isSome_file?_iff.1 hfile with ⟨text, hmem⟩
    simp only [mixedFolder, Path.append, List.cons_append, List.nil_append, List.mem_cons,
      Prod.mk.injEq, Path.mk.injEq, List.cons.injEq, true_and, List.not_mem_nil, or_false] at hmem
    rcases hmem with ⟨rfl, -⟩ | ⟨rfl, -⟩
    · decide
    · decide

/-- The well-formed file is named by itself and by its directory, and listed twice; the malformed
one is reported, and the path that leads to nothing is passed over. -/
theorem run_accounts_mixed :
    ∃ outcome place,
      run mixedFolder ["d/a.sexp", "gone", "d", "--output", "out/o"] = .ok outcome ∧
        outcome.exit = 1 ∧ outcome.log.length = 1 ∧
        outcome.written = [(place, "# d/a.sexp\nnil\n# d/a.sexp\nnil\n")] ∧
        outcome.after.FileAt (.ofText "out/o") place "# d/a.sexp\nnil\n# d/a.sexp\nnil\n" ∧
        outcome.printed = "Wrote slots for 2 files to out/o\n" := by
  let found : List Path := [.ofText "d/a.sexp", .ofText "d/a.sexp", .ofText "d/b.sexp"]
  let request : Request := ⟨["d/a.sexp", "gone", "d"], .file "out/o", false⟩
  have hrequest : Request.ofArguments? ["d/a.sexp", "gone", "d", "--output", "out/o"] =
      some request := by decide
  have hpaths : ∀ text ∈ ["d/a.sexp", "gone", "d"],
      mixedFolder.IsFileOrDirectoryOrMissing (.ofText text) := by
    refine List.forall_mem_cons.2 ⟨.inl ⟨_, _, mixedFolder_fileAt⟩, ?_⟩
    refine List.forall_mem_cons.2 ⟨.inr (.inr mixedFolder_nothingAt), ?_⟩
    exact List.forall_mem_singleton.2 (.inr (.inl ⟨_, mixedFolder_directoryAt⟩))
  have hfound : ∀ groups, List.Forall₂ mixedFolder.Collects
      (["d/a.sexp", "gone", "d"].map .ofText) groups → groups.flatten = found := by
    intro groups hgroups
    rw [Folder.forall₂_collects_unique mixedFolder_namesNoDirectory hgroups mixedFolder_collects]
    rfl
  rcases exists_problems?_mixedFolder with ⟨reports, hproblems⟩
  have htree := mixedFolder_tree?
  have hnoTree := Folder.tree?_eq_none hproblems
  have hnoProblems := Folder.problems?_eq_none htree
  have hreadable : ∀ path ∈ found, mixedFolder.IsReadable path := by
    have ha : mixedFolder.IsReadable (.ofText "d/a.sexp") := .inl (by rw [htree]; rfl)
    have hb : mixedFolder.IsReadable (.ofText "d/b.sexp") := .inr (by rw [hproblems]; rfl)
    exact List.forall_mem_cons.2 ⟨ha, List.forall_mem_cons.2 ⟨ha, List.forall_mem_singleton.2 hb⟩⟩
  have hserves : Serves mixedFolder request :=
    ⟨hpaths, mixedFolder_namesNoDirectory, ⟨"", _, rfl⟩,
      fun groups hgroups => hfound groups hgroups ▸ hreadable⟩
  have hlisting : mixedFolder.listing found = "# d/a.sexp\nnil\n# d/a.sexp\nnil\n" := by
    simp only [found, Folder.listing, Folder.blocks, Folder.lines?, List.filterMap_cons,
      List.filterMap_nil, htree, hnoTree, Option.bind_some, Option.bind_none]
    decide +kernel
  have hplain : ¬ mixedFolder.ListsSurrogate found := by
    apply Folder.not_listsSurrogate
    rw [hlisting]
    decide
  rcases run_accounts mixedFolder _ request hrequest hserves with ⟨groups, hgroups, haccounts, -⟩
  rw [hfound groups hgroups] at haccounts
  rcases haccounts.2 hplain with ⟨outcome, hrun, -, houtcome⟩
  rcases houtcome (List.cons_ne_nil _ _) with
    ⟨⟨-, hexit, -, hlog, -, place, hwritten, hat, -, hprinted⟩, -⟩
  have hcount : mixedFolder.countListed found = 2 := by
    simp [found, Folder.countListed, htree, hnoTree]
  have hwarnings : (mixedFolder.warnings found).length = 1 := by
    simp [found, Folder.warnings, hnoProblems, hproblems]
  have hone : outcome.exit = 1 := hexit.2 ⟨.ofText "d/b.sexp", by simp [found], by simp [hproblems]⟩
  rw [hlisting] at hwritten hat
  rw [hcount] at hprinted
  exact ⟨outcome, place, hrun, hone, by rw [hlog rfl, hwarnings], hwritten, hat,
    hprinted.trans (by decide +kernel)⟩

/-! ### A folder with surrogates -/

/-- A folder with a well-formed file, in which two escapes name the surrogates of a pair. -/
def surrogateFolder : Folder :=
  ⟨[(⟨.folder, ["a.sexp"]⟩, "(str \"\\ud83d\\ude00\")")], []⟩

theorem surrogateFolder_fileAt :
    surrogateFolder.FileAt (.ofText "a.sexp") ⟨.folder, ["a.sexp"]⟩ "(str \"\\ud83d\\ude00\")" :=
  ⟨rfl, rfl, rfl⟩

theorem surrogateFolder_tree? :
    surrogateFolder.tree? (.ofText "a.sexp") =
      some ⟨(), .known .str, [.lit (.str (String.ofList [charAt 0xD83D, charAt 0xDE00]))]⟩ := by
  rw [Folder.tree?, surrogateFolder_fileAt.readText]
  with_unfolding_all rfl

theorem surrogateFolder_marked? :
    surrogateFolder.marked? (.ofText "a.sexp") =
      some ⟨(), .known .str,
        [.lit (.str (String.ofList [markedCharAt 0xD83D, markedCharAt 0xDE00]))]⟩ := by
  rw [Folder.marked?, surrogateFolder_fileAt.readText]
  with_unfolding_all rfl

theorem surrogateFolder_namesNoDirectory : surrogateFolder.NamesNoDirectory :=
  Folder.namesNoDirectory_of_parts (by decide) (by decide)

theorem surrogateFolder_collects :
    List.Forall₂ surrogateFolder.Collects (["a.sexp"].map .ofText) [[.ofText "a.sexp"]] :=
  .cons (.file surrogateFolder_fileAt) .nil

/-- The text would have the surrogates between the quotes that show the string. -/
theorem surrogateFolder_listsSurrogate : surrogateFolder.ListsSurrogate [.ofText "a.sexp"] := by
  simp only [Folder.ListsSurrogate, Folder.textCodes, Folder.codeLines?, List.filterMap_cons,
    List.filterMap_nil, surrogateFolder_tree?, surrogateFolder_marked?, Option.bind_some,
    Option.getD_some]
  decide +kernel

/-- The command does not account for every file: where escapes name surrogates, it breaks off
without an outcome, although the file is well-formed. -/
theorem not_run_accounts :
    ¬ ∀ (folder : Folder) (arguments : List String) (request : Request),
      Request.ofArguments? arguments = some request → Serves folder request →
        ∃ groups, List.Forall₂ folder.Collects (request.paths.map .ofText) groups ∧
          AccountsFor folder request groups.flatten (run folder arguments) := by
  intro h
  let request : Request := ⟨["a.sexp"], .file "o", false⟩
  have hrequest : Request.ofArguments? ["a.sexp", "--output", "o"] = some request := by decide
  have hreadable : ∀ path ∈ [Path.ofText "a.sexp"], surrogateFolder.IsReadable path :=
    List.forall_mem_singleton.2 (.inl (by rw [surrogateFolder_tree?]; rfl))
  have hserves : Serves surrogateFolder request := by
    refine ⟨?_, surrogateFolder_namesNoDirectory, ⟨"", _, rfl⟩, fun groups hgroups => ?_⟩
    · exact List.forall_mem_singleton.2 (.inl ⟨_, _, surrogateFolder_fileAt⟩)
    · rw [Folder.forall₂_collects_unique surrogateFolder_namesNoDirectory hgroups
        surrogateFolder_collects]
      exact hreadable
  rcases runRequest_eq_error request rfl hreadable hserves.output
    surrogateFolder_listsSurrogate with ⟨cause, -, herror⟩
  have hrun : run surrogateFolder ["a.sexp", "--output", "o"] = .error (.unencodable cause) := by
    rw [run, hrequest]
    exact herror
  rcases h surrogateFolder _ request hrequest hserves with ⟨groups, -, outcome, houtcome, -⟩
  cases houtcome.symm.trans hrun

end RubyTree.Command
