import RubyTree.Command.Path
import RubyTree.Text.Lines
import RubyTree.Text.Quoted

/-!
# Folders of files

A folder holds text files at places, and the directories that these places pass
through.  A path is followed part by part: each part but the last has to be a
directory, also one that the next part leaves backwards.

Main results:

- `Folder.locate` follows a path to a place, and `FileError` says why it cannot.
- `Folder.collect` finds the files that a path stands for: the file itself, or
  all files below a directory whose names end in `.sexp`, in order.
- `Folder.readText` reads a file, and `Folder.writeText` writes one below
  directories that are made where they are missing.
-/

namespace RubyTree.Command

/-! ## Refused paths -/

/-- What is the matter with a path. -/
inductive FileFault where
  /-- A directory on the way, or the file, is not there. -/
  | notFound
  /-- A file stands where a directory is to be. -/
  | alreadyExists
  /-- A part on the way is a file. -/
  | notDirectory
  /-- A directory stands where a file is to be. -/
  | isDirectory
  /-- A part, or the whole path, is too long. -/
  | nameTooLong
  /-- The path holds the null character. -/
  | nullCharacter
deriving DecidableEq

/-- A path that was refused. -/
structure FileError where
  /-- What is the matter. -/
  fault : FileFault
  /-- The path. -/
  path : Path

/-- The number and the text of a fault, where it has a number. -/
def FileFault.description? : FileFault → Option (Nat × String)
  | .notFound => some (2, "No such file or directory")
  | .alreadyExists => some (17, "File exists")
  | .notDirectory => some (20, "Not a directory")
  | .isDirectory => some (21, "Is a directory")
  | .nameTooLong => some (36, "File name too long")
  | .nullCharacter => none

/-- The text of the refusal. -/
def FileError.message (cause : FileError) : String :=
  match cause.fault.description? with
  | some (number, text) =>
    "[Errno " ++ toString number ++ "] " ++ text ++ ": " ++ Text.quotedString cause.path.display
  | none => "embedded null byte"

/-- The path leads nowhere, so that no file can be found there. -/
def FileFault.isMissing : FileFault → Bool
  | .notFound => true
  | .notDirectory => true
  | .nullCharacter => true
  | _ => false

/-! ## Folders -/

/-- The text files that can be found, and the directories on the way to them.  Relative paths
start at the folder. -/
structure Folder where
  /-- The place of each file, and its text. -/
  files : List (Path × String)
  /-- Directories that may hold no file. -/
  directories : List Path

namespace Folder

/-- The text of the file at a place. -/
def file? (folder : Folder) (place : Path) : Option String :=
  folder.files.lookup place

/-- The place is a directory: where paths start, above that, a listed one, or above a file. -/
def isDirectory (folder : Folder) (place : Path) : Bool :=
  place.parts.all (· = "..") || folder.directories.contains place ||
    folder.files.any fun (path, _) => place.isAbove path

/-! ## Following paths -/

/-- The most bytes of one part of a path. -/
def maxPartBytes : Nat := 255

/-- The most bytes of a path. -/
def maxPathBytes : Nat := 4095

/-- One step from a directory: back from it, or to the part below it.  At the top of all files
there is no way back, and the way back from the folder is kept. -/
def step (place : Path) (part : String) : Path :=
  if part ≠ ".." then place.append [part]
  else if place.parts = [] ∨ place.parts.getLast? = some ".." then
    if place.root = .folder then place.append [part] else place
  else place.parent

/-- Follows parts of a path from a place. -/
def follow (folder : Folder) : List String → Path → Except FileFault Path
  | [], place => .ok place
  | part :: rest, place =>
    if folder.isDirectory place then
      if part.utf8ByteSize ≤ maxPartBytes then folder.follow rest (step place part)
      else .error .nameTooLong
    else if (folder.file? place).isSome then .error .notDirectory
    else .error .notFound

/-- The place that a path leads to, whether or not something is there. -/
def locate (folder : Folder) (path : Path) : Except FileFault Path :=
  if '\x00' ∈ path.display.toList then .error .nullCharacter
  else if path.display.utf8ByteSize ≤ maxPathBytes then
    folder.follow path.parts ⟨path.root.place, []⟩
  else .error .nameTooLong

/-! ## Reading -/

/-- The name ends like the name of a dump. -/
def isDumpName (name : String) : Bool :=
  ['.', 's', 'e', 'x', 'p'].isSuffixOf name.toList

/-- What lies below a place, by the parts behind it: files and directories. -/
def below (folder : Folder) (place : Path) : List (List String) :=
  (folder.files.flatMap fun (path, _) =>
    if place.isAbove path then Path.beginnings (path.parts.drop place.parts.length)
    else []).eraseDups

/-- The dumps below a place, by their paths below a path, in order. -/
def dumpsBelow (folder : Folder) (path place : Path) : List Path :=
  let dumps := (folder.below place).filter fun parts => parts.getLast?.any isDumpName
  (dumps.map path.append).mergeSort fun a b => !b.before a

/-- The files that a path stands for. -/
def collect (folder : Folder) (path : Path) : Except FileError (List Path) :=
  match folder.locate path with
  | .error fault => if fault.isMissing then .ok [] else .error ⟨fault, path⟩
  | .ok place =>
    if folder.isDirectory place then .ok (folder.dumpsBelow path place)
    else if (folder.file? place).isSome then .ok [path]
    else .ok []

/-- The files that several paths stand for, up to the first path that is refused. -/
def collectAll (folder : Folder) : List Path → Except FileError (List Path)
  | [] => .ok []
  | path :: rest =>
    match folder.collect path with
    | .error cause => .error cause
    | .ok found =>
      match folder.collectAll rest with
      | .error cause => .error cause
      | .ok more => .ok (found ++ more)

/-- The text of the file that a path leads to, with unified line breaks. -/
def readText (folder : Folder) (path : Path) : Except FileError String :=
  match folder.locate path with
  | .error fault => .error ⟨fault, path⟩
  | .ok place =>
    if folder.isDirectory place then .error ⟨.isDirectory, path⟩
    else
      match folder.file? place with
      | some text => .ok (String.ofList (Text.unifyBreaks text.toList))
      | none => .error ⟨.notFound, path⟩

/-! ## Writing -/

/-- The folder with a directory at a path, where nothing may be yet. -/
def makeDirectory (folder : Folder) (path : Path) : Except FileFault Folder :=
  match folder.locate path with
  | .error fault => .error fault
  | .ok place =>
    if folder.isDirectory place ∨ (folder.file? place).isSome then .error .alreadyExists
    else .ok ⟨folder.files, folder.directories ++ [place]⟩

/-- The folder as it is, if the directory that could not be made is there already. -/
def acceptDirectory (folder : Folder) (path : Path) (fault : FileFault) :
    Except FileError Folder :=
  match folder.locate path with
  | .error _ => .error ⟨fault, path⟩
  | .ok place => if folder.isDirectory place then .ok folder else .error ⟨fault, path⟩

/-- The folder with a directory at a path, which may be there already. -/
def ensureDirectory (folder : Folder) (path : Path) : Except FileError Folder :=
  match folder.makeDirectory path with
  | .ok made => .ok made
  | .error fault => folder.acceptDirectory path fault

/-- The folder with a directory at the path of a root and parts, which are given in reverse.
Where the way to it is missing, it is made first. -/
def ensureWay (folder : Folder) (root : Root) : List String → Except FileError Folder
  | [] => .ok folder
  | part :: above =>
    let path : Path := ⟨root, (part :: above).reverse⟩
    match folder.makeDirectory path with
    | .error .notFound =>
      match folder.ensureWay root above with
      | .error cause => .error cause
      | .ok made => made.ensureDirectory path
    | _ => folder.ensureDirectory path

/-- The folder with a text in the file at a place. -/
def put (folder : Folder) (place : Path) (text : String) : Folder :=
  let others := folder.files.filter fun (other, _) => other ≠ place
  ⟨others ++ [(place, text)], folder.directories⟩

/-- The folder with a text in the file that a path leads to, below directories that are made
where they are missing; and the place of the file. -/
def writeText (folder : Folder) (path : Path) (text : String) :
    Except FileError (Folder × Path) :=
  match folder.ensureWay path.root path.parent.parts.reverse with
  | .error cause => .error cause
  | .ok made =>
    match made.locate path with
    | .error fault => .error ⟨fault, path⟩
    | .ok place =>
      if made.isDirectory place then .error ⟨.isDirectory, path⟩
      else .ok (made.put place text, place)

end Folder

end RubyTree.Command
