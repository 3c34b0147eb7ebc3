import RubyTree.Command.Run

/-!
# The command line

Finds the files that the arguments name, runs the dump command on them, and
prints, logs and writes what it says.
-/

namespace RubyTree.Command

/-- The dumps below a directory, with their texts. -/
partial def findDumps (path : Path) : IO (List (Path × String)) := do
  let here := (← IO.currentDir) / path.display
  let mut found := []
  for entry in ← here.readDir do
    let next := path.append [entry.fileName]
    if ← entry.path.isDir then
      found := found ++ (← findDumps next)
    else if Folder.isDumpName entry.fileName then
      found := found ++ [(next, ← IO.FS.readFile entry.path)]
  return found

/-- The folder with what lies on the way along a path, and with the dumps below its end. -/
def explore (folder : Folder) (path : Path) : IO Folder := do
  let mut found := folder
  for parts in Path.beginnings path.parts do
    if let .ok place := found.locate ⟨path.root, parts⟩ then
      let here := (← IO.currentDir) / place.display
      if ← here.isDir then
        found := ⟨found.files, found.directories ++ [place]⟩
      else if ← here.pathExists then
        found := found.put place (← IO.FS.readFile here)
  return found

/-- The folder with what lies at a path that is to be read. -/
def exploreSource (folder : Folder) (path : Path) : IO Folder := do
  let found ← explore folder path
  match found.locate path with
  | .error _ => return found
  | .ok place =>
    if found.isDirectory place then
      return ⟨found.files ++ (← findDumps place), found.directories⟩
    else return found

/-- The part of the file system that the arguments name.  Every file is known by the place that
its path leads to. -/
def findFolder (arguments : List String) : IO Folder := do
  match Request.ofArguments? arguments with
  | none => return ⟨[], []⟩
  | some request =>
    let sources ← (request.paths.map Path.ofText).foldlM exploreSource ⟨[], []⟩
    match request.output with
    | .file name => explore sources (.ofText name)
    | _ => return sources

/-- Makes the directories and writes the files in which a folder differs from the one before. -/
def writeChanges (before after : Folder) : IO Unit := do
  for place in after.directories do
    if !before.directories.contains place then
      IO.FS.createDir ((← IO.currentDir) / place.display)
  for (place, text) in after.files do
    if before.file? place ≠ some text then
      IO.FS.writeFile ((← IO.currentDir) / place.display) text

/-- Prints, logs and writes an outcome. -/
def perform (before : Folder) (outcome : Outcome) : IO UInt32 := do
  for line in outcome.log do IO.eprintln line
  writeChanges before outcome.after
  IO.print outcome.printed
  if let some message := outcome.exitMessage then IO.eprintln message
  return outcome.exit.toUInt32

end RubyTree.Command

open RubyTree.Command in
/-- Runs the dump command on the arguments. -/
def main (arguments : List String) : IO UInt32 := do
  let folder ← findFolder arguments
  match run folder arguments with
  | .ok outcome => perform folder outcome
  | .error cause =>
    IO.eprintln cause.message
    return 1
