/-!
# Paths

A path is a list of parts between slashes.  Empty parts and single dots are
dropped when it is read, so that one path has one written form.  Two slashes in
front, and no third, are kept as they are.

Main results:

- `Path.ofText` reads a path and `Path.display` writes it.
- `Path.parent` is the path without its last part, and `Path.beginnings` are all
  paths on the way.
- `Path.before` orders paths part by part, and the parts by code points.
-/

namespace RubyTree.Command

/-- Where a path starts. -/
inductive Root where
  /-- At the folder. -/
  | folder
  /-- At the top of all files. -/
  | top
  /-- At the top of all files, written with two slashes. -/
  | doubledTop
deriving DecidableEq

namespace Root

/-- What is written before the first part. -/
def mark : Root → String
  | .folder => ""
  | .top => "/"
  | .doubledTop => "//"

/-- The root that the beginning of a text stands for. -/
def ofText : List Char → Root
  | '/' :: '/' :: '/' :: _ => .top
  | '/' :: '/' :: _ => .doubledTop
  | '/' :: _ => .top
  | _ => .folder

/-- The place of a root: both tops are one. -/
def place : Root → Root
  | .doubledTop => .top
  | root => root

end Root

/-- A path of files. -/
structure Path where
  /-- Where the path starts. -/
  root : Root
  /-- The parts between the slashes. -/
  parts : List String
deriving DecidableEq

namespace Path

/-- Cuts a text at the slashes; the current part is given in reverse. -/
def cut : List Char → List Char → List (List Char)
  | [], part => [part.reverse]
  | c :: rest, part =>
    if c = '/' then part.reverse :: cut rest [] else cut rest (c :: part)

/-- The part leads nowhere. -/
def isIdle (part : List Char) : Bool :=
  part = [] || part = ['.']

/-- Reads a path. -/
def ofText (text : String) : Path :=
  ⟨.ofText text.toList,
    ((cut text.toList []).filter fun part => !isIdle part).map String.ofList⟩

/-- The written form of a path. -/
def display (path : Path) : String :=
  if path.root = .folder ∧ path.parts = [] then "."
  else path.root.mark ++ "/".intercalate path.parts

/-- The path of something below a path. -/
def append (path : Path) (below : List String) : Path :=
  ⟨path.root, path.parts ++ below⟩

/-- The path without its last part; a path without parts is its own parent. -/
def parent (path : Path) : Path :=
  ⟨path.root, path.parts.dropLast⟩

/-- The beginnings of a row of parts, the shortest first. -/
def beginnings (parts : List String) : List (List String) :=
  (List.range parts.length).map fun n => parts.take (n + 1)

/-- The other path leads through the path to something below it.  A step back leads out of it. -/
def isAbove (path other : Path) : Bool :=
  path.root = other.root && path.parts.isPrefixOf other.parts &&
    path.parts.length < other.parts.length && ".." ∉ other.parts.drop path.parts.length

/-- The path leads to a place in the folder: it neither starts nor climbs out of it. -/
def isInside (place : Path) : Bool :=
  place.root = .folder && place.parts.head? ≠ some ".."

/-- The order of paths. -/
def before (a b : Path) : Bool :=
  a.parts < b.parts

end Path

end RubyTree.Command
