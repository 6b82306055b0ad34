import NativeBindings.Data.SlotMap
import NativeBindings.Files.Basic
import NativeBindings.Text.PackageName

namespace NativeBindings

/-! # Trees of files

A tree holds files and directories below a directory that is always there.  Paths
lead from it by names; there are no links.
-/

inductive FileNode where
  | text (content : String)
  | binary
  | directory
  deriving DecidableEq

def FileNode.ofBytes (bytes : ByteArray) : FileNode :=
  match String.fromUTF8? bytes with
  | some content => .text content
  | none => .binary

/-- The names that lead to a place, the last one first.  The name `..` leads to the
directory around the tree, and `/` to the one around everything. -/
abbrev Place := List String

structure FileTree where
  nodes : SlotMap Place FileNode := ∅

namespace FileTree

def nameLimit : Nat := 255

def pathLimit : Nat := 4095

def isDirectory (tree : FileTree) : Place → Bool
  | [] => true
  | name :: outer => name = ".." || name = "/" || tree.nodes.get? (name :: outer) = some .directory

def parent : Place → Place
  | [] => [".."]
  | name :: outer =>
      if name = "/" then [name] else if name = ".." then name :: name :: outer else outer

def follow (tree : FileTree) (place : Place) (name : String) : Option Place :=
  if !tree.isDirectory place then none
  else if name = "" || name = "." then some place
  else if name = ".." then some (parent place)
  else if name.utf8ByteSize ≤ nameLimit then some (name :: place)
  else none

def pathNames (path : String) : List String := (pieces '/' path.toList).map String.ofList

def pathStart (path : String) : Place := if path.startsWith "/" then ["/"] else []

/-- Can a path be asked for at all? -/
def isPath (path : String) : Bool :=
  path ≠ "" && path.utf8ByteSize ≤ pathLimit && !path.toList.contains '\x00'

/-- The place to which a path leads; nothing need stand there. -/
def locate (tree : FileTree) (path : String) : Option Place :=
  if isPath path then (pathNames path).foldlM tree.follow (pathStart path) else none

def text? (tree : FileTree) (path : String) : Option String := do
  match tree.nodes.get? (← tree.locate path) with
  | some (.text content) => some content
  | _ => none

/-- Follows one name, and makes a directory where nothing stands. -/
def enter (state : FileTree × Place) (name : String) : Option (FileTree × Place) := do
  let (tree, place) := state
  let place ← tree.follow place name
  if tree.isDirectory place then pure (tree, place)
  else
    match tree.nodes.get? place with
    | none => pure (⟨tree.nodes.insert place .directory⟩, place)
    | some _ => none

/-- The names of a path that lead to places of their own. -/
def properNames (path : String) : List String :=
  (pathNames path).filter fun name => name ≠ "" && name ≠ "."

/-- The tree with the directories along a path, and the place of the last one. -/
def enterAll (tree : FileTree) (path : String) (names : List String) :
    Option (FileTree × Place) :=
  names.foldlM enter (tree, pathStart path)

/-- Does a path end in `.`, the name of a directory for itself? -/
def endsInDot (path : String) : Bool :=
  ((pathNames path).filter (· ≠ "")).getLast? = some "."

/-- The tree with a directory and those around it.  Behind its own name a directory
must not be called `.` before it is there. -/
def withDirectories (tree : FileTree) (path : String) : Option FileTree := do
  let names := properNames path
  if !isPath path then none
  else if (tree.locate path).any tree.isDirectory then some tree
  else if endsInDot path then
    let (tree, _) ← tree.enterAll path names.dropLast
    if (tree.locate path).any tree.isDirectory then some tree else none
  else
    let (tree, _) ← tree.enterAll path names
    pure tree

def withNode (tree : FileTree) (path : String) (node : FileNode) : Option FileTree := do
  let place ← tree.locate path
  if tree.isDirectory place then none else some ⟨tree.nodes.insert place node⟩

/-- The tree with one more file, and the directories around it.  A file that cannot
stand there is left out. -/
def addFile (tree : FileTree) (file : String × FileNode) : FileTree :=
  let outer := String.intercalate "/" (pathNames file.1).dropLast
  let tree := (tree.withDirectories outer).getD tree
  (tree.withNode file.1 file.2).getD tree

def ofFiles (files : List (String × FileNode)) : FileTree := files.foldl addFile {}

def placePath (place : Place) : String := String.intercalate "/" place.reverse

/-- Does a place lie in the tree's own directory? -/
def isInside (place : Place) : Bool := !(place.contains ".." || place.contains "/")

/-- The files with their paths, in the order in which they were first written. -/
def texts (tree : FileTree) : List (String × String) :=
  tree.nodes.entries.filterMap fun (place, node) =>
    match node with
    | .text content => if isInside place then some (placePath place, content) else none
    | _ => none

instance : Files (StateM FileTree) where
  readText path := do pure ((← get).text? path)
  createDirectories path := do
    match (← get).withDirectories path with
    | some tree => do set tree; pure true
    | none => pure false
  writeText path text := do
    match (← get).withNode path (.text text) with
    | some tree => do set tree; pure true
    | none => pure false

end FileTree

end NativeBindings
