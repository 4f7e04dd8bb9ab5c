import LedgerNode.Fault
import LedgerNode.File.Path
import LedgerNode.OrderedMap

namespace LedgerNode

/-!
# Files

A file tree holds the folders and files that a node has to do with, by the
normal form of their paths.  A file has its bytes; a folder has nothing but its
place.
-/

/-- What is at a place. -/
inductive FileEntry where
  | folder
  | file (content : Bytes)
deriving DecidableEq

/-- The folders and files by the normal form of their paths. -/
abbrev FileTree := OrderedMap String FileEntry

namespace FileTree

/-- What is at a path.  The root and the place where paths start from are
folders. -/
def entry? (tree : FileTree) (path : String) : Option FileEntry :=
  if (Path.names path).isEmpty then some .folder else tree.get? (Path.normal path)

def holds (tree : FileTree) (path : String) : Bool := (tree.entry? path).isSome

def read (tree : FileTree) (path : String) : Except Fault Bytes :=
  match tree.entry? path with
  | some (.file content) => .ok content
  | some .folder => .error (.file .isFolder)
  | none => .error (.file .missing)

def content? (tree : FileTree) (path : String) : Option Bytes := (tree.read path).toOption

/-- Make the folders of which each is inside the one before it. -/
def makeFolders : List String → FileTree → Except Fault FileTree
  | [], tree => .ok tree
  | folder :: rest, tree =>
    match tree.get? folder with
    | none => makeFolders rest (tree.insert folder .folder)
    | some .folder => makeFolders rest tree
    | some (.file _) => .error (.file (if rest.isEmpty then .occupied else .notFolder))

/-- Make a folder and the folders that it is in, as far as they are
missing. -/
def makeFolder (tree : FileTree) (path : String) : Except Fault FileTree :=
  makeFolders (Path.steps path) tree

/-- Write a file in place of the file that was there. -/
def write (tree : FileTree) (path : String) (content : Bytes) : Except Fault FileTree :=
  match tree.entry? path with
  | some .folder => .error (.file .isFolder)
  | _ => .ok (tree.insert (Path.normal path) (.file content))

/-- Put a file in place, with the folders that it is in. -/
def place (tree : FileTree) (path : String) (content : Bytes) : FileTree :=
  let folders := (Path.steps path).dropLast
  let tree := folders.foldl (fun tree folder => tree.insert folder FileEntry.folder) tree
  tree.insert (Path.normal path) (.file content)

end FileTree

end LedgerNode
