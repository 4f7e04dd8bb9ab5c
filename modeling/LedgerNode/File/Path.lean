import LedgerNode.Text.Blank

namespace LedgerNode

/-!
# Paths

A path names a file by the folders that lead to it, with a slash between two
names.  Empty names and the name of a single dot stand for the folder that
they are in, but a path keeps the way in which it was written wherever it is
shown.
-/

namespace Path

/-- Whether a path starts at the root of all folders. -/
def isAbsolute (path : String) : Bool := path.toList.head? == some '/'

/-- The path of a name inside a folder.  An absolute path is its own place. -/
def join (folder name : String) : String :=
  if isAbsolute name then name
  else if folder.isEmpty || folder.toList.getLast? == some '/' then folder ++ name
  else folder ++ "/" ++ name

/-- A reversed path without the names at its end that stand for the folder
that they are in.  The slash of the root and a dot that is the whole path
stay. -/
def trimBack : List Char → List Char
  | ['/'] => ['/']
  | '/' :: rest => trimBack rest
  | '.' :: '/' :: rest => trimBack ('/' :: rest)
  | reversed => reversed
termination_by reversed => reversed.length

/-- The folder that a path is in.  The root and the empty path are in none. -/
def parent? (path : String) : Option String :=
  let reversed := trimBack path.toList.reverse
  if reversed.isEmpty || reversed == ['/'] then none
  else some (String.ofList (trimBack (reversed.dropWhile (· != '/'))).reverse)

/-- The names of a path that lead from one folder to another. -/
def names (path : String) : List String :=
  let names := (Text.splitOn (· == '/') path.toList).map String.ofList
  names.filter fun name => name != "" && name != "."

/-- The place that a path starts from. -/
def start (path : String) : String := if isAbsolute path then "/" else ""

/-- The places that names lead to, one after another. -/
def stepsFrom (folder : String) : List String → List String
  | [] => []
  | name :: rest =>
    let place := join folder name
    place :: stepsFrom place rest

/-- The folders on the way to a path, from the outermost one on.  The place
itself comes last. -/
def steps (path : String) : List String := stepsFrom (start path) (names path)

/-- The one way to write a path that all paths to the same place share. -/
def normal (path : String) : String := (steps path).getLast?.getD (start path)

end Path

end LedgerNode
