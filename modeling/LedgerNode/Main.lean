import LedgerNode.Command.Footprint

/-!
# The program

The program reads its files and its environment, carries one command out, and
writes the files that the command changed.  A node takes what happens to it
from standard input, one event a line, and stops at the end of the input.
-/

namespace LedgerNode

def readFile? (path : String) : IO (Option Bytes) := do
  try
    return some (← IO.FS.readBinFile path).toList
  catch _ => return none

def writeFile (path : String) (content : Bytes) : IO Unit := do
  match Path.parent? path with
  | some folder => unless folder.isEmpty do IO.FS.createDirAll folder
  | none => pure ()
  IO.FS.writeBinFile path ⟨content.toArray⟩

def readFiles (paths : List String) (files : FileTree) : IO FileTree := do
  let mut files := files
  for path in paths do
    if let some content ← readFile? path then
      files := files.place path content
  return files

/-- The variables of the environment that a command may look at. -/
def readVariables : IO (String → Option String) := do
  let home ← IO.getEnv "HOME"
  let address ← IO.getEnv "NODE_ADDRESS"
  let mode ← IO.getEnv "NODE_MODE"
  return fun name =>
    match name with
    | "HOME" => home
    | "NODE_ADDRESS" => address
    | "NODE_MODE" => mode
    | _ => none

/-- The contents of the store in a file. -/
def readContents (image : String) : IO Contents := do
  let content ← readFile? image
  return (content >>= Utf8.text? >>= StoreImage.contents?).getD ∅

/-- The lines of the input, without their ends. -/
partial def readLines (input : IO.FS.Stream) (earlier : List String) : IO (List String) := do
  let line ← input.getLine
  if line.isEmpty then return earlier.reverse
  else
    let characters := line.toList.filter fun character => character != '\n'
    readLines input (String.ofList characters :: earlier)

/-- A private key that nobody can guess. -/
def chooseSecret : IO Nat := do
  let bytes ← IO.getRandomBytes 40
  return Bytes.toNatBigEndian bytes.toList % (Curve.order - 1) + 1

def writeChanges (before after : FileTree) : IO Unit := do
  for (path, entry) in after.entries do
    if before.get? path != some entry then
      match entry with
      | .folder => IO.FS.createDirAll path
      | .file content => writeFile path content

/-- Carry a command out.  The answer is the exit code. -/
def runInvocation (invocation : Invocation) : IO UInt32 := do
  let environment ← readVariables
  let files ← readFiles (invocation.configFiles environment) ∅
  let files ← readFiles [invocation.keystoreFile files environment] files
  let folder := invocation.storeFolder files environment
  let image := Path.join folder Invocation.imageName
  let contents ← readContents image
  let lines ← if invocation.runsNode then readLines (← IO.getStdin) [] else pure []
  let machine : Machine :=
    { disk := ⟨files, OrderedMap.empty.insert (Path.normal folder) contents⟩
      environment
      network := .isolated
      secret := ← chooseSecret
      gossipPort := 45050
      directoryPort := 8080 }
  let (printed, failure, machine) := invocation.outcome machine (lines.map NodeEvent.ofLine)
  writeChanges files machine.disk.files
  if let some contents := machine.disk.stores.get? (Path.normal folder) then
    if machine.disk.files.holds folder then
      writeFile image (Bytes.ofText (StoreImage.text contents))
  printed.forM fun line => IO.println line
  match failure with
  | none => return 0
  | some failure =>
    IO.eprintln s!"Error: {failure.message}"
    return 1

end LedgerNode

open LedgerNode

/-- Carry out the command that the words of the command line spell. -/
def main (words : List String) : IO UInt32 := do
  match Invocation.ofWords words with
  | .ok invocation => runInvocation invocation
  | .error fault =>
    let commands := ", ".intercalate Invocation.commandNames
    if fault.asksForHelp then
      IO.println s!"commands: {commands}"
      return 0
    else
      IO.eprintln s!"error: {fault.message}"
      return 2
