import LedgerNode.File.Tree
import LedgerNode.Key.Identity
import LedgerNode.Store.Procedure

namespace LedgerNode

/-!
# What outlives a node

The files of a node and the contents of its stores are still there when the
node is gone.  A store lies in a folder of its own; one that was never opened
before is empty.
-/

/-- The files and the stores of a machine. -/
structure Disk where
  files : FileTree
  /-- The contents of the stores by the normal form of their folders. -/
  stores : OrderedMap String Contents

/-- An action on the disk.  What it did before it failed stays done. -/
abbrev DiskAction := ExceptT Fault (StateM Disk)

namespace Disk

/-- A disk with nothing on it. -/
def empty : Disk := ⟨∅, ∅⟩

def ofExcept (outcome : Except Fault Value) : DiskAction Value := ExceptT.mk (pure outcome)

def onFiles (change : FileTree → Except Fault FileTree) : DiskAction Unit := do
  let files ← ofExcept (change (← get).files)
  modify fun disk => { disk with files }

def keep (disk : Disk) (engine : Engine) : Disk :=
  { disk with stores := disk.stores.insert (Path.normal engine.path) engine.contents }

/-- Open the store in a folder, which is made if it is missing. -/
def openStore (folder : String) : DiskAction Engine := do
  let disk ← get
  match disk.files.makeFolder folder with
  | .error fault =>
    throw (.store (.cannotOpen folder s!"IO error: {fault.message}"))
  | .ok files =>
    set { disk with files }
    return ⟨folder, (disk.stores.get? (Path.normal folder)).getD ∅, true⟩

/-- Run an action on an open store and keep what it leaves behind. -/
def onStore (engine : Engine) (action : StoreAction Value) : DiskAction (Value × Engine) := do
  let (outcome, engine) := action.run engine
  modify fun disk => disk.keep engine
  return (← ofExcept outcome, engine)

/-- The identity in a file.  If there is no file, a new identity with a given
private key is written. -/
def identity (path : String) (secret : Nat) : DiskAction Identity := do
  let files := (← get).files
  if files.holds path then
    let content ← ofExcept (files.read path)
    ofExcept (Identity.ofFile path (some content))
  else
    let identity := Identity.ofSecret secret
    onFiles fun files =>
      match Path.parent? path with
      | some folder => files.makeFolder folder
      | none => .ok files
    onFiles fun files => files.write path (Bytes.ofText identity.text)
    return identity

end Disk

end LedgerNode
