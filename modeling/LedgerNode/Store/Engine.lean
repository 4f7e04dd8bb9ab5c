import LedgerNode.Bytes
import LedgerNode.OrderedMap

namespace LedgerNode

/-!
# The storage engine

All records of a node live in one ordered map from bytes to bytes.  The engine
is open or closed; closing it keeps the contents for the next time it is
opened, and until then it answers nothing and takes nothing.

A write is a list of edits that takes effect as a whole.
-/

/-- What is stored. -/
abbrev Contents := OrderedMap Bytes Bytes

/-- A change of one entry. -/
inductive Edit where
  | put (key value : Bytes)
  | remove (key : Bytes)
deriving DecidableEq

def Edit.apply (contents : Contents) : Edit → Contents
  | put key value => contents.insert key value
  | remove key => contents.erase key

/-- The contents after edits, one after another. -/
def Edit.applyAll (contents : Contents) (edits : List Edit) : Contents :=
  edits.foldl Edit.apply contents

/-- A store of bytes in a folder. -/
structure Engine where
  path : String
  contents : Contents
  isOpen : Bool
deriving DecidableEq

namespace Engine

/-- A new engine in a folder that holds nothing yet. -/
def create (path : String) : Engine := ⟨path, ∅, true⟩

/-- What can be read from the engine now. -/
def view (engine : Engine) : Option Contents :=
  if engine.isOpen then some engine.contents else none

/-- The engine after a write, and whether it took the write. -/
def write (engine : Engine) (edits : List Edit) : Engine × Bool :=
  if engine.isOpen then
    ({ engine with contents := Edit.applyAll engine.contents edits }, true)
  else (engine, false)

/-- The closed engine, and whether it was open before. -/
def close (engine : Engine) : Engine × Bool := ({ engine with isOpen := false }, engine.isOpen)

/-- The engine, opened again on the contents that it had. -/
def reopen (engine : Engine) : Engine := { engine with isOpen := true }

end Engine

end LedgerNode
