import LedgerNode.Store.Layout

namespace LedgerNode

/-!
# Reading the ledger

The ledger is the chain of stored blocks, its cursor, and the transactions of
its blocks.  Beside what is stored, a running node keeps blocks in memory that
arrived before their predecessors.  They wait by height until the gap is
filled, and are lost when the node stops.
-/

/-- A block that waits for its predecessor, with the transactions that arrived
with it. -/
structure WaitingBlock where
  block : Block
  transactions : List Transaction
deriving DecidableEq

/-- The waiting blocks by height. -/
abbrev WaitingBlocks := OrderedMap Nat WaitingBlock

/-- An action on the store and on the waiting blocks. -/
abbrev LedgerAction := ExceptT Fault (StateT WaitingBlocks Procedure)

namespace LedgerAction

/-- An action that leaves the waiting blocks alone. -/
def ofStore (action : StoreAction Value) : LedgerAction Value :=
  ExceptT.mk fun waiting => do
    let outcome ← ExceptT.run action
    return (outcome, waiting)

instance : MonadLift StoreAction LedgerAction := ⟨ofStore⟩

def run (action : LedgerAction Value) (waiting : WaitingBlocks) (engine : Engine) :
    Except Fault Value × WaitingBlocks × Engine :=
  let ((outcome, waiting), engine) := (ExceptT.run action waiting).run engine
  (outcome, waiting, engine)

end LedgerAction

namespace Ledger

def cursor : StoreAction Cursor := RecordStore.cursors.get StoreKey.cursor

def block (height : UInt64) : StoreAction Block :=
  RecordStore.blocks.get (StoreKey.block height)

/-- The stored blocks from one height up to another, which is left out. -/
def blocksBetween (first bound : UInt64) : StoreAction (List Block) :=
  RecordStore.blocks.range (StoreKey.block first) (StoreKey.block bound)

end Ledger

end LedgerNode
