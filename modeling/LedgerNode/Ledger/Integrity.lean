import LedgerNode.Ledger.Extension

namespace LedgerNode

/-!
# Integrity of the ledger

When a node starts, it compares its cursor with the number of stored blocks.
If they agree, the cursor is trusted.  If not, all blocks and transactions are
checked, and the cursor is written anew when they are sound.  Nothing else is
ever repaired.

The same checks can be made without writing anything.
-/

namespace Ledger

/-- How the ledger was found when the node started. -/
inductive StartOutcome where
  | genesisInitialized (cursor : Cursor)
  | cursorTrusted (cursor : Cursor)
  | rescanned (cursor : Cursor)
deriving DecidableEq

namespace StartOutcome

def cursor : StartOutcome → Cursor
  | genesisInitialized cursor => cursor
  | cursorTrusted cursor => cursor
  | rescanned cursor => cursor

def name : StartOutcome → String
  | genesisInitialized _ => "GenesisInitialized"
  | cursorTrusted _ => "CursorTrusted"
  | rescanned _ => "Rescanned"

end StartOutcome

/-- The end of the stored chain, and the cursor as it is stored. -/
structure Report where
  tip : Option Cursor
  cursor : Option Cursor
deriving DecidableEq

/-- Whether the cursor names the end of the chain. -/
def Report.isCurrent (report : Report) : Bool :=
  report.tip.isSome && report.tip == report.cursor

/-- The cursor, if one is stored. -/
def storedCursor : StoreAction (Option Cursor) :=
  tryCatch (some <$> cursor) fun
    | .notFound _ => return none
    | fault => throw fault

/-- Find a confirmed transaction whose block is not stored. -/
def findOrphan : List Transaction → StoreAction Unit
  | [] => return ()
  | transaction :: rest => do
    if ← RecordStore.blocks.has (StoreKey.block transaction.blockHeight) then
      findOrphan rest
    else
      throw (.integrity (.orphanTransaction transaction.hash transaction.blockHeight))

/-- Check all blocks, then all confirmed transactions. -/
def verify : StoreAction (Option Cursor) := do
  let blocks ← RecordStore.blocks.values
  let tip ← StoreAction.ofExcept ((Chain.verify blocks).mapError .integrity)
  findOrphan (← RecordStore.confirmed.values)
  return tip

/-- Check the ledger without writing. -/
def inspect : StoreAction Report := do
  let tip ← verify
  return { tip, cursor := ← storedCursor }

/-- Check the ledger and move the cursor to its end. -/
def rescan (cursor : Option Cursor) : StoreAction StartOutcome := do
  match ← verify with
  | some tip =>
    RecordStore.cursors.put StoreKey.cursor tip
    return .rescanned tip
  | none =>
    throw (.integrity (.emptyLedger ((cursor.map (·.height)).getD 0)))

/-- Find out how the ledger is when the node starts.  An empty store becomes a
chain of the genesis block alone. -/
def check : StoreAction StartOutcome := do
  let blockCount ← RecordStore.blocks.count
  let transactionCount ← RecordStore.confirmed.count
  match ← storedCursor with
  | none =>
    if blockCount = 0 ∧ transactionCount = 0 then return .genesisInitialized (← start)
    else rescan none
  | some cursor =>
    if cursor.height.toNat + 1 = blockCount then return .cursorTrusted cursor
    else rescan (some cursor)

end Ledger

end LedgerNode
