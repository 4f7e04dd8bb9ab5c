import LedgerNode.Ledger.Action

namespace LedgerNode

/-!
# Extending the ledger

Only a block that extends the chain is stored.  It is written first, then the
transactions that it confirms, then the cursor; whoever finds the store after
any of these writes can tell how far the writer came.

A node extends its chain by blocks of its own and by blocks of its peers.  A
peer's block that is ahead of the chain waits for its predecessors.  At each
height the block that came first stays.
-/

namespace Ledger

/-- How far ahead of the chain a block may be to wait. -/
def farthestAhead : Nat := 256

/-- Store transactions as those of a block. -/
def storeConfirmed (height : UInt64) (transactions : List Transaction) : StoreAction Unit :=
  transactions.forM fun transaction =>
    RecordStore.confirmed.put (StoreKey.transaction height transaction.hash)
      (transaction.confirmedAt height)

/-- Store a block with its transactions and move the cursor to it. -/
def commit (block : Block) (transactions : List Transaction) : StoreAction Cursor := do
  RecordStore.blocks.put (StoreKey.block block.height) block
  storeConfirmed block.height transactions
  let cursor := Cursor.ofBlock block
  RecordStore.cursors.put StoreKey.cursor cursor
  return cursor

/-- Start a chain with the genesis block. -/
def start : StoreAction Cursor := do
  RecordStore.blocks.put (StoreKey.block 0) Block.genesis
  RecordStore.cursors.put StoreKey.cursor Cursor.genesis
  return Cursor.genesis

/-! ## Blocks of this node -/

/-- Append a block with its own transactions. -/
def append (block : Block) : StoreAction Cursor := do
  let tip ← cursor
  if tip.ExtendedBy block then commit block block.transactions
  else throw (.store (.notExtending block tip))

/-- Append the block that is built for the tip. -/
def appendBuilt (build : Cursor → Block) : StoreAction Block := do
  let tip ← cursor
  let block := build tip
  if tip.ExtendedBy block then
    let _ ← commit block block.transactions
    return block
  else throw (.store (.builtNotExtending block tip))

/-! ## Blocks of peers -/

/-- What became of a peer's block. -/
inductive Acceptance where
  /-- The chain now ends at the given cursor. -/
  | extended (tip : Cursor)
  /-- The block waits. -/
  | held
  /-- The same block is stored or waits already. -/
  | duplicate
  /-- Another block came first at this height. -/
  | conflicting (existing : String)
  | rejected
deriving DecidableEq

/-- Compare a block with the one that came first at its height. -/
def compareWith (existing block : Block) : Acceptance :=
  if existing.hash = block.hash then .duplicate else .conflicting existing.hash

/-- Let a block wait that is ahead of the chain. -/
def hold (tip : Cursor) (block : Block) (transactions : List Transaction)
    (waiting : WaitingBlocks) : Acceptance × WaitingBlocks :=
  if tip.height.toNat + farthestAhead < block.height.toNat then (.rejected, waiting)
  else match waiting.get? block.height.toNat with
    | some other => (compareWith other.block block, waiting)
    | none => (.held, waiting.insert block.height.toNat ⟨block, transactions⟩)

/-- The waiting blocks that extend a chain one after another.  The entries are
in the order of their heights. -/
def linkedTo (tip : Cursor) : List (Nat × WaitingBlock) → List WaitingBlock
  | [] => []
  | (height, next) :: rest =>
    if height ≤ tip.height.toNat then linkedTo tip rest
    else if height = tip.height.toNat + 1 ∧ tip.ExtendedBy next.block then
      next :: linkedTo (.ofBlock next.block) rest
    else []

/-- Store waiting blocks one after another, each as soon as it no longer
waits. -/
def commitWaiting : List WaitingBlock → Cursor → LedgerAction Cursor
  | [], tip => return tip
  | next :: rest, _ => do
    modify (·.erase next.block.height.toNat)
    let tip ← LedgerAction.ofStore (commit next.block next.transactions)
    commitWaiting rest tip

/-- Store a block that extends the chain, and the waiting blocks behind it.
What waits at or directly after the new tip can never be stored, so it is
dropped. -/
def extend (block : Block) (transactions : List Transaction) : LedgerAction Cursor := do
  let tip ← LedgerAction.ofStore (commit block transactions)
  let waiting ← get
  let tip ← commitWaiting (linkedTo tip waiting.entries) tip
  modify (·.filter fun height _ => tip.height.toNat + 1 < height)
  return tip

/-- Take a block from a peer, with the transactions that it confirms. -/
def accept (block : Block) (transactions : List Transaction) : LedgerAction Acceptance := do
  let tip ← LedgerAction.ofStore cursor
  if block.height ≤ tip.height then
    let existing ← LedgerAction.ofStore (Ledger.block block.height)
    return compareWith existing block
  else if tip.height.toNat + 1 < block.height.toNat then
    modifyGet (hold tip block transactions)
  else if tip.ExtendedBy block then
    return .extended (← extend block transactions)
  else return .rejected

/-! ## Transactions of peers -/

/-- Store a transaction that no block confirms. -/
def addPending (transaction : Transaction) : StoreAction Unit :=
  RecordStore.pending.put (StoreKey.transaction 0 transaction.hash) transaction

/-- Store a transaction of a stored block.  The answer tells whether its block
is stored. -/
def addConfirmed (transaction : Transaction) : StoreAction Bool := do
  if ← RecordStore.blocks.has (StoreKey.block transaction.blockHeight) then
    RecordStore.confirmed.put
      (StoreKey.transaction transaction.blockHeight transaction.hash) transaction
    return true
  else return false

/-- Store a transaction as pending or confirmed, whichever it says it is.  The
answer tells whether it was stored. -/
def addTransaction (transaction : Transaction) : StoreAction Bool := do
  if transaction.isPending then
    addPending transaction
    return true
  else addConfirmed transaction

/-- Take transactions from a peer.  The answer tells how many were stored. -/
def acceptTransactions : List Transaction → StoreAction Nat
  | [] => return 0
  | transaction :: rest => do
    let stored ← addTransaction transaction
    let others ← acceptTransactions rest
    return stored.toNat + others

end Ledger

end LedgerNode
