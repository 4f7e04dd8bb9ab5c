import LedgerNode.Ledger.Block

namespace LedgerNode

/-!
# Linked chains

A list of blocks is a chain when the heights count up from zero, the first
block is the genesis block, and each later block names the hash of the one
before it.  The check walks the list once and stops at the first block that
does not continue what was checked so far.

A cursor names the last block of a chain.  A block extends the chain when it
is the next one in height and names the last block as its predecessor.
-/

/-! ## Cursors -/

/-- The height and the hash of the last block of a chain. -/
structure Cursor where
  height : UInt64
  hash : String
deriving DecidableEq, Inhabited

namespace Cursor

def ofBlock (block : Block) : Cursor := ⟨block.height, block.hash⟩

def genesis : Cursor := ⟨0, Block.genesisHash⟩

/-- A block is the next one of a chain. -/
def ExtendedBy (cursor : Cursor) (block : Block) : Prop :=
  block.height.toNat = cursor.height.toNat + 1 ∧ block.previousHash = cursor.hash

instance (cursor : Cursor) (block : Block) : Decidable (cursor.ExtendedBy block) :=
  inferInstanceAs (Decidable (_ ∧ _))

end Cursor

/-! ## The check -/

/-- What is wrong with stored blocks or transactions. -/
inductive ChainDefect where
  | heightMismatch (expected actual : Nat)
  | brokenLink (height : UInt64) (expected actual : String)
  | badGenesis (expected actual : String)
  /-- A confirmed transaction belongs to a block that is not stored. -/
  | orphanTransaction (hash : String) (blockHeight : UInt64)
  /-- There is a cursor, but no block. -/
  | emptyLedger (cursor : UInt64)
deriving DecidableEq

namespace ChainDefect

/-- One sentence about the defect. -/
def message : ChainDefect → String
  | heightMismatch expected actual =>
    s!"mismatched block height, expected {expected}, got {actual}"
  | brokenLink height expected actual =>
    s!"chain is broken at block {height}: expected previous hash '{expected}', got '{actual}'"
  | badGenesis expected actual =>
    s!"bad genesis block: expected '{expected}', got '{actual}'"
  | orphanTransaction hash blockHeight =>
    s!"orphaned transaction '{hash}': block {blockHeight} is not stored"
  | emptyLedger cursor => s!"status points at block {cursor} but the block store is empty"

end ChainDefect

namespace Chain

/-- Check the block that follows a chain, or the first block of all, against
its expected height.  A wrong height is reported before a wrong link. -/
def checkNext (tip : Option Cursor) (expected : Nat) (block : Block) :
    Except ChainDefect Unit :=
  if block.height.toNat ≠ expected then
    .error (.heightMismatch expected block.height.toNat)
  else match tip with
    | none =>
      if block.previousHash ≠ "" then .error (.badGenesis "" block.previousHash)
      else if block.hash ≠ Block.genesisHash then
        .error (.badGenesis Block.genesisHash block.hash)
      else .ok ()
    | some tip =>
      if block.previousHash ≠ tip.hash then
        .error (.brokenLink block.height tip.hash block.previousHash)
      else .ok ()

/-- Check the blocks that follow a chain of `length` blocks. -/
def verifyFrom (tip : Option Cursor) (length : Nat) :
    List Block → Except ChainDefect (Option Cursor)
  | [] => .ok tip
  | block :: rest => do
    checkNext tip length block
    verifyFrom (some (.ofBlock block)) (length + 1) rest

/-- The cursor of a chain, or nothing for the empty one. -/
def verify (blocks : List Block) : Except ChainDefect (Option Cursor) :=
  verifyFrom none 0 blocks

end Chain

end LedgerNode
