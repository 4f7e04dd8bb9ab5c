import LedgerNode.Base58
import LedgerNode.Ledger.Format
import LedgerNode.Peer.Descriptor
import LedgerNode.Store.RecordStore

namespace LedgerNode

/-!
# The layout of a node's store

A node keeps five record stores in one engine.  Blocks and transactions are
found by height, and the keys of heights have a fixed width, so that their
order is the order of the heights.  The width holds sixteen digits; a greater
height takes more.
-/

namespace StoreKey

def digit (value : Nat) : Char := Char.ofNat (48 + value)

/-- A number in decimal digits, filled up with zeros to at least `width`. -/
def padded (width number : Nat) : List Char :=
  let digits := Radix.digits 10 number
  ((digits ++ List.replicate (width - digits.length) 0).map digit).reverse

def block (height : UInt64) : String := String.ofList (padded 16 height.toNat)

def transaction (height : UInt64) (hash : String) : String := block height ++ ":" ++ hash

def peer (peer : Peer) : String := peer.address ++ ":" ++ peer.id

/-- The key of the one cursor. -/
def cursor : String := "status-main"

end StoreKey

namespace RecordStore

/-- Where the cursor of the chain is kept. -/
def cursors : RecordStore Cursor := ⟨"status:", Cursor.codec⟩

/-- Where the blocks of the chain are kept. -/
def blocks : RecordStore Block := ⟨"block:", Block.codec⟩

/-- Where the transactions of stored blocks are kept. -/
def confirmed : RecordStore Transaction := ⟨"tx:", Transaction.codec⟩

/-- Where the transactions that no block confirms are kept. -/
def pending : RecordStore Transaction := ⟨"pending:", Transaction.codec⟩

/-- Where the peers of the last run are kept. -/
def peers : RecordStore Peer := ⟨"peer:", Peer.codec⟩

end RecordStore

end LedgerNode
