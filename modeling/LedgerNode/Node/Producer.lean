import LedgerNode.Gossip.Envelope
import LedgerNode.Ledger.Extension

namespace LedgerNode

/-!
# Production of blocks

As long as nobody mines, a node can make blocks up.  Each has one transaction,
the reward of the block.  With each block goes a pending transfer.  Both are
stored like everything else before others are told of them.
-/

namespace Producer

/-- The key and the signature of all made up transactions. -/
def placeholder : String := "badbeef"

def receiver : String := "NReceiver"

def sender : String := "NSender"

def reward (height : UInt64) (timestamp : Int64) : Transaction :=
  Transaction.hashed
    { hash := "", blockHeight := height, kind := Transaction.coinbaseKind, timestamp
      sender := "COINBASE", receiver, amount := Transaction.unitsPerCoin
      publicKey := placeholder, verification := placeholder }

/-- The pending transfer that goes with a block. -/
def transfer (timestamp : Int64) : Transaction :=
  Transaction.hashed
    { hash := "", blockHeight := 0, kind := Transaction.spendKind, timestamp, sender
      receiver, amount := 100 * Transaction.unitsPerCoin
      publicKey := placeholder, verification := placeholder }

def nextBlock (timestamp : Int64) (tip : Cursor) : Block :=
  let height := tip.height + 1
  Block.build height tip.hash timestamp [reward height timestamp]

/-- Store a block and a transfer.  The answer is what others are told. -/
def synthesize (timestamp : Int64) : StoreAction (Envelope × Envelope) := do
  let block ← Ledger.appendBuilt (nextBlock timestamp)
  let transfer := transfer timestamp
  Ledger.addPending transfer
  return (.newBlock block block.transactions, .newTransactions [transfer])

/-- Store a block and a transfer.  The answer is the bytes to publish, in
order.  A refusal of the first does not keep the second from being
published. -/
def produce (timestamp : Int64) : StoreAction (List Bytes) := do
  let (newBlock, newTransactions) ← synthesize timestamp
  return [newBlock.encode, newTransactions.encode]

/-- Produce once at each of the given times. -/
def produceAll : List Int64 → StoreAction (List Bytes)
  | [] => return []
  | timestamp :: rest => do
    let messages ← produce timestamp
    let others ← produceAll rest
    return messages ++ others

/-- How many rounds are begun when production is stopped at the publication
with the given number.  A round that has begun is finished. -/
def roundsUntil (publication : Nat) : Nat := (publication + 1) / 2

end Producer

end LedgerNode
