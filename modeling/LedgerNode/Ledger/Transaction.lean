import LedgerNode.Bytes.Hex
import LedgerNode.Digest.Sha256

namespace LedgerNode

/-!
# Transactions

A transaction names the height of the block that confirms it.  Height zero is
the genesis block, which confirms nothing, so it marks a pending transaction.

The hash of a record is a letter for its kind, then the hexadecimal digits of a
fixed salt and of the digest of the record's fields.  The fields enter the
digest as one text without separators.
-/

/-! ## Hashes of records -/

namespace RecordHash

/-- The bytes in front of every digest. -/
def salt : Bytes := Bytes.ofText "Noso"

/-- The letter of block hashes. -/
def blockTag : String := "B"

/-- The letter of transaction hashes. -/
def transactionTag : String := "T"

/-- The hash of a text under a tag. -/
def tagged (tag input : String) : String :=
  tag ++ Hex.upper (salt ++ Sha256.digest (Bytes.ofText input))

end RecordHash

/-! ## Transfers -/

/-- A transfer, pending or confirmed. -/
structure Transaction where
  hash : String
  blockHeight : UInt64
  kind : String
  timestamp : Int64
  sender : String
  receiver : String
  amount : UInt64
  publicKey : String
  verification : String
deriving DecidableEq, Inhabited

namespace Transaction

/-- The kind of a block's reward. -/
def coinbaseKind : String := "COINBASE"

/-- The kind of a transfer between accounts. -/
def spendKind : String := "spend"

/-- How many units make one coin. -/
def unitsPerCoin : UInt64 := 100000000

/-- Whether no block confirms the transaction. -/
def isPending (transaction : Transaction) : Bool := transaction.blockHeight == 0

/-- Whether the transaction is a block's reward. -/
def isCoinbase (transaction : Transaction) : Bool := transaction.kind == coinbaseKind

/-- The text that the hash commits to.  The amount is not part of it. -/
def hashInput (transaction : Transaction) : String :=
  toString transaction.blockHeight.toNat ++ transaction.kind ++
    toString transaction.timestamp.toInt ++ transaction.publicKey ++
    transaction.verification ++ transaction.sender ++ transaction.receiver

/-- The hash that belongs to the other fields. -/
def computeHash (transaction : Transaction) : String :=
  RecordHash.tagged RecordHash.transactionTag transaction.hashInput

/-- The transaction with the hash that belongs to its other fields. -/
def hashed (transaction : Transaction) : Transaction :=
  { transaction with hash := transaction.computeHash }

/-- The transaction as a block of the given height confirms it. -/
def confirmedAt (transaction : Transaction) (height : UInt64) : Transaction :=
  { transaction with blockHeight := height }

end Transaction

end LedgerNode
