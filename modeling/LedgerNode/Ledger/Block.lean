import LedgerNode.Ledger.Transaction

namespace LedgerNode

/-!
# Blocks

A block commits to its predecessor by that block's hash.  The genesis block
has none; its hash is a fixed word instead of a digest.
-/

/-- A block of the ledger. -/
structure Block where
  height : UInt64
  hash : String
  previousHash : String
  timestamp : Int64
  merkleRoot : String
  transactions : List Transaction
deriving DecidableEq, Inhabited

namespace Block

/-- The hash of every block of height zero. -/
def genesisHash : String := "BZERO"

/-- Whether the block is the first of a chain. -/
def isGenesis (block : Block) : Bool := block.height == 0

/-- The root that enters the digest; a block without one is named by its
height. -/
def effectiveRoot (block : Block) : String :=
  if block.merkleRoot.isEmpty then "MerkleFor:" ++ toString block.height.toNat
  else block.merkleRoot

/-- The text that the hash commits to.  The transactions are part of it only
through the root. -/
def hashInput (block : Block) : String :=
  toString block.height.toNat ++ block.previousHash ++ toString block.timestamp.toInt ++
    block.effectiveRoot

/-- The hash that belongs to the other fields. -/
def computeHash (block : Block) : String :=
  if block.height == 0 then genesisHash
  else RecordHash.tagged RecordHash.blockTag block.hashInput

/-- The block with the hash that belongs to its other fields. -/
def hashed (block : Block) : Block := { block with hash := block.computeHash }

/-- A block without a root, with the hash that belongs to it. -/
def build (height : UInt64) (previousHash : String) (timestamp : Int64)
    (transactions : List Transaction) : Block :=
  hashed
    { height, hash := "", previousHash, timestamp, merkleRoot := "", transactions }

/-- The first block of every chain. -/
def genesis : Block :=
  { height := 0, hash := genesisHash, previousHash := "", timestamp := 0
    merkleRoot := "", transactions := [] }

end Block

end LedgerNode
