import LedgerNode.Ledger.Format

namespace LedgerNode

/-!
# Envelopes

An envelope is what nodes tell each other about the ledger: a new block with
the transactions that it confirms, or transactions alone.
-/

/-- A message on the block topic. -/
inductive Envelope where
  | newBlock (block : Block) (transactions : List Transaction)
  | newTransactions (transactions : List Transaction)
deriving DecidableEq

namespace Envelope

def kind : Envelope → String
  | newBlock .. => "new-block"
  | newTransactions .. => "new-transactions"

/-- The content of an envelope by its number. -/
def Content : Fin 2 → Type
  | 0 => Block × List Transaction
  | 1 => List Transaction

/-- The binary form of the content. -/
def contentCodec : (index : Fin 2) → Codec (Content index)
  | 0 => .pair Block.codec (.list Transaction.codec)
  | 1 => .list Transaction.codec

def ofContent : (index : Fin 2) × Content index → Envelope
  | ⟨0, content⟩ => newBlock content.1 content.2
  | ⟨1, content⟩ => newTransactions content

def toContent : Envelope → (index : Fin 2) × Content index
  | newBlock block transactions => ⟨0, (block, transactions)⟩
  | newTransactions transactions => ⟨1, transactions⟩

/-- The binary form of an envelope. -/
def codec : Codec Envelope :=
  .via (.variant "GossipEnvelope" 2 contentCodec) ofContent toContent

def toJson : Envelope → Json
  | newBlock block transactions =>
    .ofMembers
      [("NewBlock", .ofMembers
        [("block", block.toJson),
         ("transactions", .array (transactions.map Transaction.toJson))])]
  | newTransactions transactions =>
    .ofMembers
      [("NewTransactions", .ofMembers
        [("transactions", .array (transactions.map Transaction.toJson))])]

def encode (envelope : Envelope) : Bytes := codec.encode envelope

def decode (bytes : Bytes) : Except DecodeFault Envelope := codec.decodeExact bytes

end Envelope

end LedgerNode
