import LedgerNode.Binary.Codec
import LedgerNode.Json.Record
import LedgerNode.Ledger.Chain

namespace LedgerNode

/-!
# Formats of ledger records

Cursors, transactions and blocks have a binary form, in which they are stored
and sent, and a document form.  Both list the fields in the same order.
-/

namespace Cursor

/-- The binary form of a cursor. -/
def codec : Codec Cursor :=
  .via (.pair .u64 .text)
    (fun (height, hash) => ⟨height, hash⟩)
    (fun cursor => (cursor.height, cursor.hash))

def toJson (cursor : Cursor) : Json :=
  .ofMembers
    [("last_block", .ofNat cursor.height.toNat),
     ("last_hash", .ofText cursor.hash)]

def ofJson? (document : Json) : Option Cursor := do
  match ← document.allFields? ["last_block", "last_hash"] with
  | [height, hash] => some { height := ← height.u64?, hash := ← hash.text? }
  | _ => none

end Cursor

namespace Transaction

/-- The binary form of a transaction. -/
def codec : Codec Transaction :=
  .via
    (.pair .text <| .pair .u64 <| .pair .text <| .pair .i64 <| .pair .text <|
      .pair .text <| .pair .u64 <| .pair .text .text)
    (fun (hash, blockHeight, kind, timestamp, sender, receiver, amount, publicKey,
        verification) =>
      { hash, blockHeight, kind, timestamp, sender, receiver, amount, publicKey,
        verification })
    (fun transaction =>
      (transaction.hash, transaction.blockHeight, transaction.kind, transaction.timestamp,
        transaction.sender, transaction.receiver, transaction.amount, transaction.publicKey,
        transaction.verification))

def toJson (transaction : Transaction) : Json :=
  .ofMembers
    [("hash", .ofText transaction.hash),
     ("block_height", .ofNat transaction.blockHeight.toNat),
     ("tx_type", .ofText transaction.kind),
     ("timestamp", .ofInt transaction.timestamp.toInt),
     ("sender", .ofText transaction.sender),
     ("receiver", .ofText transaction.receiver),
     ("amount", .ofNat transaction.amount.toNat),
     ("pub_key", .ofText transaction.publicKey),
     ("verify", .ofText transaction.verification)]

def ofJson? (document : Json) : Option Transaction := do
  match ← document.allFields?
      ["hash", "block_height", "tx_type", "timestamp", "sender", "receiver", "amount",
       "pub_key", "verify"] with
  | [hash, blockHeight, kind, timestamp, sender, receiver, amount, publicKey,
      verification] =>
    some
      { hash := ← hash.text?
        blockHeight := ← blockHeight.u64?
        kind := ← kind.text?
        timestamp := ← timestamp.i64?
        sender := ← sender.text?
        receiver := ← receiver.text?
        amount := ← amount.u64?
        publicKey := ← publicKey.text?
        verification := ← verification.text? }
  | _ => none

end Transaction

namespace Block

/-- The binary form of a block. -/
def codec : Codec Block :=
  .via
    (.pair .u64 <| .pair .text <| .pair .text <| .pair .i64 <| .pair .text <|
      .list Transaction.codec)
    (fun (height, hash, previousHash, timestamp, merkleRoot, transactions) =>
      { height, hash, previousHash, timestamp, merkleRoot, transactions })
    (fun block =>
      (block.height, block.hash, block.previousHash, block.timestamp, block.merkleRoot,
        block.transactions))

def toJson (block : Block) : Json :=
  .ofMembers
    [("height", .ofNat block.height.toNat),
     ("hash", .ofText block.hash),
     ("previous_hash", .ofText block.previousHash),
     ("timestamp", .ofInt block.timestamp.toInt),
     ("merkle_root", .ofText block.merkleRoot),
     ("transactions", .array (block.transactions.map Transaction.toJson))]

def ofJson? (document : Json) : Option Block := do
  match ← document.allFields?
      ["height", "hash", "previous_hash", "timestamp", "merkle_root", "transactions"] with
  | [height, hash, previousHash, timestamp, merkleRoot, transactions] =>
    some
      { height := ← height.u64?
        hash := ← hash.text?
        previousHash := ← previousHash.text?
        timestamp := ← timestamp.i64?
        merkleRoot := ← merkleRoot.text?
        transactions := ← transactions.list? Transaction.ofJson? }
  | _ => none

end Block

end LedgerNode
