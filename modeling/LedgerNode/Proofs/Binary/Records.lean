import LedgerNode.Proofs.Gossip.Envelope
import LedgerNode.Proofs.Peer.Format

namespace LedgerNode

/-!
# Records that delimit themselves

Every record that a node stores or sends has a self-delimiting format.  Where one
ends does not have to be told by what stands around it.
-/

/-- The records of a node delimit themselves.  Each is read back from its own bytes
and from the front of longer ones, the bytes behind it are counted where none may
follow, and a record that is cut short is refused for want of bytes. -/
theorem Codec.records_selfDelimiting :
    Cursor.codec.SelfDelimiting Cursor.Fits ∧
    Transaction.codec.SelfDelimiting Transaction.Fits ∧
    Block.codec.SelfDelimiting Block.Fits ∧
    Peer.codec.SelfDelimiting Peer.Fits ∧
    Envelope.codec.SelfDelimiting Envelope.Fits ∧
    DirectoryResponse.codec.SelfDelimiting DirectoryResponse.Fits :=
  ⟨Cursor.codec_delimits.selfDelimiting, Transaction.codec_delimits.selfDelimiting,
    Block.codec_delimits.selfDelimiting, Peer.codec_delimits.selfDelimiting,
    Envelope.codec_delimits.selfDelimiting, DirectoryResponse.codec_delimits.selfDelimiting⟩

/-- A transaction with integers of every width. -/
def extremeTransaction : Transaction where
  hash := "T"
  blockHeight := 4294967296
  kind := "spend"
  timestamp := Int64.minValue
  sender := ""
  receiver := "N€"
  amount := 65536
  publicKey := ""
  verification := "ok"

theorem Codec.records_selfDelimiting_extreme :
    extremeTransaction.Fits ∧
    (let bytes := Transaction.codec.encode extremeTransaction
     Transaction.codec.decodeExact bytes = .ok extremeTransaction ∧
     Transaction.codec.decodeExact (bytes ++ [253, 0]) = .error (.trailing 2) ∧
     RunsOut (Transaction.codec.decodeFront bytes.dropLast) 1) := by
  have fits : extremeTransaction.Fits :=
    ⟨by decide, by decide, by decide, by decide, by decide, by decide⟩
  have delimiting := Codec.records_selfDelimiting.2.1
  refine ⟨fits, delimiting.whole _ fits, (delimiting.followed _ [253, 0] fits (by decide)).2, ?_⟩
  have split : Transaction.codec.encode extremeTransaction =
      (Transaction.codec.encode extremeTransaction).dropLast ++ [107] := by decide
  exact (delimiting.cut _ _ [107] fits split (by decide)).1

end LedgerNode
