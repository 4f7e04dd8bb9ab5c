import LedgerNode.Proofs.Bytes
import LedgerNode.Proofs.Ledger.Format

namespace LedgerNode

/-!
# Hashes are short, and as different as digests

All digests have one length, so the hash of a record is as short as its tag
allows, whatever the record holds.  A block that is built on a hash that fits
into a machine therefore fits into a machine itself.

Two hashes under one tag are equal exactly when the digests are.
-/

namespace Sha256

@[simp]
theorem length_digest (message : Bytes) : (digest message).length = 32 := by
  simp [digest, State.bytes, State.words, Bytes.bigEndian]

end Sha256

namespace Hex

theorem length_ofText_upper (bytes : Bytes) :
    (Bytes.ofText (upper bytes)).length = 2 * bytes.length := by
  have digits : ∀ value < 16, (String.utf8EncodeChar (upperDigit value)).length = 1 := by decide
  rw [upper, Bytes.ofText_ofList]
  induction bytes with
  | nil => rfl
  | cons byte rest ih =>
      have bound := byte.toNat_lt
      have high := digits (byte.toNat / 16) (by omega)
      have low := digits (byte.toNat % 16) (by omega)
      simp only [List.flatMap_cons, List.flatMap_append, List.flatMap_nil, List.length_append,
        List.length_nil, high, low, ih, List.length_cons]
      omega

theorem upperDigit_inj {first second : Nat} (one : first < 16) (other : second < 16) :
    upperDigit first = upperDigit second ↔ first = second := by
  have digits : ∀ first < 16, ∀ second < 16,
      upperDigit first = upperDigit second → first = second := by decide
  constructor
  · exact digits first one second other
  · exact congrArg upperDigit

theorem upper_inj {first second : Bytes} : upper first = upper second ↔ first = second := by
  rw [upper, upper, String.ofList_inj]
  induction first generalizing second with
  | nil => cases second <;> simp
  | cons byte rest ih =>
      cases second with
      | nil => simp
      | cons other others =>
          have bound := byte.toNat_lt
          have limit := other.toNat_lt
          have high := upperDigit_inj (show byte.toNat / 16 < 16 by omega)
            (show other.toNat / 16 < 16 by omega)
          have low := upperDigit_inj (show byte.toNat % 16 < 16 by omega)
            (show other.toNat % 16 < 16 by omega)
          have digits : byte.toNat / 16 = other.toNat / 16 ∧
              byte.toNat % 16 = other.toNat % 16 ↔ byte = other := by
            rw [← UInt8.toNat_inj]
            omega
          simp only [List.flatMap_cons, List.cons_append, List.nil_append, List.cons.injEq, high,
            low, ih, ← and_assoc, digits]

end Hex

namespace RecordHash

theorem tagged_inj {tag first second : String} :
    tagged tag first = tagged tag second ↔
      Sha256.digest (Bytes.ofText first) = Sha256.digest (Bytes.ofText second) := by
  rw [tagged, tagged, String.append_right_inj, Hex.upper_inj, List.append_cancel_left_eq]

theorem length_ofText_tagged (tag input : String) :
    (Bytes.ofText (tagged tag input)).length = (Bytes.ofText tag).length + 72 := by
  have salted : salt.length = 4 := by decide
  rw [tagged, Bytes.ofText_append, List.length_append, Hex.length_ofText_upper,
    List.length_append, Sha256.length_digest, salted]

end RecordHash

theorem Transaction.computeHash_fits (transaction : Transaction) :
    TextFits transaction.computeHash := by
  have tag : (Bytes.ofText RecordHash.transactionTag).length = 1 := by decide
  rw [TextFits, computeHash, RecordHash.length_ofText_tagged, tag]
  decide

theorem Block.computeHash_fits (block : Block) : TextFits block.computeHash := by
  have tag : (Bytes.ofText RecordHash.blockTag).length = 1 := by decide
  unfold computeHash
  split
  · decide
  · rw [TextFits, RecordHash.length_ofText_tagged, tag]
    decide

theorem Block.build_fits (height : UInt64) {previousHash : String} (timestamp : Int64)
    {transactions : List Transaction} (previous : TextFits previousHash)
    (count : transactions.length < 2 ^ 64)
    (fits : ∀ transaction ∈ transactions, transaction.Fits) :
    (build height previousHash timestamp transactions).Fits where
  hash := Block.computeHash_fits _
  previousHash := previous
  merkleRoot := show TextFits "" by decide
  count := count
  transactions := fits

end LedgerNode
