import LedgerNode.Ledger.Format
import LedgerNode.Proofs.Binary.Truncation

namespace LedgerNode

/-!
# Ledger records are read back

Cursors, transactions and blocks come out of the store as they went in.  The
only condition is that their texts and lists fit into a machine, and whatever
comes out of a store does.  Their formats are self-delimiting.
-/

namespace Cursor

/-- A cursor whose hash fits into a machine. -/
def Fits (cursor : Cursor) : Prop := TextFits cursor.hash

theorem codec_delimits : codec.Delimits Fits := by
  have content := Codec.pair_delimits Codec.u64_delimits Codec.text_delimits
  exact (Codec.via_delimits content fun _ => rfl).restrict fun cursor fits => ⟨trivial, fits⟩

theorem codec_roundTrips : codec.RoundTrips Fits := codec_delimits.roundTrips

end Cursor

namespace Transaction

/-- A transaction whose texts fit into a machine. -/
structure Fits (transaction : Transaction) : Prop where
  hash : TextFits transaction.hash
  kind : TextFits transaction.kind
  sender : TextFits transaction.sender
  receiver : TextFits transaction.receiver
  publicKey : TextFits transaction.publicKey
  verification : TextFits transaction.verification

theorem Fits.confirmedAt {transaction : Transaction} (fits : transaction.Fits)
    (height : UInt64) : (transaction.confirmedAt height).Fits where
  hash := fits.hash
  kind := fits.kind
  sender := fits.sender
  receiver := fits.receiver
  publicKey := fits.publicKey
  verification := fits.verification

theorem codec_delimits : codec.Delimits Fits := by
  have text := Codec.text_delimits
  have number := Codec.u64_delimits
  have content :=
    Codec.pair_delimits text <| Codec.pair_delimits number <|
      Codec.pair_delimits text <| Codec.pair_delimits Codec.i64_delimits <|
      Codec.pair_delimits text <| Codec.pair_delimits text <|
      Codec.pair_delimits number <| Codec.pair_delimits text text
  refine (Codec.via_delimits content fun _ => rfl).restrict fun transaction fits => ?_
  exact ⟨fits.hash, trivial, fits.kind, trivial, fits.sender, fits.receiver, trivial,
    fits.publicKey, fits.verification⟩

theorem codec_roundTrips : codec.RoundTrips Fits := codec_delimits.roundTrips

theorem codec_yields : codec.Yields Fits := by
  intro bytes transaction rest read
  have text := Codec.text_yields
  have number := Codec.yields_true Codec.u64
  have content :=
    Codec.pair_yields text <| Codec.pair_yields number <|
      Codec.pair_yields text <| Codec.pair_yields (Codec.yields_true Codec.i64) <|
      Codec.pair_yields text <| Codec.pair_yields text <|
      Codec.pair_yields number <| Codec.pair_yields text text
  rcases Codec.via_yields content _ _ bytes transaction rest read with ⟨fields, fit, same⟩
  rcases fit with ⟨hash, -, kind, -, sender, receiver, -, publicKey, verification⟩
  subst same
  exact ⟨hash, kind, sender, receiver, publicKey, verification⟩

end Transaction

namespace Block

/-- A block whose texts and transactions fit into a machine. -/
structure Fits (block : Block) : Prop where
  hash : TextFits block.hash
  previousHash : TextFits block.previousHash
  merkleRoot : TextFits block.merkleRoot
  count : block.transactions.length < 2 ^ 64
  transactions : ∀ transaction ∈ block.transactions, transaction.Fits

theorem fits_genesis : genesis.Fits where
  hash := by decide
  previousHash := by decide
  merkleRoot := by decide
  count := by decide
  transactions := by
    intro transaction member
    cases member

theorem codec_delimits : codec.Delimits Fits := by
  have text := Codec.text_delimits
  have content :=
    Codec.pair_delimits Codec.u64_delimits <| Codec.pair_delimits text <|
      Codec.pair_delimits text <| Codec.pair_delimits Codec.i64_delimits <|
      Codec.pair_delimits text (Codec.list_delimits Transaction.codec_delimits)
  refine (Codec.via_delimits content fun _ => rfl).restrict fun block fits => ?_
  exact ⟨trivial, fits.hash, fits.previousHash, trivial, fits.merkleRoot, fits.count,
    fits.transactions⟩

theorem codec_roundTrips : codec.RoundTrips Fits := codec_delimits.roundTrips

theorem codec_yields : codec.Yields Fits := by
  intro bytes block rest read
  have text := Codec.text_yields
  have content :=
    Codec.pair_yields (Codec.yields_true Codec.u64) <| Codec.pair_yields text <|
      Codec.pair_yields text <| Codec.pair_yields (Codec.yields_true Codec.i64) <|
      Codec.pair_yields text (Codec.list_yields Transaction.codec_yields)
  rcases Codec.via_yields content _ _ bytes block rest read with ⟨fields, fit, same⟩
  rcases fit with ⟨-, hash, previousHash, -, merkleRoot, count, transactions⟩
  subst same
  exact ⟨hash, previousHash, merkleRoot, count, transactions⟩

end Block

theorem Cursor.fits_genesis : genesis.Fits := Block.fits_genesis.hash

theorem Cursor.fits_ofBlock {block : Block} (fits : block.Fits) : (Cursor.ofBlock block).Fits :=
  fits.hash

end LedgerNode
