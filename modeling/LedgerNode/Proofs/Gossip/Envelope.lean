import LedgerNode.Gossip.Envelope
import LedgerNode.Proofs.Ledger.Format

namespace LedgerNode

/-!
# Envelopes are opened as they were closed

An envelope whose records fit into a machine is read back from its bytes, and
no bytes are read as an envelope with others.
-/

namespace Envelope

/-- An envelope whose records fit into a machine. -/
def Fits : Envelope → Prop
  | newBlock block transactions => block.Fits ∧ transactions.length < 2 ^ 64 ∧
      ∀ transaction ∈ transactions, transaction.Fits
  | newTransactions transactions => transactions.length < 2 ^ 64 ∧
      ∀ transaction ∈ transactions, transaction.Fits

/-- The same of the content by its number. -/
def ContentFits : (index : Fin 2) → Content index → Prop
  | 0, (content : Block × List Transaction) => content.1.Fits ∧ content.2.length < 2 ^ 64 ∧
      ∀ transaction ∈ content.2, transaction.Fits
  | 1, (content : List Transaction) => content.length < 2 ^ 64 ∧
      ∀ transaction ∈ content, transaction.Fits

theorem contentCodec_delimits (index : Fin 2) :
    (contentCodec index).Delimits (ContentFits index) := by
  have transactions := Codec.list_delimits Transaction.codec_delimits
  match index with
  | 0 => exact Codec.pair_delimits Block.codec_delimits transactions
  | 1 => exact transactions

theorem codec_delimits : codec.Delimits Fits := by
  have variants : (Codec.variant "GossipEnvelope" 2 contentCodec).Delimits
      fun content => ContentFits content.1 content.2 :=
    Codec.variant_delimits contentCodec_delimits (by decide)
  have inverse : ∀ envelope : Envelope, ofContent envelope.toContent = envelope := by
    intro envelope
    cases envelope <;> rfl
  refine (Codec.via_delimits variants inverse).restrict fun envelope fits => ?_
  cases envelope with
  | newBlock block transactions => exact fits
  | newTransactions transactions => exact fits

theorem decode_encode {envelope : Envelope} (fits : envelope.Fits) :
    decode envelope.encode = .ok envelope :=
  codec_delimits.roundTrips.decodeExact fits

theorem contentCodec_yields (index : Fin 2) :
    (contentCodec index).Yields (ContentFits index) := by
  have transactions := Codec.list_yields Transaction.codec_yields
  match index with
  | 0 => exact Codec.pair_yields Block.codec_yields transactions
  | 1 => exact transactions

/-- Whatever the bytes are, an envelope that is read from them can be stored. -/
theorem codec_yields : codec.Yields Fits := by
  intro bytes envelope rest read
  have variants : (Codec.variant "GossipEnvelope" 2 contentCodec).Yields
      fun content => ContentFits content.1 content.2 := Codec.variant_yields contentCodec_yields
  rcases Codec.via_yields variants _ _ bytes envelope rest read with ⟨⟨index, content⟩, fits, rfl⟩
  match index, content, fits with
  | 0, _, fits => exact fits
  | 1, _, fits => exact fits

end Envelope

end LedgerNode
