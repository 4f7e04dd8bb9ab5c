import LedgerNode.Peer.DirectoryMessage
import LedgerNode.Proofs.Binary.Truncation

namespace LedgerNode

/-!
# Peers and answers of directories are read back

The mode and the direction of a peer are written by their numbers, which name
them again.  An answer of a directory is written by the number of its kind and
its content.
-/

theorem NodeMode.codec_delimits : codec.Delimits fun _ => True :=
  Codec.via_delimits (Codec.variant_delimits (fun _ => Codec.unit_delimits) (by decide))
    (fun mode => by cases mode <;> rfl)

theorem Direction.codec_delimits : codec.Delimits fun _ => True :=
  Codec.via_delimits (Codec.variant_delimits (fun _ => Codec.unit_delimits) (by decide))
    (fun direction => by cases direction <;> rfl)

namespace Peer

/-- A peer whose texts fit into a machine. -/
structure Fits (peer : Peer) : Prop where
  address : TextFits peer.address
  id : TextFits peer.id

theorem codec_delimits : codec.Delimits Fits := by
  have text := Codec.text_delimits
  have content :=
    Codec.pair_delimits text <| Codec.pair_delimits Codec.u16_delimits <|
      Codec.pair_delimits text <| Codec.pair_delimits NodeMode.codec_delimits <|
      Codec.pair_delimits Codec.bool_delimits Direction.codec_delimits
  refine (Codec.via_delimits content fun _ => rfl).restrict fun peer fits => ?_
  exact ⟨fits.address, trivial, fits.id, trivial, trivial, trivial⟩

end Peer

namespace DirectoryResponse

/-- The content of an answer, by its number, fits into a machine. -/
def ContentFits : (index : Fin 4) → Content index → Prop
  | 0, (content : Peer) => content.Fits
  | 1, (content : List Peer) => content.length < 2 ^ 64 ∧ ∀ peer ∈ content, peer.Fits
  | 2, (content : String) => TextFits content
  | 3, (content : String) => TextFits content

/-- An answer whose content fits into a machine. -/
def Fits (response : DirectoryResponse) : Prop :=
  ContentFits response.toContent.1 response.toContent.2

theorem contentCodec_delimits (index : Fin 4) :
    (contentCodec index).Delimits (ContentFits index) := by
  match index with
  | 0 => exact Peer.codec_delimits
  | 1 => exact Codec.list_delimits Peer.codec_delimits
  | 2 => exact Codec.text_delimits
  | 3 => exact Codec.text_delimits

theorem codec_delimits : codec.Delimits Fits := by
  have inverse : ∀ response : DirectoryResponse, ofContent response.toContent = response := by
    intro response
    cases response <;> rfl
  exact Codec.via_delimits (Codec.variant_delimits contentCodec_delimits (by decide)) inverse

end DirectoryResponse

end LedgerNode
