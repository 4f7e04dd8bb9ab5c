import LedgerNode.Bytes

namespace LedgerNode

/-!
# Messages in blocks

Both digests of the node read a message in blocks of sixty-four bytes.  The
message is followed by one set bit, as many zeros as are needed, and its
length in bits, so that messages of different lengths end differently.
-/

namespace Digest

/-- How many zero bytes stand between the set bit and the length. -/
def zeroCount (length : Nat) : Nat := (119 - length % 64) % 64

/-- A message followed by the set bit, the zeros and the eight bytes of its
length in bits, as `layout` writes them. -/
def pad (layout : Nat → Bytes) (message : Bytes) : Bytes :=
  message ++ 0x80 :: List.replicate (zeroCount message.length) 0 ++
    layout (8 * message.length)

/-- The consecutive pieces of `size` bytes; the last piece may be shorter. -/
def pieces (size : Nat) (bytes : Bytes) : List Bytes :=
  if bytes.length ≤ size ∨ size = 0 then [bytes]
  else bytes.take size :: pieces size (bytes.drop size)
termination_by bytes.length
decreasing_by simp only [List.length_drop]; omega

/-- The words of a block, each from four bytes. -/
def words (toNat : Bytes → Nat) (block : Bytes) : List UInt32 :=
  (pieces 4 block).map fun piece => UInt32.ofNat (toNat piece)

/-- A word rotated towards its high end by `count` places, `0 < count < 32`. -/
def rotateLeft (word : UInt32) (count : UInt32) : UInt32 :=
  (word <<< count) ||| (word >>> (32 - count))

/-- A word rotated towards its low end by `count` places, `0 < count < 32`. -/
def rotateRight (word : UInt32) (count : UInt32) : UInt32 :=
  (word >>> count) ||| (word <<< (32 - count))

end Digest

end LedgerNode
