namespace LedgerNode

/-!
# Byte strings

Whatever the node hashes, stores or sends is a finite list of bytes.  Lists
are used rather than arrays because every format of the node is read from the
front, and a reader on a list returns the bytes it did not use.

Numbers are laid out in a fixed width.  Writing keeps the low digits only, so
a caller that wants the number back chooses a width that holds it.
-/

/-- A byte string. -/
abbrev Bytes := List UInt8

namespace Bytes

def ofText (text : String) : Bytes := text.toByteArray.data.toList

/-- The lowest `width` bytes of a number, least significant first. -/
def littleEndian : (width number : Nat) → Bytes
  | 0, _ => []
  | width + 1, number => UInt8.ofNat number :: littleEndian width (number / 256)

/-- The number whose bytes are given least significant first. -/
def toNatLittleEndian : Bytes → Nat
  | [] => 0
  | byte :: rest => byte.toNat + 256 * toNatLittleEndian rest

/-- The lowest `width` bytes of a number, most significant first. -/
def bigEndian (width number : Nat) : Bytes := (littleEndian width number).reverse

/-- The number whose bytes are given most significant first. -/
def toNatBigEndian (bytes : Bytes) : Nat := toNatLittleEndian bytes.reverse

end Bytes

end LedgerNode
