import LedgerNode.Bytes

namespace LedgerNode

/-!
# Tagged elements

A key document consists of elements: a tag, a length and a content.  A length
below 128 takes one byte; a greater one takes as many bytes as it needs, with
their number in front.  Only lengths below `2 ^ 16` occur.
-/

namespace Der

def integerTag : UInt8 := 0x02

def bitStringTag : UInt8 := 0x03

def octetStringTag : UInt8 := 0x04

def sequenceTag : UInt8 := 0x30

def contextTag (number : Nat) : UInt8 := .ofNat (0xA0 + number)

/-- Read a length.  A longer form than needed is refused. -/
def readLength : Bytes → Option (Nat × Bytes)
  | [] => none
  | first :: rest =>
    if first < 0x80 then some (first.toNat, rest)
    else if first = 0x81 then
      match rest with
      | second :: rest => if second < 0x80 then none else some (second.toNat, rest)
      | [] => none
    else if first = 0x82 then
      match rest with
      | second :: third :: rest =>
        let length := 256 * second.toNat + third.toNat
        if length < 256 then none else some (length, rest)
      | _ => none
    else none

/-- Read an element with a given tag.  The answer is its content, and what
follows it. -/
def read (tag : UInt8) : Bytes → Option (Bytes × Bytes)
  | [] => none
  | first :: rest =>
    if first = tag then do
      let (length, rest) ← readLength rest
      if length ≤ rest.length then some (rest.take length, rest.drop length) else none
    else none

def isNext (tag : UInt8) (bytes : Bytes) : Bool := bytes.head? == some tag

/-- Read a nonnegative integer of one significant byte, in its only form. -/
def readSmallInteger (bytes : Bytes) : Option (Nat × Bytes) := do
  let (content, rest) ← read integerTag bytes
  match content with
  | [value] => if value < 0x80 then some (value.toNat, rest) else none
  | [0, value] => if value < 0x80 then none else some (value.toNat, rest)
  | _ => none

/-- The bytes of a string of bits that fills them. -/
def readBitString (bytes : Bytes) : Option (Bytes × Bytes) := do
  let (content, rest) ← read bitStringTag bytes
  match content with
  | 0 :: value => some (value, rest)
  | _ => none

/-- The length of a content, in its shortest form. -/
def writeLength (length : Nat) : Bytes :=
  if length < 128 then [.ofNat length]
  else if length < 256 then [0x81, .ofNat length]
  else 0x82 :: Bytes.bigEndian 2 length

def write (tag : UInt8) (content : Bytes) : Bytes :=
  tag :: writeLength content.length ++ content

end Der

end LedgerNode
