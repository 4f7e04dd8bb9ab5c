import LedgerNode.Bytes.Utf8

namespace LedgerNode

/-!
# JSON documents

A document keeps the spelling of its numbers and strings.  Reading one is
therefore a matter of grammar alone: whether a number fits a field, or whether
the escapes of a string spell a text, is asked only of the parts that somebody
uses.  A part nobody uses may hold a number without bounds or half of a
surrogate pair.

Member names are spelled the same way, and a document may repeat a name.  The
records decide what a repetition means to them.
-/

/-- A document as it is written, blanks aside. -/
inductive Json where
  | null
  | bool (value : Bool)
  | number (spelling : Bytes)
  /-- The bytes between the quotes, escapes included. -/
  | string (spelling : Bytes)
  | array (items : List Json)
  | object (members : List (Bytes × Json))

namespace Json

/-! ## Spelling of strings -/

/-- A digit of four bits, in small letters. -/
def hexDigit (number : Nat) : UInt8 :=
  if number < 10 then UInt8.ofNat (48 + number) else UInt8.ofNat (87 + number)

/-- The number that a digit of four bits stands for, in letters of any size. -/
def ofHexDigit? (byte : UInt8) : Option Nat :=
  if 48 ≤ byte.toNat ∧ byte.toNat ≤ 57 then some (byte.toNat - 48)
  else if 97 ≤ byte.toNat ∧ byte.toNat ≤ 102 then some (byte.toNat - 87)
  else if 65 ≤ byte.toNat ∧ byte.toNat ≤ 70 then some (byte.toNat - 55)
  else none

def ofHexDigits? (first second third fourth : UInt8) : Option Nat := do
  let a ← ofHexDigit? first
  let b ← ofHexDigit? second
  let c ← ofHexDigit? third
  let d ← ofHexDigit? fourth
  some (((a * 16 + b) * 16 + c) * 16 + d)

/-- How one byte of a text is spelled.  Quotes, backslashes and control
characters are escaped; everything else stands for itself. -/
def escapeByte (byte : UInt8) : Bytes :=
  if byte = 0x22 then [0x5C, 0x22]
  else if byte = 0x5C then [0x5C, 0x5C]
  else if byte = 0x08 then [0x5C, 0x62]
  else if byte = 0x0C then [0x5C, 0x66]
  else if byte = 0x0A then [0x5C, 0x6E]
  else if byte = 0x0D then [0x5C, 0x72]
  else if byte = 0x09 then [0x5C, 0x74]
  else if byte < 0x20 then
    [0x5C, 0x75, 0x30, 0x30, hexDigit (byte.toNat / 16), hexDigit (byte.toNat % 16)]
  else [byte]

def escape (text : String) : Bytes := (Bytes.ofText text).flatMap escapeByte

/-- The byte that a letter after a backslash stands for. -/
def simpleEscape? (letter : UInt8) : Option UInt8 :=
  if letter = 0x22 then some 0x22
  else if letter = 0x5C then some 0x5C
  else if letter = 0x2F then some 0x2F
  else if letter = 0x62 then some 0x08
  else if letter = 0x66 then some 0x0C
  else if letter = 0x6E then some 0x0A
  else if letter = 0x72 then some 0x0D
  else if letter = 0x74 then some 0x09
  else none

/-- The bytes that a spelling stands for.  Two escapes may spell one character
together, as a surrogate pair; a surrogate alone spells nothing. -/
def unescape : Bytes → Option Bytes
  | [] => some []
  | 0x5C :: 0x75 :: a :: b :: c :: d :: rest => do
    let unit ← ofHexDigits? a b c d
    if 0xDC00 ≤ unit ∧ unit ≤ 0xDFFF then none
    else if 0xD800 ≤ unit ∧ unit ≤ 0xDBFF then
      match rest with
      | 0x5C :: 0x75 :: e :: f :: g :: h :: rest =>
        let low ← ofHexDigits? e f g h
        if 0xDC00 ≤ low ∧ low ≤ 0xDFFF then
          let point := (unit - 0xD800) * 0x400 + (low - 0xDC00) + 0x10000
          let bytes ← unescape rest
          some (String.utf8EncodeChar (Char.ofNat point) ++ bytes)
        else none
      | _ => none
    else
      let bytes ← unescape rest
      some (String.utf8EncodeChar (Char.ofNat unit) ++ bytes)
  | 0x5C :: letter :: rest => do
    let byte ← simpleEscape? letter
    let bytes ← unescape rest
    some (byte :: bytes)
  | byte :: rest => do
    let bytes ← unescape rest
    some (byte :: bytes)

def spelledText? (spelling : Bytes) : Option String := do
  let bytes ← unescape spelling
  Utf8.text? bytes

/-! ## Documents for values -/

def ofText (text : String) : Json := .string (escape text)

/-- The document of an integer. -/
def ofInt (number : Int) : Json := .number (Bytes.ofText (toString number))

/-- The document of an unsigned integer. -/
def ofNat (number : Nat) : Json := ofInt number

def text? : Json → Option String
  | .string spelling => spelledText? spelling
  | _ => none

/-- The truth value of a document. -/
def bool? : Json → Option Bool
  | .bool value => some value
  | _ => none

def items? : Json → Option (List Json)
  | .array items => some items
  | _ => none

/-- The number spelled by decimal digits. -/
def digits? (bytes : Bytes) : Option Nat :=
  if bytes.isEmpty then none
  else bytes.foldlM (fun number byte =>
    if 48 ≤ byte.toNat ∧ byte.toNat ≤ 57 then some (10 * number + (byte.toNat - 48))
    else none) 0

/-- The integer that a number document spells.  A fraction or an exponent, if
only a zero one, makes it no integer, and neither is a negative zero. -/
def int? : Json → Option Int
  | .number (0x2D :: digits) => do
    let number ← digits? digits
    if number = 0 then none else some (-(number : Int))
  | .number digits => (digits? digits).map Int.ofNat
  | _ => none

def intBetween? (least greatest : Int) (document : Json) : Option Int := do
  let number ← document.int?
  if least ≤ number ∧ number ≤ greatest then some number else none

/-- An unsigned integer of eight bits. -/
def u8? (document : Json) : Option UInt8 :=
  (document.intBetween? 0 0xFF).map fun number => UInt8.ofNat number.toNat

/-- An unsigned integer of sixteen bits. -/
def u16? (document : Json) : Option UInt16 :=
  (document.intBetween? 0 0xFFFF).map fun number => UInt16.ofNat number.toNat

/-- An unsigned integer of sixty-four bits. -/
def u64? (document : Json) : Option UInt64 :=
  (document.intBetween? 0 0xFFFFFFFFFFFFFFFF).map fun number => UInt64.ofNat number.toNat

/-- A signed integer of sixty-four bits. -/
def i64? (document : Json) : Option Int64 :=
  (document.intBetween? (-0x8000000000000000) 0x7FFFFFFFFFFFFFFF).map Int64.ofInt

/-- A list whose items are all read by `item`. -/
def list? (item : Json → Option Value) (document : Json) : Option (List Value) := do
  let items ← document.items?
  items.mapM item

/-- An object with the given members, in this order. -/
def ofMembers (members : List (String × Json)) : Json :=
  .object (members.map fun (name, value) => (escape name, value))

end Json

end LedgerNode
