import LedgerNode.Bytes.Utf8

namespace LedgerNode

/-!
# The binary format

A codec writes values of one type as bytes and reads them back from the front
of a longer byte string.  Records are built from codecs for integers, texts,
lists and variants, placed one after another without separators or names.

An unsigned integer takes one byte up to 250.  A greater one follows a leading
byte that tells its width: 251 for two bytes, 252 for four, 253 for eight,
least significant byte first.  The writer always takes the narrowest form.
The reader accepts any form that the type has room for, so a value has one
written form but can have several readable ones.
-/

/-- The integer types a refusal can name. -/
inductive IntegerKind where
  | u16
  | u32
  | u64
  | u128
  | i32
  | i64
  | i128
  | reserved
deriving DecidableEq

namespace IntegerKind

/-- The name of the type in messages. -/
def name : IntegerKind → String
  | u16 => "U16"
  | u32 => "U32"
  | u64 => "U64"
  | u128 => "U128"
  | i32 => "I32"
  | i64 => "I64"
  | i128 => "I128"
  | reserved => "Reserved"

/-- The signed type of the same width. -/
def signed : IntegerKind → IntegerKind
  | u32 => i32
  | u64 => i64
  | u128 => i128
  | other => other

end IntegerKind

/-- Why bytes are not a message of the expected type. -/
inductive DecodeFault where
  /-- A read went past the end by this many bytes. -/
  | unexpectedEnd (additional : Nat)
  | invalidInteger (expected found : IntegerKind)
  | invalidBoolean (found : Nat)
  /-- The variant index of the named type is above the greatest one. -/
  | unexpectedVariant (type : String) (greatest found : Nat)
  | invalidText (fault : Utf8Fault)
  /-- The message is complete, but this many bytes follow it. -/
  | trailing (count : Nat)
  /-- A document in text form is malformed or has the wrong shape. -/
  | malformedDocument (subject : String)
deriving DecidableEq

namespace DecodeFault

/-- The length of an invalid sequence, as an optional number is displayed. -/
def displayLength : Option Nat → String
  | some length => s!"Some({length})"
  | none => "None"

/-- What a reader of one value has to say about its refusal. -/
def detail : DecodeFault → String
  | unexpectedEnd additional => s!"UnexpectedEnd \x7b additional: {additional} \x7d"
  | invalidInteger expected found =>
    s!"InvalidIntegerType \x7b expected: {expected.name}, found: {found.name} \x7d"
  | invalidBoolean found => s!"InvalidBooleanValue({found})"
  | unexpectedVariant type greatest found =>
    s!"UnexpectedVariant \x7b type_name: \"{type}\", " ++
    s!"allowed: Range \x7b min: 0, max: {greatest} \x7d, found: {found} \x7d"
  | invalidText fault =>
    s!"Utf8 \x7b inner: Utf8Error \x7b valid_up_to: {fault.validUpTo}, " ++
    s!"error_len: {displayLength fault.length} \x7d \x7d"
  | trailing count => s!"{count} trailing bytes after message"
  | malformedDocument subject => s!"Bad {subject}"

/-- One sentence about the fault. -/
def message : DecodeFault → String
  | trailing count => detail (trailing count)
  | malformedDocument subject => detail (malformedDocument subject)
  | fault => "Deserialization failed: " ++ fault.detail

end DecodeFault

/-- A written form for the values of a type, and a reader that returns the
bytes it did not use. -/
structure Codec (Value : Type) where
  encode : Value → Bytes
  decode : Bytes → Except DecodeFault (Value × Bytes)

/-- How wide an unsigned integer type is. -/
inductive Width where
  | w16
  | w32
  | w64
deriving DecidableEq

namespace Width

/-- How many bits the type has. -/
def bits : Width → Nat
  | w16 => 16
  | w32 => 32
  | w64 => 64

/-- The type that a refusal names as the expected one when `available` bytes
were left, the leading byte included.  A wide integer is named as a narrow
one where its longest form would have fitted into the bytes that are left. -/
def expected (width : Width) (available : Nat) : IntegerKind :=
  match width with
  | w16 => .u16
  | w32 => .u32
  | w64 => if 9 ≤ available then .u32 else .u64

end Width

namespace Varint

/-- The narrowest form of a number below `2 ^ 64`. -/
def encode (number : Nat) : Bytes :=
  if number ≤ 250 then [UInt8.ofNat number]
  else if number < UInt16.size then 251 :: Bytes.littleEndian 2 number
  else if number < UInt32.size then 252 :: Bytes.littleEndian 4 number
  else 253 :: Bytes.littleEndian 8 number

def announced (lead : UInt8) : IntegerKind :=
  if lead = 252 then .u32 else if lead = 253 then .u64
  else if lead = 254 then .u128 else .reserved

/-- Split off the first `count` bytes. -/
def take (count : Nat) (bytes : Bytes) : Except DecodeFault (Bytes × Bytes) :=
  if count ≤ bytes.length then .ok (bytes.take count, bytes.drop count)
  else .error (.unexpectedEnd (count - bytes.length))

/-- Read a number that takes exactly `count` bytes. -/
def decodeFixed (count : Nat) (bytes : Bytes) : Except DecodeFault (Nat × Bytes) :=
  (take count bytes).map fun (taken, rest) => (Bytes.toNatLittleEndian taken, rest)

/-- Read a number in any form that the type has room for. -/
def decode (width : Width) (bytes : Bytes) : Except DecodeFault (Nat × Bytes) :=
  match bytes with
  | [] => .error (.unexpectedEnd 1)
  | lead :: rest =>
    if lead.toNat ≤ 250 then .ok (lead.toNat, rest)
    else if lead = 251 then decodeFixed 2 rest
    else if lead = 252 ∧ 32 ≤ width.bits then decodeFixed 4 rest
    else if lead = 253 ∧ 64 ≤ width.bits then decodeFixed 8 rest
    else .error (.invalidInteger (width.expected bytes.length) (announced lead))

/-- The unsigned number that stands for a signed one: even numbers for zero
and above, odd numbers below zero. -/
def zigzag (number : Int) : Nat :=
  if 0 ≤ number then 2 * number.toNat else 2 * (-number).toNat - 1

/-- The signed number that an unsigned one stands for. -/
def unzigzag (number : Nat) : Int :=
  if number % 2 = 0 then (number / 2 : Nat) else -((number / 2 + 1 : Nat) : Int)

/-- The refusal of an unsigned number, as a signed one reports it. -/
def signedFault : DecodeFault → DecodeFault
  | .invalidInteger expected found => .invalidInteger expected.signed found.signed
  | fault => fault

end Varint

namespace Codec

/-- The value written by no bytes at all. -/
def unit : Codec Unit where
  encode _ := []
  decode bytes := .ok ((), bytes)

/-- Unsigned integers of sixteen bits. -/
def u16 : Codec UInt16 where
  encode number := Varint.encode number.toNat
  decode bytes :=
    (Varint.decode .w16 bytes).map fun (number, rest) => (UInt16.ofNat number, rest)

/-- Unsigned integers of sixty-four bits. -/
def u64 : Codec UInt64 where
  encode number := Varint.encode number.toNat
  decode bytes :=
    (Varint.decode .w64 bytes).map fun (number, rest) => (UInt64.ofNat number, rest)

/-- Signed integers of sixty-four bits. -/
def i64 : Codec Int64 where
  encode number := Varint.encode (Varint.zigzag number.toInt)
  decode bytes :=
    match Varint.decode .w64 bytes with
    | .ok (number, rest) => .ok (Int64.ofInt (Varint.unzigzag number), rest)
    | .error fault => .error (Varint.signedFault fault)

/-- Truth values, as one byte. -/
def bool : Codec Bool where
  encode value := if value then [1] else [0]
  decode
    | [] => .error (.unexpectedEnd 1)
    | byte :: rest =>
      if byte = 0 then .ok (false, rest)
      else if byte = 1 then .ok (true, rest)
      else .error (.invalidBoolean byte.toNat)

/-- Texts: the number of UTF-8 bytes, then those bytes. -/
def text : Codec String where
  encode value :=
    let bytes := Bytes.ofText value
    Varint.encode bytes.length ++ bytes
  decode bytes := do
    let (count, rest) ← Varint.decode .w64 bytes
    let (taken, rest) ← Varint.take count rest
    match Utf8.decode taken with
    | .ok value => .ok (value, rest)
    | .error fault => .error (.invalidText fault)

/-- Read `count` values one after another. -/
def decodeMany (item : Codec Value) :
    (count : Nat) → Bytes → Except DecodeFault (List Value × Bytes)
  | 0, bytes => .ok ([], bytes)
  | count + 1, bytes => do
    let (value, rest) ← item.decode bytes
    let (values, rest) ← decodeMany item count rest
    .ok (value :: values, rest)

/-- Lists: the number of items, then the items. -/
def list (item : Codec Value) : Codec (List Value) where
  encode values := Varint.encode values.length ++ values.flatMap item.encode
  decode bytes := do
    let (count, rest) ← Varint.decode .w64 bytes
    decodeMany item count rest

/-- Two values, one after the other. -/
def pair (first : Codec α) (second : Codec β) : Codec (α × β) where
  encode value := first.encode value.1 ++ second.encode value.2
  decode bytes := do
    let (left, rest) ← first.decode bytes
    let (right, rest) ← second.decode rest
    .ok ((left, right), rest)

/-- The format of one type, used for another one that has the same content. -/
def via (codec : Codec α) (ofContent : α → β) (toContent : β → α) : Codec β where
  encode value := codec.encode (toContent value)
  decode bytes := (codec.decode bytes).map fun (content, rest) => (ofContent content, rest)

/-- One of `count` variants: its index, then its payload.  The name of the
type occurs in refusals only. -/
def variant (name : String) (count : Nat) {Payload : Fin count → Type}
    (payload : (index : Fin count) → Codec (Payload index)) :
    Codec ((index : Fin count) × Payload index) where
  encode value := Varint.encode value.1.val ++ (payload value.1).encode value.2
  decode bytes := do
    let (index, rest) ← Varint.decode .w32 bytes
    if inside : index < count then
      let (content, rest) ← (payload ⟨index, inside⟩).decode rest
      .ok (⟨⟨index, inside⟩, content⟩, rest)
    else .error (.unexpectedVariant name (count - 1) index)

/-- Read a value from the front and leave the rest of the bytes unread. -/
def decodeFront (codec : Codec Value) (bytes : Bytes) : Except DecodeFault Value :=
  (codec.decode bytes).map (·.1)

def decodeExact (codec : Codec Value) (bytes : Bytes) : Except DecodeFault Value := do
  let (value, rest) ← codec.decode bytes
  if rest.isEmpty then .ok value else .error (.trailing rest.length)

end Codec

end LedgerNode
