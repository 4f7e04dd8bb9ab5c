import LedgerNode.Bytes

namespace LedgerNode

/-!
# Hexadecimal text

Each byte is written as two digits, the high half first.  Hashes and
addresses use capital digits; keys and message ids use small ones.  Reading
accepts small digits only and whole bytes only.
-/

/-- Why a text is not the small-digit form of a byte string.  Positions count
bytes of the text. -/
inductive HexFault where
  /-- The text ends inside a byte; the position is where that byte starts. -/
  | length (position : Nat)
  | symbol (position : Nat)
deriving DecidableEq

namespace HexFault

/-- One sentence about the fault. -/
def message : HexFault → String
  | length position => s!"invalid length at {position}"
  | symbol position => s!"invalid symbol at {position}"

end HexFault

namespace Hex

/-- The capital digit of a number below sixteen. -/
def upperDigit (number : Nat) : Char :=
  if number < 10 then Char.ofNat (48 + number) else Char.ofNat (55 + number)

/-- The small digit of a number below sixteen. -/
def lowerDigit (number : Nat) : Char :=
  if number < 10 then Char.ofNat (48 + number) else Char.ofNat (87 + number)

/-- The number that a small digit stands for. -/
def ofLowerDigit? (byte : UInt8) : Option Nat :=
  if 48 ≤ byte.toNat && byte.toNat ≤ 57 then some (byte.toNat - 48)
  else if 97 ≤ byte.toNat && byte.toNat ≤ 102 then some (byte.toNat - 87)
  else none

def upper (bytes : Bytes) : String :=
  String.ofList (bytes.flatMap fun byte =>
    [upperDigit (byte.toNat / 16), upperDigit (byte.toNat % 16)])

def lower (bytes : Bytes) : String :=
  String.ofList (bytes.flatMap fun byte =>
    [lowerDigit (byte.toNat / 16), lowerDigit (byte.toNat % 16)])

/-- Read pairs of small digits that stand at position `position`. -/
def decodePairs (position : Nat) : Bytes → Except HexFault Bytes
  | high :: low :: rest =>
    match ofLowerDigit? high, ofLowerDigit? low with
    | none, _ => .error (.symbol position)
    | some _, none => .error (.symbol (position + 1))
    | some high, some low =>
      (decodePairs (position + 2) rest).map (UInt8.ofNat (16 * high + low) :: ·)
  | _ => .ok []

/-- The byte string that a text in small digits stands for.  An odd length is
reported before any symbol. -/
def decodeLower (text : String) : Except HexFault Bytes :=
  let bytes := Bytes.ofText text
  if bytes.length % 2 = 1 then .error (.length (bytes.length - 1))
  else decodePairs 0 bytes

end Hex

end LedgerNode
