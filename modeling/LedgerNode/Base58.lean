import LedgerNode.Bytes

namespace LedgerNode

/-!
# Base 58

A byte string is a number, most significant byte first, written in fifty-eight
symbols.  Symbols that look alike are left out of the alphabet.  A number does
not tell how many zero bytes stand in front of it, so each of these is written
as the symbol for zero.

In any base a number is a list of digits with the lowest first.  No list of
digits ends in a zero, so zero itself has none, and a number has one list of
digits in each base.
-/

/-! ## Digits in a base -/

namespace Radix

/-- The digits of a number, lowest first.  The base is at least two. -/
def digits (base number : Nat) : List Nat :=
  if number = 0 ∨ base < 2 then []
  else number % base :: digits base (number / base)
termination_by number
decreasing_by exact Nat.div_lt_self (by omega) (by omega)

/-- The number whose digits are given lowest first. -/
def ofDigits (base : Nat) : List Nat → Nat
  | [] => 0
  | digit :: rest => digit + base * ofDigits base rest

end Radix

/-! ## Symbols -/

/-- Why a text spells no byte string.  Positions count bytes of the text. -/
inductive Base58Fault where
  | nonAscii (position : Nat)
  | symbol (character : Char) (position : Nat)
deriving DecidableEq

namespace Base58

/-- The symbols in the order of their values. -/
def alphabet : List Char :=
  "123456789ABCDEFGHJKLMNPQRSTUVWXYZabcdefghijkmnopqrstuvwxyz".toList

/-- The symbol for a value below fifty-eight. -/
def symbol (value : Nat) : Char := alphabet.getD value '1'

def value? (character : Char) : Option Nat := alphabet.idxOf? character

/-- A number in base 58, highest symbol first; zero is written by no symbol. -/
def numeral (number : Nat) : List Char := (Radix.digits 58 number).reverse.map symbol

def encode (bytes : Bytes) : String :=
  String.ofList (List.replicate (bytes.takeWhile (· == 0)).length '1' ++
    numeral (Bytes.toNatBigEndian bytes))

/-- The values of the symbols that stand at position `position`. -/
def readSymbols (position : Nat) : Bytes → Except Base58Fault (List Nat)
  | [] => .ok []
  | byte :: rest =>
    if 128 ≤ byte.toNat then .error (.nonAscii position)
    else
      let character := Char.ofNat byte.toNat
      match value? character with
      | none => .error (.symbol character position)
      | some value => (readSymbols (position + 1) rest).map (value :: ·)

def decode (text : String) : Except Base58Fault Bytes := do
  let values ← readSymbols 0 (Bytes.ofText text)
  let number := Radix.ofDigits 58 values.reverse
  let zeros := (values.takeWhile (· == 0)).length
  .ok (List.replicate zeros 0 ++ (Radix.digits 256 number).reverse.map UInt8.ofNat)

end Base58

namespace Base58Fault

/-- A character as a quoted literal, with escapes for controls. -/
def literal (character : Char) : String :=
  let body :=
    if character = '\x00' then "\\0"
    else if character = '\t' then "\\t"
    else if character = '\r' then "\\r"
    else if character = '\n' then "\\n"
    else if character = '\x27' then "\\'"
    else if character = '\x5c' then "\\\\"
    else if character.toNat < 32 ∨ character.toNat = 127 then
      "\\u\x7b" ++ String.ofList (Nat.toDigits 16 character.toNat) ++ "\x7d"
    else character.toString
  "'" ++ body ++ "'"

/-- One sentence about the fault. -/
def message : Base58Fault → String
  | nonAscii position =>
    s!"provided string contained non-ascii character starting at byte {position}"
  | symbol character position =>
    s!"provided string contained invalid character {literal character} at byte {position}"

end Base58Fault

end LedgerNode
