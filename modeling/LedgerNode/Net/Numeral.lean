namespace LedgerNode

/-!
# Numbers in texts

Addresses and settings hold numbers of a limited form.  A number is read from
the front of a text, as far as its digits go, or it is the whole of a text.
-/

/-- Why a text is not a number of a field. -/
inductive NumberFault where
  | empty
  | digit
  | tooLarge
deriving DecidableEq

/-- Why a text is no number, in words. -/
def NumberFault.message : NumberFault → String
  | empty => "cannot parse integer from empty string"
  | digit => "invalid digit found in string"
  | tooLarge => "number too large to fit in target type"

namespace Numeral

/-- The value of a digit in a base up to sixteen, in letters of any size. -/
def digit? (radix : Nat) (character : Char) : Option Nat :=
  let code := character.toNat
  let value :=
    if 48 ≤ code ∧ code ≤ 57 then code - 48
    else if 97 ≤ code ∧ code ≤ 102 then code - 87
    else if 65 ≤ code ∧ code ≤ 70 then code - 55
    else 16
  if value < radix then some value else none

/-- What a number in a text may look like. -/
structure Form where
  radix : Nat
  /-- The greatest number of digits, if there is one. -/
  mostDigits : Option Nat
  /-- Whether a number of several digits may start with a zero. -/
  mayPad : Bool
  greatest : Nat

/-- Read all digits at the front as one number of the given form. -/
def read (form : Form) (text : List Char) : Option (Nat × List Char) :=
  let isDigit := fun character => (digit? form.radix character).isSome
  let digits := (text.takeWhile isDigit).filterMap (digit? form.radix)
  let value := digits.foldl (fun value digit => form.radix * value + digit) 0
  if digits.isEmpty then none
  else if form.mostDigits.any (· < digits.length) then none
  else if !form.mayPad ∧ digits.head? = some 0 ∧ 1 < digits.length then none
  else if form.greatest < value then none
  else some (value, text.dropWhile isDigit)

/-- Continue a number by the digits of a text.  The first character that is no
digit or makes the number too large decides. -/
def continueDecimal (greatest : Nat) : (value : Nat) → List Char → Except NumberFault Nat
  | value, [] => .ok value
  | value, character :: rest =>
    match digit? 10 character with
    | none => .error .digit
    | some digit =>
      if greatest < 10 * value + digit then .error .tooLarge
      else continueDecimal greatest (10 * value + digit) rest

/-- The number that a text in decimal digits spells.  A plus may stand in
front. -/
def ofDecimal (greatest : Nat) (text : String) : Except NumberFault Nat :=
  match text.toList with
  | [] => .error .empty
  | ['+'] => .error .digit
  | '+' :: digits => continueDecimal greatest 0 digits
  | digits => continueDecimal greatest 0 digits

end Numeral

def readCharacter (expected : Char) : List Char → Option (List Char)
  | [] => none
  | character :: rest => if character = expected then some rest else none

end LedgerNode
