import LedgerNode.Bytes.Hex
import LedgerNode.Proofs.Bytes

namespace LedgerNode

/-!
# Small hexadecimal digits are read as they are written

The text of a byte string is accepted and gives that byte string.  No other text
gives it: capital digits, a half byte at the end or anything beside the digits is
refused.  So a text in small digits and its byte string are known from each other.
-/

namespace Hex

/-- The byte of the small digit of a number below sixteen. -/
def lowerByte (number : Nat) : UInt8 := UInt8.ofNat (lowerDigit number).toNat

theorem utf8EncodeChar_lowerDigit {number : Nat} (small : number < 16) :
    String.utf8EncodeChar (lowerDigit number) = [lowerByte number] := by
  have each : ∀ number < 16,
      String.utf8EncodeChar (lowerDigit number) = [lowerByte number] := by decide
  exact each number small

theorem ofLowerDigit?_lowerByte {number : Nat} (small : number < 16) :
    ofLowerDigit? (lowerByte number) = some number := by
  have each : ∀ number < 16, ofLowerDigit? (lowerByte number) = some number := by decide
  exact each number small

/-- A byte that stands for a number is the byte of its small digit. -/
theorem lowerByte_of_ofLowerDigit? {byte : UInt8} {number : Nat}
    (stands : ofLowerDigit? byte = some number) : number < 16 ∧ lowerByte number = byte := by
  have each : ∀ value < 256, ∀ number ∈ ofLowerDigit? (UInt8.ofNat value),
      number < 16 ∧ lowerByte number = UInt8.ofNat value := by decide +kernel
  have here := each byte.toNat byte.toNat_lt number
  rw [UInt8.ofNat_toNat] at here
  exact here stands

/-- The two digits of every byte, as bytes. -/
def digits (bytes : Bytes) : Bytes :=
  bytes.flatMap fun byte => [lowerByte (byte.toNat / 16), lowerByte (byte.toNat % 16)]

theorem ofText_lower (bytes : Bytes) : Bytes.ofText (lower bytes) = digits bytes := by
  rw [lower, Bytes.ofText_ofList, digits, List.flatMap_assoc]
  congr 1
  funext byte
  have bound := byte.toNat_lt
  have high := utf8EncodeChar_lowerDigit (show byte.toNat / 16 < 16 by omega)
  have low := utf8EncodeChar_lowerDigit (show byte.toNat % 16 < 16 by omega)
  rw [List.flatMap_cons, List.flatMap_cons, high, low]
  rfl

theorem length_digits (bytes : Bytes) : (digits bytes).length = 2 * bytes.length := by
  induction bytes with
  | nil => rfl
  | cons byte rest ih =>
      change (digits rest).length + 1 + 1 = 2 * (rest.length + 1)
      omega

theorem decodePairs_digits (position : Nat) (bytes : Bytes) :
    decodePairs position (digits bytes) = .ok bytes := by
  induction bytes generalizing position with
  | nil => rfl
  | cons byte rest ih =>
      have bound := byte.toNat_lt
      have whole : 16 * (byte.toNat / 16) + byte.toNat % 16 = byte.toNat := Nat.div_add_mod _ _
      rw [digits, List.flatMap_cons, ← digits, List.cons_append, List.cons_append,
        List.nil_append, decodePairs, ofLowerDigit?_lowerByte (by omega),
        ofLowerDigit?_lowerByte (by omega)]
      dsimp only
      rw [ih, whole, UInt8.ofNat_toNat]
      rfl

/-- What is read from pairs of digits is written in these digits. -/
theorem digits_of_decodePairs {position : Nat} {text bytes : Bytes}
    (even : text.length % 2 = 0) (read : decodePairs position text = .ok bytes) :
    digits bytes = text := by
  induction position, text using decodePairs.induct generalizing bytes with
  | case1 position high low rest missing =>
      rw [decodePairs, missing] at read
      cases read
  | case2 position high low rest first stands missing =>
      rw [decodePairs, stands, missing] at read
      cases read
  | case3 position high low rest first second one other ih =>
      rw [decodePairs, one, other] at read
      cases inner : decodePairs (position + 2) rest with
      | error fault =>
          rw [inner] at read
          cases read
      | ok others =>
          rw [inner] at read
          cases read
          rcases lowerByte_of_ofLowerDigit? one with ⟨small, here⟩
          rcases lowerByte_of_ofLowerDigit? other with ⟨smaller, there⟩
          have value : (UInt8.ofNat (16 * first + second)).toNat = 16 * first + second := by
            rw [UInt8.toNat_ofNat']
            omega
          rw [List.length_cons, List.length_cons] at even
          rw [digits, List.flatMap_cons, ← digits, ih (by omega) inner, value,
            show (16 * first + second) / 16 = first by omega,
            show (16 * first + second) % 16 = second by omega, here, there]
          rfl
  | case4 text position short =>
      -- an even number of bytes without a pair is none
      cases text with
      | nil =>
          cases read
          rfl
      | cons head rest =>
          cases rest with
          | nil => cases even
          | cons next rest => exact (short head next rest rfl).elim

/-- A text stands for a byte string if and only if it is written in small digits. -/
theorem decodeLower_eq_ok_iff {text : String} {bytes : Bytes} :
    decodeLower text = .ok bytes ↔ text = lower bytes := by
  rw [← Bytes.ofText_inj, ofText_lower, decodeLower]
  constructor
  · intro read
    split at read
    next => cases read
    next even => exact (digits_of_decodePairs (by omega) read).symm
  · intro same
    have even : ¬ (digits bytes).length % 2 = 1 := by
      rw [length_digits]
      omega
    rw [same, if_neg even, decodePairs_digits]

theorem lower_inj {first second : Bytes} : lower first = lower second ↔ first = second := by
  constructor
  · intro same
    have read := decodeLower_eq_ok_iff.mpr same
    rw [decodeLower_eq_ok_iff.mpr rfl] at read
    exact Except.ok.inj read
  · exact congrArg lower

end Hex

end LedgerNode
