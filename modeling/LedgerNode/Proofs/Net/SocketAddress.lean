import Mathlib
import LedgerNode.Net.SocketAddress

namespace LedgerNode

/-!
# Short socket addresses are read back

The text of an address of four bytes and a port is four numbers between dots, a
colon and a fifth number.  Each number is read as far as its digits go, and what
follows it begins with no digit.
-/

namespace Numeral

variable {form : Form} {digits rest : List Char}

/-- What follows a number decides where it ends, and nothing else. -/
theorem read_append (all : ∀ digit ∈ digits, (digit? form.radix digit).isSome = true)
    (ends : rest.head?.all (fun next => (digit? form.radix next).isNone) = true) :
    read form (digits ++ rest) = (read form digits).map fun found => (found.1, rest) := by
  have taken : rest.takeWhile (fun next => (digit? form.radix next).isSome) = [] ∧
      rest.dropWhile (fun next => (digit? form.radix next).isSome) = rest := by
    cases rest with
    | nil => exact ⟨rfl, rfl⟩
    | cons next rest =>
        have none_next : (digit? form.radix next).isSome = false := by simpa using ends
        rw [List.takeWhile_cons, List.dropWhile_cons, none_next]
        exact ⟨rfl, rfl⟩
  have whole : digits.takeWhile (fun next => (digit? form.radix next).isSome) = digits :=
    List.takeWhile_eq_self_iff.mpr all
  simp only [read]
  rw [List.takeWhile_append_of_pos all, List.dropWhile_append_of_pos all, taken.1, taken.2,
    List.append_nil, whole]
  split
  next => rfl
  next =>
    split
    next => rfl
    next =>
      split
      next => rfl
      next => split <;> rfl

theorem digit?_of_isDigit {character : Char} (decimal : character.isDigit = true) :
    digit? 10 character = some (character.toNat - 48) := by
  simp only [Char.isDigit, Bool.and_eq_true, decide_eq_true_eq] at decimal
  have range : 48 ≤ character.toNat ∧ character.toNat ≤ 57 := decimal
  rw [digit?]
  simp only [if_pos range]
  exact if_pos (by omega)

/-- The decimal digits of a number spell the number. -/
theorem read_toDigits (decimal : form.radix = 10) (anyLength : form.mostDigits = none)
    (mayPad : form.mayPad = true) {number : Nat} (small : number ≤ form.greatest) :
    read form (Nat.toDigits 10 number) = some (number, []) := by
  have all : ∀ digit ∈ Nat.toDigits 10 number, digit.isDigit = true :=
    fun digit member => Nat.isDigit_of_mem_toDigits (by decide) (by decide) member
  have some_digit : ∀ digit ∈ Nat.toDigits 10 number, (digit? 10 digit).isSome = true := by
    intro digit member
    rw [digit?_of_isDigit (all digit member)]
    rfl
  have values : (Nat.toDigits 10 number).filterMap (digit? 10) =
      (Nat.toDigits 10 number).map fun digit => digit.toNat - 48 := by
    rw [← List.filterMap_eq_map]
    exact List.filterMap_congr fun digit member => digit?_of_isDigit (all digit member)
  have value : ((Nat.toDigits 10 number).map fun digit => digit.toNat - 48).foldl
      (fun value digit => 10 * value + digit) 0 = number := by
    rw [List.foldl_map]
    exact Nat.ofDigitChars_ten_toDigits
  simp only [read, decimal]
  rw [List.takeWhile_eq_self_iff.mpr some_digit, List.dropWhile_eq_nil_iff.mpr some_digit,
    values, value, anyLength, mayPad]
  simp [Nat.toDigits_ne_nil, Nat.not_lt.mpr small]

end Numeral

namespace Ipv4

theorem toList_byte (byte : UInt8) : (toString byte).toList = Nat.toDigits 10 byte.toNat :=
  Nat.toList_repr

/-- The digits of a byte are at most three and begin with no zero but its own. -/
theorem read_byte : ∀ byte < 256, Numeral.read byteForm (Nat.toDigits 10 byte) =
    some (byte, []) := by
  decide +kernel

theorem read_byte_append (byte : UInt8) {rest : List Char}
    (ends : rest.head?.all (fun next => (Numeral.digit? 10 next).isNone) = true) :
    Numeral.read byteForm ((toString byte).toList ++ rest) = some (byte.toNat, rest) := by
  have all : ∀ digit ∈ Nat.toDigits 10 byte.toNat, (Numeral.digit? 10 digit).isSome = true := by
    intro digit member
    rw [Numeral.digit?_of_isDigit
      (Nat.isDigit_of_mem_toDigits (by decide) (by decide) member)]
    rfl
  have alone := read_byte byte.toNat byte.toNat_lt
  rw [toList_byte, Numeral.read_append all ends, alone]
  rfl

theorem read_text (address : Ipv4) {rest : List Char}
    (ends : rest.head?.all (fun next => (Numeral.digit? 10 next).isNone) = true) :
    read (address.text.toList ++ rest) = some (address, rest) := by
  have spelled : address.text.toList ++ rest =
      (toString address.first).toList ++ ('.' :: ((toString address.second).toList ++
        ('.' :: ((toString address.third).toList ++
          ('.' :: ((toString address.fourth).toList ++ rest)))))) := by
    have dot : (toString ".").toList = ['.'] := rfl
    simp [text, dot]
  rw [spelled, read, read_byte_append _ rfl]
  simp only [Option.bind_eq_bind, Option.bind_some, readCharacter, if_true]
  rw [read_byte_append _ rfl]
  simp only [Option.bind_some, if_true]
  rw [read_byte_append _ rfl]
  simp only [Option.bind_some, if_true]
  rw [read_byte_append _ ends]
  simp only [Option.bind_some, UInt8.ofNat_toNat]

end Ipv4

namespace SocketAddress

theorem readPort_text (port : UInt16) :
    readPort (':' :: (toString port).toList) = some (port, []) := by
  have digits : (toString port).toList = Nat.toDigits 10 port.toNat := Nat.toList_repr
  have small : port.toNat ≤ portForm.greatest := Nat.le_of_lt_succ port.toNat_lt
  rw [readPort, digits]
  simp only [Option.bind_eq_bind, Option.bind_some, readCharacter, if_true]
  rw [Numeral.read_toDigits rfl rfl rfl small]
  simp

/-- An address of four bytes with a port is read back from its text. -/
theorem ofText?_text {address : SocketAddress} (short : address.isV4 = true) :
    ofText? address.text = some address := by
  cases address with
  | v6 => cases short
  | v4 ip port =>
      have spelled : (v4 ip port).text.toList =
          ip.text.toList ++ (':' :: (toString port).toList) := by
        have colon : (toString ":").toList = [':'] := rfl
        have host : (toString ip.text).toList = ip.text.toList := rfl
        simp [text, colon, host]
      have found : readV4 (v4 ip port).text.toList = some (v4 ip port, []) := by
        rw [readV4, spelled, Ipv4.read_text ip rfl]
        simp only [Option.bind_eq_bind, Option.bind_some]
        rw [readPort_text]
        rfl
      rw [ofText?, found]
      rfl

end SocketAddress

end LedgerNode
