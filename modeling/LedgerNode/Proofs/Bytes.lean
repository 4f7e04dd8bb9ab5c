import Mathlib.Algebra.Group.Int.Defs
import Mathlib.Algebra.Group.Nat.Defs
import LedgerNode.Bytes.Utf8

namespace LedgerNode

/-!
# Texts and numbers as bytes

A text is known from its bytes, and the bytes of a text are always read as
that text again.  A number laid out in a fixed width is known from its bytes
up to the powers of 256 that the width has no room for.  A list is taken apart
at the first place of a separator.  Byte strings are ordered by their first
difference, so that what they share in front does not count.
-/

/-- Lists without the separator can be told apart from what stands behind it. -/
theorem separated_inj {separator : α} {first second left right : List α}
    (one : separator ∉ first) (other : separator ∉ second) :
    first ++ separator :: left = second ++ separator :: right ↔ first = second ∧ left = right := by
  constructor
  · intro same
    induction first generalizing second with
    | nil =>
        cases second with
        | nil => exact ⟨rfl, (List.cons.inj same).2⟩
        | cons head second =>
            have here : separator = head := (List.cons.inj same).1
            exact absurd (here ▸ List.mem_cons_self) other
    | cons head first ih =>
        cases second with
        | nil =>
            have here : head = separator := (List.cons.inj same).1
            exact absurd (here ▸ List.mem_cons_self) one
        | cons following second =>
            rcases List.cons.inj same with ⟨heads, tails⟩
            have ⟨rest, behind⟩ := ih (mt (List.mem_cons_of_mem _) one)
              (mt (List.mem_cons_of_mem _) other) tails
            exact ⟨by rw [heads, rest], behind⟩
  · rintro ⟨rfl, rfl⟩
    rfl

namespace Bytes

/-! ## Texts -/

theorem ofText_append (first second : String) :
    ofText (first ++ second) = ofText first ++ ofText second := by
  simp [ofText]

theorem ofText_inj {first second : String} : ofText first = ofText second ↔ first = second := by
  rw [← String.toByteArray_inj]
  constructor
  · intro same
    exact ByteArray.ext (Array.toList_inj.mp same)
  · intro same
    rw [ofText, same, ofText]

theorem ofText_ofList (characters : List Char) :
    ofText (String.ofList characters) = characters.flatMap String.utf8EncodeChar := by
  simp [ofText, List.utf8Encode]

/-- The bytes of a character that takes more than one of them are all great. -/
theorem le_of_mem_utf8EncodeChar {character : Char} (long : 127 < character.toNat) {byte : UInt8}
    (member : byte ∈ String.utf8EncodeChar character) : 128 ≤ byte.toNat := by
  have great {value : Nat} (large : 128 ≤ value) (small : value < 256) :
      128 ≤ (UInt8.ofNat value).toNat := by
    rwa [UInt8.toNat_ofNat', Nat.mod_eq_of_lt small]
  have more : ¬ character.val.toNat ≤ 127 := Nat.not_le_of_lt long
  rw [String.utf8EncodeChar, if_neg more] at member
  split at member
  · simp only [List.mem_cons, List.not_mem_nil, or_false] at member
    rcases member with rfl | rfl <;> exact great (by omega) (by omega)
  · split at member <;> simp only [List.mem_cons, List.not_mem_nil, or_false] at member
    · rcases member with rfl | rfl | rfl <;> exact great (by omega) (by omega)
    · rcases member with rfl | rfl | rfl | rfl <;> exact great (by omega) (by omega)

/-- No character but the null character is written with a byte of zero. -/
theorem zero_mem_utf8EncodeChar_iff {character : Char} :
    0 ∈ String.utf8EncodeChar character ↔ character = '\x00' := by
  constructor
  · intro member
    rcases Nat.lt_or_ge 127 character.toNat with long | short
    · exact absurd (le_of_mem_utf8EncodeChar long member) (by decide)
    · have one : String.utf8EncodeChar character = [UInt8.ofNat character.val.toNat] := by
        rw [String.utf8EncodeChar]
        exact if_pos short
      rw [one] at member
      have small : character.val.toNat < 2 ^ 8 := Nat.lt_of_le_of_lt short (by decide)
      have same := congrArg UInt8.toNat (List.mem_singleton.mp member)
      rw [UInt8.toNat_ofNat', Nat.mod_eq_of_lt small] at same
      exact Char.toNat_inj.mp same.symm
  · rintro rfl
    exact List.mem_singleton.mpr rfl

/-- A text without the null character is written without a byte of zero. -/
theorem zero_mem_ofText_iff {text : String} : 0 ∈ ofText text ↔ '\x00' ∈ text.toList := by
  rw [← String.ofList_toList (s := text), ofText_ofList, String.toList_ofList, List.mem_flatMap]
  constructor
  · rintro ⟨character, member, zero⟩
    exact zero_mem_utf8EncodeChar_iff.mp zero ▸ member
  · intro member
    exact ⟨_, member, zero_mem_utf8EncodeChar_iff.mpr rfl⟩

/-! ## The order of byte strings -/

theorem compare_append_left (shared first second : Bytes) :
    compare (shared ++ first) (shared ++ second) = compare first second := by
  induction shared with
  | nil => rfl
  | cons byte shared ih =>
      rw [List.cons_append, List.cons_append, List.compare_cons_cons, Std.ReflOrd.compare_self,
        ih]
      rfl

/-- What lies between two byte strings with a shared beginning begins alike. -/
theorem prefix_of_between {shared first bound bytes : Bytes}
    (above : compare (shared ++ first) bytes ≠ .gt)
    (below : compare bytes (shared ++ bound) = .lt) : shared <+: bytes := by
  induction shared generalizing bytes with
  | nil => exact List.nil_prefix
  | cons byte shared ih =>
      cases bytes with
      | nil => exact absurd rfl above
      | cons head bytes =>
          rw [List.cons_append, List.compare_cons_cons] at above below
          -- Neither head is the greater one, so that the heads are the same.
          cases heads : compare byte head with
          | lt =>
              rw [Std.OrientedCmp.gt_of_lt heads] at below
              cases below
          | gt =>
              rw [heads] at above
              exact absurd rfl above
          | eq =>
              obtain rfl := Std.LawfulEqOrd.eq_of_compare heads
              rw [heads] at above below
              exact List.cons_prefix_cons.mpr ⟨rfl, ih above below⟩

/-! ## Numbers -/

@[simp]
theorem length_littleEndian (width number : Nat) : (littleEndian width number).length = width := by
  induction width generalizing number with
  | zero => rfl
  | succ width ih => rw [littleEndian, List.length_cons, ih]

@[simp]
theorem length_bigEndian (width number : Nat) : (bigEndian width number).length = width := by
  rw [bigEndian, List.length_reverse, length_littleEndian]

/-- The layout keeps the remainder that the width has room for. -/
theorem toNatLittleEndian_littleEndian (width number : Nat) :
    toNatLittleEndian (littleEndian width number) = number % 256 ^ width := by
  induction width generalizing number with
  | zero => rw [littleEndian, toNatLittleEndian, Nat.pow_zero, Nat.mod_one]
  | succ width ih =>
      have byte : (UInt8.ofNat number).toNat = number % 256 := by simp
      rw [littleEndian, toNatLittleEndian, ih, byte, Nat.pow_succ', Nat.mod_mul]

/-- The highest byte stands last. -/
theorem littleEndian_succ (width number : Nat) :
    littleEndian (width + 1) number =
      littleEndian width number ++ [UInt8.ofNat (number / 256 ^ width)] := by
  induction width generalizing number with
  | zero => rw [Nat.pow_zero, Nat.div_one]; rfl
  | succ width ih =>
      rw [littleEndian, ih, Nat.div_div_eq_div_mul, ← Nat.pow_succ', littleEndian,
        List.cons_append]

/-- A number that the next smaller width has room for has a byte of zero in front. -/
theorem bigEndian_succ_of_lt {width number : Nat} (small : number < 256 ^ width) :
    bigEndian (width + 1) number = 0 :: bigEndian width number := by
  rw [bigEndian, littleEndian_succ, Nat.div_eq_of_lt small, List.reverse_append]
  rfl

/-- Numbers that the width has room for are known from their layout. -/
theorem bigEndian_inj {width first second : Nat} (one : first < 256 ^ width)
    (other : second < 256 ^ width) :
    bigEndian width first = bigEndian width second ↔ first = second := by
  constructor
  · intro same
    have values := congrArg toNatLittleEndian (List.reverse_inj.mp same)
    rwa [toNatLittleEndian_littleEndian, toNatLittleEndian_littleEndian, Nat.mod_eq_of_lt one,
      Nat.mod_eq_of_lt other] at values
  · exact congrArg (bigEndian width)

theorem toNatLittleEndian_lt (bytes : Bytes) : toNatLittleEndian bytes < 256 ^ bytes.length := by
  induction bytes with
  | nil => exact Nat.one_pos
  | cons byte rest ih =>
      have small := byte.toNat_lt
      rw [toNatLittleEndian, List.length_cons, Nat.pow_succ']
      omega

end Bytes

namespace Utf8

theorem text?_ofText (text : String) : text? (Bytes.ofText text) = some text := by
  have bytes : (⟨(Bytes.ofText text).toArray⟩ : ByteArray) = text.toByteArray := rfl
  rw [text?, bytes, String.fromUTF8?, dif_pos text.isValidUTF8]
  rfl

/-- The bytes of a text spell that text. -/
@[simp]
theorem decode_ofText (text : String) : decode (Bytes.ofText text) = .ok text := by
  rw [decode, text?_ofText]

/-- Bytes that spell a text are the bytes of that text. -/
theorem ofText_of_decode {bytes : Bytes} {text : String} (read : decode bytes = .ok text) :
    Bytes.ofText text = bytes := by
  rw [decode, text?, String.fromUTF8?] at read
  by_cases valid : (⟨bytes.toArray⟩ : ByteArray).IsValidUTF8
  · rw [dif_pos valid] at read
    cases read
    rfl
  · rw [dif_neg valid] at read
    cases read

end Utf8

end LedgerNode
