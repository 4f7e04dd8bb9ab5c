import Mathlib.Data.List.Basic
import LedgerNode.Json.Writer
import LedgerNode.Proofs.Bytes
import LedgerNode.Proofs.Json.Grammar

namespace LedgerNode

/-!
# Written documents are legible

A text is spelled with escapes for what may not stand between two quotes, and
the spelling is taken back to the text.  A number is spelled by its decimal
digits, the first of which is no zero unless the number is.  So whatever is
written from texts, numbers and truth values is a text of the grammar.
-/

namespace Json

variable {text rest : Bytes} {byte : UInt8}

/-! ## Texts -/

/-- The two digits that spell a control character in an escape spell its number. -/
theorem ofHexDigits?_hexDigit : ∀ number < 32,
    ofHexDigits? 0x30 0x30 (hexDigit (number / 16)) (hexDigit (number % 16)) = some number := by
  decide

theorem utf8EncodeChar_ofNat : ∀ number < 32,
    String.utf8EncodeChar (Char.ofNat number) = [UInt8.ofNat number] := by
  decide

/-- A byte is spelled by a letter that is known, by its number or by itself. -/
theorem escapeByte_cases (byte : UInt8) :
    (∃ letter, simpleEscape? letter = some byte ∧ escapeByte byte = [0x5C, letter]) ∨
    (byte < 0x20 ∧ escapeByte byte =
      [0x5C, 0x75, 0x30, 0x30, hexDigit (byte.toNat / 16), hexDigit (byte.toNat % 16)]) ∨
    ((¬byte < 0x20 ∧ byte ≠ 0x22 ∧ byte ≠ 0x5C) ∧ escapeByte byte = [byte]) := by
  unfold escapeByte
  split_ifs with quote backslash backspace feed line carriage tab control
  · exact .inl ⟨0x22, by rw [quote]; rfl, rfl⟩
  · exact .inl ⟨0x5C, by rw [backslash]; rfl, rfl⟩
  · exact .inl ⟨0x62, by rw [backspace]; rfl, rfl⟩
  · exact .inl ⟨0x66, by rw [feed]; rfl, rfl⟩
  · exact .inl ⟨0x6E, by rw [line]; rfl, rfl⟩
  · exact .inl ⟨0x72, by rw [carriage]; rfl, rfl⟩
  · exact .inl ⟨0x74, by rw [tab]; rfl, rfl⟩
  · exact .inr (.inl ⟨control, rfl⟩)
  · exact .inr (.inr ⟨⟨control, quote, backslash⟩, rfl⟩)

theorem quotable_escapeByte (byte : UInt8) (quotable : Quotable text) :
    Quotable (escapeByte byte ++ text) := by
  rcases escapeByte_cases byte with ⟨letter, known, spelled⟩ | ⟨control, spelled⟩ |
    ⟨⟨visible, noQuote, noBackslash⟩, spelled⟩
  · rw [spelled]
    exact .simple (Option.isSome_of_eq_some known) quotable
  · rw [spelled]
    exact .unicode (Option.isSome_of_eq_some (ofHexDigits?_hexDigit _ control)) quotable
  · rw [spelled]
    exact .plain visible noQuote noBackslash quotable

theorem quotable_escape (text : String) : Quotable (escape text) := by
  unfold escape
  induction Bytes.ofText text with
  | nil => exact .nil
  | cons byte bytes ih => exact quotable_escapeByte byte ih

theorem unescape_escapeByte (byte : UInt8) (rest : Bytes) :
    unescape (escapeByte byte ++ rest) = (unescape rest).map (byte :: ·) := by
  have added : ((unescape rest).bind fun bytes => some (byte :: bytes)) =
      (unescape rest).map (byte :: ·) := Option.map_eq_bind.symm
  rw [← added]
  rcases escapeByte_cases byte with ⟨letter, known, spelled⟩ | ⟨control, spelled⟩ |
    ⟨⟨visible, noQuote, noBackslash⟩, spelled⟩
  · have other : letter ≠ 0x75 := by
      rintro rfl
      cases known
    simp [spelled, unescape, other, known]
  · have small : byte.toNat < 32 := control
    have unit := ofHexDigits?_hexDigit byte.toNat small
    have low : ¬(0xDC00 ≤ byte.toNat ∧ byte.toNat ≤ 0xDFFF) := by omega
    have high : ¬(0xD800 ≤ byte.toNat ∧ byte.toNat ≤ 0xDBFF) := by omega
    simp [spelled, unescape, unit, low, high, utf8EncodeChar_ofNat _ small]
  · simp [spelled, unescape, noBackslash]

theorem unescape_flatMap (bytes : Bytes) : unescape (bytes.flatMap escapeByte) = some bytes := by
  induction bytes with
  | nil => rfl
  | cons byte bytes ih => rw [List.flatMap_cons, unescape_escapeByte, ih]; rfl

@[simp]
theorem spelledText?_escape (text : String) : spelledText? (escape text) = some text := by
  rw [spelledText?, escape, unescape_flatMap]
  exact Utf8.text?_ofText text

/-! ## Numbers -/

/-- The bytes of the decimal digits of a number. -/
def decimal (number : Nat) : Bytes :=
  (Nat.toDigits 10 number).map fun digit => UInt8.ofNat digit.toNat

theorem toNat_of_mem_toDigits {number : Nat} {digit : Char}
    (member : digit ∈ Nat.toDigits 10 number) : 48 ≤ digit.toNat ∧ digit.toNat ≤ 57 := by
  have decimal := Nat.isDigit_of_mem_toDigits (by decide) (by decide) member
  simp only [Char.isDigit, Bool.and_eq_true, decide_eq_true_eq] at decimal
  exact decimal

theorem ofText_toString (number : Nat) : Bytes.ofText (toString number) = decimal number := by
  have digits : toString number = String.ofList (Nat.toDigits 10 number) :=
    Nat.repr_eq_ofList_toDigits
  rw [digits, Bytes.ofText_ofList, decimal, List.map_eq_flatMap]
  refine List.flatMap_congr fun digit member => ?_
  have short : digit.val ≤ 127 := Nat.le_trans (toNat_of_mem_toDigits member).2 (by decide)
  rw [String.utf8EncodeChar_eq_singleton (Char.utf8Size_eq_one_iff.mpr short)]
  rfl

theorem head?_toDigits {number : Nat} (positive : number ≠ 0) :
    (Nat.toDigits 10 number).head? ≠ some '0' := by
  induction number using Nat.strongRecOn with
  | ind number ih =>
      rw [Nat.toDigits_eq_if (by decide)]
      split
      next small =>
        intro zero
        exact positive (Nat.digitChar_eq_zero.mp (Option.some.inj zero))
      next large =>
        rw [List.head?_append_of_ne_nil _ Nat.toDigits_ne_nil]
        exact ih (number / 10) (by omega) (by omega)

/-- The byte of a decimal digit has the digit's number. -/
theorem toNat_byte {number : Nat} {digit : Char} (member : digit ∈ Nat.toDigits 10 number) :
    (UInt8.ofNat digit.toNat).toNat = digit.toNat :=
  UInt8.toNat_ofNat_of_lt' (Nat.lt_of_le_of_lt (toNat_of_mem_toDigits member).2 (by decide))

theorem digits_decimal (number : Nat) : Digits (decimal number) := by
  refine ⟨by simp [decimal, Nat.toDigits_ne_nil], fun byte member => ?_⟩
  rcases List.mem_map.mp member with ⟨digit, found, rfl⟩
  have range := toNat_of_mem_toDigits found
  rw [← toNat_byte found] at range
  simp only [isDigit, Bool.and_eq_true, decide_eq_true_eq]
  exact range

theorem numeral_decimal (number : Nat) : Numeral (decimal number) := by
  have whole : Whole (decimal number) := by
    by_cases zero : number = 0
    · rw [zero]
      exact .zero
    · refine .digits (digits_decimal number) fun first => ?_
      rw [decimal, List.head?_map, Option.map_eq_some_iff] at first
      rcases first with ⟨digit, first, same⟩
      have value := toNat_byte (List.mem_of_mem_head? first)
      rw [same] at value
      have named : digit = '0' := Char.toNat_inj.mp value.symm
      exact head?_toDigits zero (named ▸ first)
  have parts := Numeral.parts (.inl rfl) whole .none .none
  simpa only [List.nil_append, List.append_nil] using parts

theorem digits?_decimal (number : Nat) : digits? (decimal number) = some number := by
  have step : ∀ digits, (∀ digit ∈ digits, digit ∈ Nat.toDigits 10 number) → ∀ start,
      (digits.map fun digit => UInt8.ofNat digit.toNat).foldlM (fun number byte =>
        if 48 ≤ byte.toNat ∧ byte.toNat ≤ 57 then some (10 * number + (byte.toNat - 48))
        else none) start = some (Nat.ofDigitChars 10 digits start) := by
    intro digits members
    induction digits with
    | nil => exact fun start => rfl
    | cons digit digits ih =>
        intro start
        have ⟨first, others⟩ := List.forall_mem_cons.mp members
        rw [List.map_cons, List.foldlM_cons, toNat_byte first,
          if_pos (toNat_of_mem_toDigits first)]
        exact ih others _
  have some_digit : (decimal number).isEmpty = false :=
    List.isEmpty_eq_false_iff.mpr (digits_decimal number).1
  rw [digits?, some_digit, decimal, step _ fun _ member => member, Nat.ofDigitChars_ten_toDigits]
  rfl

theorem ofNat_eq (number : Nat) : ofNat number = .number (decimal number) :=
  congrArg Json.number (ofText_toString number)

theorem int?_ofNat (number : Nat) : (ofNat number).int? = some (number : Int) := by
  have noMinus : ∀ digits, decimal number = 0x2D :: digits → False := by
    intro digits shape
    have first := (digits_decimal number).2 0x2D (by rw [shape]; exact List.mem_cons_self)
    cases first
  rw [ofNat_eq, int?.eq_2 _ noMinus, digits?_decimal]
  rfl

@[simp]
theorem u8?_ofNat (number : UInt8) : (ofNat number.toNat).u8? = some number := by
  have range : (0 : Int) ≤ number.toNat ∧ (number.toNat : Int) ≤ 0xFF := by
    have small := number.toNat_lt
    omega
  simp [u8?, intBetween?, int?_ofNat, range]

@[simp]
theorem u16?_ofNat (number : UInt16) : (ofNat number.toNat).u16? = some number := by
  have range : (0 : Int) ≤ number.toNat ∧ (number.toNat : Int) ≤ 0xFFFF := by
    have small := number.toNat_lt
    omega
  simp [u16?, intBetween?, int?_ofNat, range]

/-! ## Legible documents -/

/-- A document that is read as itself when it is written without blanks. -/
def Legible (document : Json) : Prop := (Phrase.value document).Spelled document.compact

theorem legible_ofText (text : String) : (ofText text).Legible := by
  rw [Legible, ofText, compact]
  exact .string (quotable_escape text)

theorem legible_ofNat (number : Nat) : (ofNat number).Legible := by
  rw [Legible, ofNat_eq, compact]
  exact .number (numeral_decimal number)

theorem legible_bool (value : Bool) : (bool value).Legible := by
  rw [Legible, compact]
  exact .bool value

theorem legible_null : null.Legible := by
  rw [Legible, compact]
  exact .null

theorem spelled_compactItems {items : List Json} (some_item : items ≠ [])
    (legible : ∀ item ∈ items, item.Legible) :
    (Phrase.items items).Spelled (compactItems items ++ [0x5D]) := by
  induction items with
  | nil => exact absurd rfl some_item
  | cons item items ih =>
      have ⟨first, others⟩ := List.forall_mem_cons.mp legible
      cases items with
      | nil => exact .lastItem first blank_nil
      | cons next items =>
          rw [compactItems, List.append_assoc]
          · exact .item first blank_nil (ih (List.cons_ne_nil _ _) others)
          · exact List.cons_ne_nil _ _

theorem legible_array {items : List Json} (legible : ∀ item ∈ items, item.Legible) :
    (array items).Legible := by
  rw [Legible, compact]
  cases items with
  | nil => exact .noItems blank_nil
  | cons item items => exact .array (spelled_compactItems (List.cons_ne_nil _ _) legible)

theorem spelled_compactMembers {members : List (Bytes × Json)} (some_member : members ≠ [])
    (legible : ∀ member ∈ members, Quotable member.1 ∧ member.2.Legible) :
    (Phrase.members members).Spelled (compactMembers members ++ [0x7D]) := by
  induction members with
  | nil => exact absurd rfl some_member
  | cons member members ih =>
      rcases member with ⟨name, value⟩
      have ⟨⟨quotable, first⟩, others⟩ := List.forall_mem_cons.mp legible
      have label : Label name (0x22 :: (name ++ 0x22 :: ([] ++ [0x3A]))) :=
        .colon quotable blank_nil
      cases members with
      | nil =>
          have spelled := Phrase.Spelled.lastMember label first blank_nil
          simpa [compactMembers] using spelled
      | cons next members =>
          have spelled := Phrase.Spelled.member label first blank_nil
            (ih (List.cons_ne_nil _ _) others)
          simpa [compactMembers] using spelled

theorem legible_ofMembers {members : List (String × Json)}
    (legible : ∀ member ∈ members, member.2.Legible) : (ofMembers members).Legible := by
  rw [Legible, ofMembers, compact]
  cases members with
  | nil => exact .noMembers blank_nil
  | cons member members =>
      refine .object (spelled_compactMembers (List.cons_ne_nil _ _) ?_)
      intro spelled member
      rcases List.mem_map.mp member with ⟨⟨name, value⟩, found, rfl⟩
      exact ⟨quotable_escape name, legible (name, value) found⟩

end Json

end LedgerNode
