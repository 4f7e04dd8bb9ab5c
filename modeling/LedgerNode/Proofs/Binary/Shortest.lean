import LedgerNode.Gossip.Envelope
import LedgerNode.Peer.DirectoryMessage
import LedgerNode.Proofs.Binary.RoundTrip

namespace LedgerNode

/-!
# The shortest form of a record

A reader takes an integer in any width that its type has room for.  Every
number in a record may be written too wide, and the lengths of texts and lists
and the indices of variants are such numbers, so that one record has many
readable forms.  The writer takes the shortest of them, and no other form is as
short.

The argument compares the bytes that a reader has used with the bytes that the
writer would have chosen.  The comparison is made for a single integer.
Everything else is written by joining parts, and a joined form is as short as
the other one only if each part is.
-/

/-- The first byte string is shorter than the second one, or the two are the same. -/
def Condenses (written used : Bytes) : Prop := written.length < used.length ∨ written = used

namespace Condenses

variable {written used : Bytes}

theorem refl (bytes : Bytes) : Condenses bytes bytes := .inr rfl

theorem length_le (condenses : Condenses written used) : written.length ≤ used.length := by
  rcases condenses with shorter | rfl
  · exact Nat.le_of_lt shorter
  · exact Nat.le_refl _

theorem length_eq_iff (condenses : Condenses written used) :
    written.length = used.length ↔ written = used := by
  refine ⟨fun same => ?_, congrArg List.length⟩
  rcases condenses with shorter | same
  · omega
  · exact same

theorem append {others more : Bytes} (first : Condenses written used)
    (second : Condenses others more) : Condenses (written ++ others) (used ++ more) := by
  have left := first.length_le
  have right := second.length_le
  simp only [Condenses, List.length_append]
  rcases first with shorter | rfl
  · exact .inl (by omega)
  · rcases second with shorter | rfl
    · exact .inl (by omega)
    · exact .inr rfl

end Condenses

/-! ## Integers -/

namespace Bytes

/-- Bytes are the layout of the number that they stand for. -/
theorem littleEndian_toNatLittleEndian (bytes : Bytes) :
    littleEndian bytes.length (toNatLittleEndian bytes) = bytes := by
  induction bytes with
  | nil => rfl
  | cons byte rest ih =>
      have small := byte.toNat_lt
      have low : UInt8.ofNat (byte.toNat + 256 * toNatLittleEndian rest) = byte := by
        apply UInt8.toNat_inj.mp
        rw [UInt8.toNat_ofNat']
        omega
      have high : (byte.toNat + 256 * toNatLittleEndian rest) / 256 = toNatLittleEndian rest := by
        omega
      rw [List.length_cons, toNatLittleEndian, littleEndian, low, high, ih]

end Bytes

namespace Varint

theorem eq_append_of_take {count : Nat} {bytes taken rest : Bytes}
    (split : take count bytes = .ok (taken, rest)) : bytes = taken ++ rest := by
  unfold take at split
  split at split
  next =>
    cases split
    exact (List.take_append_drop count bytes).symm
  next => cases split

theorem used_of_decodeFixed {count number : Nat} {bytes rest : Bytes}
    (read : decodeFixed count bytes = .ok (number, rest)) :
    bytes = Bytes.littleEndian count number ++ rest := by
  unfold decodeFixed at read
  cases split : take count bytes with
  | error fault =>
      rw [split] at read
      cases read
  | ok halves =>
      rw [split] at read
      cases read
      rw [← length_of_take split, Bytes.littleEndian_toNatLittleEndian]
      exact eq_append_of_take split

/-- A number is written in no more bytes than the form that begins with the given leading
byte takes, and in this form itself if it has no shorter one. -/
theorem encode_condenses {lead : UInt8} {count : Nat}
    (wide : lead = 251 ∧ count = 2 ∨ lead = 252 ∧ count = 4 ∨ lead = 253 ∧ count = 8)
    {number : Nat} (fits : number < 256 ^ count) :
    Condenses (encode number) (lead :: Bytes.littleEndian count number) := by
  unfold encode Condenses
  rcases wide with ⟨rfl, rfl⟩ | ⟨rfl, rfl⟩ | ⟨rfl, rfl⟩
  · by_cases one : number ≤ 250
    · simp [one]
    · have two : number < UInt16.size := fits
      simp [one, two]
  · by_cases one : number ≤ 250
    · simp [one]
    · by_cases two : number < UInt16.size
      · simp [one, two]
      · have four : number < UInt32.size := fits
        simp [one, two, four]
  · by_cases one : number ≤ 250
    · simp [one]
    · by_cases two : number < UInt16.size
      · simp [one, two]
      · by_cases four : number < UInt32.size
        · simp [one, two, four]
        · simp [one, two, four]

/-- The bytes from which a number is read are the number as it is written, or more. -/
theorem decode_condensed {width : Width} {number : Nat} {bytes rest : Bytes}
    (read : decode width bytes = .ok (number, rest)) :
    ∃ used, bytes = used ++ rest ∧ Condenses (encode number) used := by
  cases bytes with
  | nil => cases read
  | cons lead bytes =>
      have fixed {count : Nat}
          (wide : lead = 251 ∧ count = 2 ∨ lead = 252 ∧ count = 4 ∨ lead = 253 ∧ count = 8)
          (read : decodeFixed count bytes = .ok (number, rest)) :
          ∃ used, lead :: bytes = used ++ rest ∧ Condenses (encode number) used := by
        refine ⟨lead :: Bytes.littleEndian count number, ?_, ?_⟩
        · rw [used_of_decodeFixed read, List.cons_append]
        · exact encode_condenses wide (lt_of_decodeFixed read)
      simp only [decode] at read
      split at read
      next small =>
        cases read
        refine ⟨[lead], rfl, .inr ?_⟩
        rw [encode, if_pos small, UInt8.ofNat_toNat]
      next =>
        split at read
        next two => exact fixed (.inl ⟨two, rfl⟩) read
        next =>
          split at read
          next four => exact fixed (.inr (.inl ⟨four.1, rfl⟩)) read
          next =>
            split at read
            next eight => exact fixed (.inr (.inr ⟨eight.1, rfl⟩)) read
            next => cases read

theorem zigzag_unzigzag (number : Nat) : zigzag (unzigzag number) = number := by
  unfold zigzag unzigzag
  split <;> split <;> omega

theorem unzigzag_bounds {number : Nat} (fits : number < 2 ^ 64) :
    -2 ^ 63 ≤ unzigzag number ∧ unzigzag number < 2 ^ 63 := by
  unfold unzigzag
  split <;> omega

end Varint

namespace Codec

/-- The bytes from which a value is read are the value as it is written, or more. -/
def Shortest (codec : Codec Value) : Prop :=
  ∀ bytes value rest, codec.decode bytes = .ok (value, rest) →
    ∃ used, bytes = used ++ rest ∧ Condenses (codec.encode value) used

theorem unit_shortest : unit.Shortest := by
  intro bytes value rest read
  cases read
  exact ⟨[], rfl, .refl []⟩

/-- Values that are written by a number are written by no more bytes than the number was
read from. -/
theorem number_shortest {codec : Codec Value} (width : Width) (make : Nat → Value)
    {number : Value → Nat}
    (written : ∀ value, codec.encode value = Varint.encode (number value))
    (reads : ∀ bytes, (codec.decode bytes).toOption =
      (Varint.decode width bytes).toOption.map fun found => (make found.1, found.2))
    (inverse : ∀ found < 2 ^ width.bits, number (make found) = found) : codec.Shortest := by
  intro bytes value rest read
  have decoded := reads bytes
  rw [read] at decoded
  cases found : Varint.decode width bytes with
  | error fault =>
      rw [found] at decoded
      cases decoded
  | ok reached =>
      rw [found] at decoded
      cases decoded
      rw [written, inverse _ (Varint.lt_of_decode found)]
      exact Varint.decode_condensed found

theorem u16_shortest : u16.Shortest := by
  refine number_shortest .w16 UInt16.ofNat (fun _ => rfl) (fun bytes => ?_)
    fun found room => UInt16.toNat_ofNat_of_lt' room
  simp only [u16]
  cases Varint.decode .w16 bytes <;> rfl

theorem u64_shortest : u64.Shortest := by
  refine number_shortest .w64 UInt64.ofNat (fun _ => rfl) (fun bytes => ?_)
    fun found room => UInt64.toNat_ofNat_of_lt' room
  simp only [u64]
  cases Varint.decode .w64 bytes <;> rfl

theorem i64_shortest : i64.Shortest := by
  refine number_shortest .w64 (fun found => Int64.ofInt (Varint.unzigzag found)) (fun _ => rfl)
    (fun bytes => ?_) fun found room => ?_
  · simp only [i64]
    cases Varint.decode .w64 bytes <;> rfl
  · have bounds := Varint.unzigzag_bounds room
    rw [Int64.toInt_ofInt_of_le bounds.1 bounds.2, Varint.zigzag_unzigzag]

theorem bool_shortest : bool.Shortest := by
  intro bytes value rest read
  cases bytes with
  | nil => cases read
  | cons byte bytes =>
      simp only [bool] at read
      split at read
      next zero =>
        cases read
        exact ⟨[byte], rfl, .inr (by rw [zero]; rfl)⟩
      next =>
        split at read
        next one =>
          cases read
          exact ⟨[byte], rfl, .inr (by rw [one]; rfl)⟩
        next => cases read

/-! ## Texts, lists and records -/

theorem text_shortest : text.Shortest := by
  intro bytes value rest read
  simp only [text, bind, Except.bind] at read
  cases counted : Varint.decode .w64 bytes with
  | error fault => simp [counted] at read
  | ok counting =>
      cases split : Varint.take counting.1 counting.2 with
      | error fault => simp [counted, split] at read
      | ok halves =>
          cases spelled : Utf8.decode halves.1 with
          | error fault => simp [counted, split, spelled] at read
          | ok text =>
              simp only [counted, split, spelled] at read
              cases read
              rcases Varint.decode_condensed counted with ⟨used, joined, condensed⟩
              refine ⟨used ++ halves.1, ?_, ?_⟩
              · rw [joined, Varint.eq_append_of_take split, List.append_assoc]
              · simp only [Codec.text, Utf8.ofText_of_decode spelled,
                  Varint.length_of_take split]
                exact condensed.append (.refl _)

theorem decodeMany_condensed {item : Codec Value} (shortest : item.Shortest) {count : Nat}
    {bytes rest : Bytes} {values : List Value}
    (read : decodeMany item count bytes = .ok (values, rest)) :
    values.length = count ∧
      ∃ used, bytes = used ++ rest ∧ Condenses (values.flatMap item.encode) used := by
  induction count generalizing bytes values with
  | zero =>
      cases read
      exact ⟨rfl, [], rfl, .refl []⟩
  | succ count ih =>
      simp only [decodeMany, bind, Except.bind] at read
      cases first : item.decode bytes with
      | error fault => simp [first] at read
      | ok head =>
          cases others : decodeMany item count head.2 with
          | error fault => simp [first, others] at read
          | ok tail =>
              simp only [first, others] at read
              cases read
              rcases shortest _ _ _ first with ⟨used, joined, condensed⟩
              rcases ih others with ⟨length, more, behind, all⟩
              refine ⟨congrArg (· + 1) length, used ++ more, ?_, ?_⟩
              · rw [joined, behind, List.append_assoc]
              · rw [List.flatMap_cons]
                exact condensed.append all

theorem list_shortest {item : Codec Value} (shortest : item.Shortest) :
    (list item).Shortest := by
  intro bytes values rest read
  simp only [list, bind, Except.bind] at read
  cases counted : Varint.decode .w64 bytes with
  | error fault => simp [counted] at read
  | ok counting =>
      simp only [counted] at read
      rcases Varint.decode_condensed counted with ⟨used, joined, condensed⟩
      rcases decodeMany_condensed shortest read with ⟨length, more, behind, all⟩
      refine ⟨used ++ more, ?_, ?_⟩
      · rw [joined, behind, List.append_assoc]
      · simp only [list, length]
        exact condensed.append all

theorem pair_shortest {first : Codec α} {second : Codec β} (left : first.Shortest)
    (right : second.Shortest) : (pair first second).Shortest := by
  intro bytes value rest read
  simp only [pair, bind, Except.bind] at read
  cases one : first.decode bytes with
  | error fault => simp [one] at read
  | ok head =>
      cases other : second.decode head.2 with
      | error fault => simp [one, other] at read
      | ok tail =>
          simp only [one, other] at read
          cases read
          rcases left _ _ _ one with ⟨used, joined, condensed⟩
          rcases right _ _ _ other with ⟨more, behind, all⟩
          refine ⟨used ++ more, ?_, condensed.append all⟩
          rw [joined, behind, List.append_assoc]

theorem via_shortest {codec : Codec α} (shortest : codec.Shortest) {ofContent : α → β}
    {toContent : β → α} (inverse : ∀ content, toContent (ofContent content) = content) :
    (codec.via ofContent toContent).Shortest := by
  intro bytes value rest read
  simp only [via] at read
  cases found : codec.decode bytes with
  | error fault =>
      rw [found] at read
      cases read
  | ok reached =>
      rw [found] at read
      cases read
      simp only [via, inverse]
      exact shortest _ _ _ found

theorem variant_shortest {name : String} {count : Nat} {Payload : Fin count → Type}
    {payload : (index : Fin count) → Codec (Payload index)}
    (each : ∀ index, (payload index).Shortest) : (variant name count payload).Shortest := by
  intro bytes value rest read
  simp only [variant, bind, Except.bind] at read
  cases numbered : Varint.decode .w32 bytes with
  | error fault => simp [numbered] at read
  | ok number =>
      simp only [numbered] at read
      split at read
      next inside =>
        cases content : (payload ⟨number.1, inside⟩).decode number.2 with
        | error fault => simp [content] at read
        | ok reached =>
            simp only [content] at read
            cases read
            rcases Varint.decode_condensed numbered with ⟨used, joined, condensed⟩
            rcases each _ _ _ _ content with ⟨more, behind, all⟩
            refine ⟨used ++ more, ?_, condensed.append all⟩
            rw [joined, behind, List.append_assoc]
      next => cases read

end Codec

/-! ## The records of a node -/

theorem Cursor.codec_shortest : codec.Shortest :=
  Codec.via_shortest (Codec.pair_shortest Codec.u64_shortest Codec.text_shortest) fun _ => rfl

theorem Transaction.codec_shortest : codec.Shortest := by
  have text := Codec.text_shortest
  have number := Codec.u64_shortest
  have content :=
    Codec.pair_shortest text <| Codec.pair_shortest number <|
      Codec.pair_shortest text <| Codec.pair_shortest Codec.i64_shortest <|
      Codec.pair_shortest text <| Codec.pair_shortest text <|
      Codec.pair_shortest number <| Codec.pair_shortest text text
  exact Codec.via_shortest content fun _ => rfl

theorem Block.codec_shortest : codec.Shortest := by
  have text := Codec.text_shortest
  have content :=
    Codec.pair_shortest Codec.u64_shortest <| Codec.pair_shortest text <|
      Codec.pair_shortest text <| Codec.pair_shortest Codec.i64_shortest <|
      Codec.pair_shortest text (Codec.list_shortest Transaction.codec_shortest)
  exact Codec.via_shortest content fun _ => rfl

theorem NodeMode.codec_shortest : codec.Shortest := by
  refine Codec.via_shortest (Codec.variant_shortest fun _ => Codec.unit_shortest) ?_
  rintro ⟨index, content⟩
  match index with
  | 0 | 1 | 2 | 3 => rfl

theorem Direction.codec_shortest : codec.Shortest := by
  refine Codec.via_shortest (Codec.variant_shortest fun _ => Codec.unit_shortest) ?_
  rintro ⟨index, content⟩
  match index with
  | 0 | 1 | 2 => rfl

theorem Peer.codec_shortest : codec.Shortest := by
  have text := Codec.text_shortest
  have content :=
    Codec.pair_shortest text <| Codec.pair_shortest Codec.u16_shortest <|
      Codec.pair_shortest text <| Codec.pair_shortest NodeMode.codec_shortest <|
      Codec.pair_shortest Codec.bool_shortest Direction.codec_shortest
  exact Codec.via_shortest content fun _ => rfl

theorem Envelope.codec_shortest : codec.Shortest := by
  have transactions := Codec.list_shortest Transaction.codec_shortest
  have each (index : Fin 2) : (contentCodec index).Shortest := by
    match index with
    | 0 => exact Codec.pair_shortest Block.codec_shortest transactions
    | 1 => exact transactions
  refine Codec.via_shortest (Codec.variant_shortest each) ?_
  rintro ⟨index, content⟩
  match index with
  | 0 | 1 => rfl

theorem DirectoryResponse.codec_shortest : codec.Shortest := by
  have each (index : Fin 4) : (contentCodec index).Shortest := by
    match index with
    | 0 => exact Peer.codec_shortest
    | 1 => exact Codec.list_shortest Peer.codec_shortest
    | 2 => exact Codec.text_shortest
    | 3 => exact Codec.text_shortest
  refine Codec.via_shortest (Codec.variant_shortest each) ?_
  rintro ⟨index, content⟩
  match index with
  | 0 | 1 | 2 | 3 => rfl

/-! ## The form that is written -/

/-- The written form of a value is the only shortest one among the forms from which the
readers of a format read the value. -/
structure Codec.WritesShortest (codec : Codec Value) : Prop where
  /-- Of the bytes used no fewer than those written, and just as many only if they are
  the bytes written. -/
  front : ∀ bytes value rest, codec.decode bytes = .ok (value, rest) →
    ∃ used, bytes = used ++ rest ∧ (codec.encode value).length ≤ used.length ∧
      ((codec.encode value).length = used.length ↔ codec.encode value = used)
  /-- A whole text that is read as a value and is not its written form is strictly longer. -/
  whole : ∀ bytes value, codec.decodeExact bytes = .ok value → bytes ≠ codec.encode value →
    (codec.encode value).length < bytes.length

theorem Codec.Shortest.writesShortest {codec : Codec Value} (shortest : codec.Shortest) :
    codec.WritesShortest where
  front := by
    intro bytes value rest read
    rcases shortest bytes value rest read with ⟨used, joined, condensed⟩
    exact ⟨used, joined, condensed.length_le, condensed.length_eq_iff⟩
  whole := by
    intro bytes value read other
    unfold decodeExact at read
    cases found : codec.decode bytes with
    | error fault =>
        rw [found] at read
        cases read
    | ok reached =>
        simp only [found, bind, Except.bind] at read
        split at read
        next nothing =>
          cases read
          rcases shortest _ _ _ found with ⟨used, joined, condensed⟩
          rw [List.isEmpty_iff.mp nothing, List.append_nil] at joined
          subst joined
          rcases condensed with shorter | same
          · exact shorter
          · exact absurd same.symm other
        next => cases read

/-- Every record is written in the shortest form from which it can be read, and is read
from no other form of this length. -/
theorem Codec.records_writtenShortest :
    Cursor.codec.WritesShortest ∧
    Transaction.codec.WritesShortest ∧
    Block.codec.WritesShortest ∧
    Peer.codec.WritesShortest ∧
    Envelope.codec.WritesShortest ∧
    DirectoryResponse.codec.WritesShortest :=
  ⟨Cursor.codec_shortest.writesShortest, Transaction.codec_shortest.writesShortest,
    Block.codec_shortest.writesShortest, Peer.codec_shortest.writesShortest,
    Envelope.codec_shortest.writesShortest, DirectoryResponse.codec_shortest.writesShortest⟩

/-- A cursor whose height is written in eight bytes and whose hash has a length of two
bytes is read, and its written form is ten bytes shorter. -/
theorem Codec.records_writtenShortest_overlong :
    (let bytes : Bytes := [253, 7, 0, 0, 0, 0, 0, 0, 0, 251, 1, 0, 66]
     Cursor.codec.decodeExact bytes = .ok ⟨7, "B"⟩ ∧
     Cursor.codec.encode ⟨7, "B"⟩ = [7, 1, 66] ∧
     (Cursor.codec.encode ⟨7, "B"⟩).length < bytes.length) := by
  have read : Cursor.codec.decodeExact [253, 7, 0, 0, 0, 0, 0, 0, 0, 251, 1, 0, 66] =
      .ok ⟨7, "B"⟩ := by rfl
  exact ⟨read, by decide, Codec.records_writtenShortest.1.whole _ _ read (by decide)⟩

end LedgerNode
