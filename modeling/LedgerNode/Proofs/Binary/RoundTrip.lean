import LedgerNode.Binary.Codec
import LedgerNode.Proofs.Bytes

namespace LedgerNode

/-!
# Reading what was written

A codec reads back what it wrote and leaves the bytes behind it unread.  Each
combinator passes this on from its parts, so a record format has it as soon
as its integers, texts and lists do.

The lengths of texts and lists are written as numbers of 64 bits.  Nothing
that fits into a machine is longer, and the law is stated for such values.
Whatever a reader yields is such a value, so what was read once can be written
and is read again.
-/

/-- A text whose length is a number of 64 bits. -/
def TextFits (text : String) : Prop := (Bytes.ofText text).length < 2 ^ 64

instance (text : String) : Decidable (TextFits text) := inferInstanceAs (Decidable (_ < _))

/-! ## Integers -/

namespace Varint

theorem take_append (taken rest : Bytes) :
    take taken.length (taken ++ rest) = .ok (taken, rest) := by
  rw [take, if_pos (by simp), List.take_left, List.drop_left]

theorem decodeFixed_littleEndian {count number : Nat} (fits : number < 256 ^ count)
    (rest : Bytes) :
    decodeFixed count (Bytes.littleEndian count number ++ rest) = .ok (number, rest) := by
  have split := take_append (Bytes.littleEndian count number) rest
  rw [Bytes.length_littleEndian] at split
  rw [decodeFixed, split]
  change Except.ok (Bytes.toNatLittleEndian (Bytes.littleEndian count number), rest) = _
  rw [Bytes.toNatLittleEndian_littleEndian, Nat.mod_eq_of_lt fits]

/-- A number is written as one byte, or behind a leading byte from which every width that
has room for it tells how many bytes follow. -/
theorem encode_cases {width : Width} {number : Nat} (fits : number < 2 ^ width.bits) :
    number ≤ 250 ∧ encode number = [UInt8.ofNat number] ∨
      ∃ lead count, encode number = lead :: Bytes.littleEndian count number ∧
        number < 256 ^ count ∧ ∀ bytes, decode width (lead :: bytes) = decodeFixed count bytes := by
  unfold encode
  by_cases short : number ≤ 250
  · exact .inl ⟨short, if_pos short⟩
  · right
    rw [if_neg short]
    by_cases two : number < UInt16.size
    · exact ⟨251, 2, if_pos two, two, fun _ => rfl⟩
    · rw [if_neg two]
      by_cases four : number < UInt32.size
      · have room : 32 ≤ width.bits := by
          cases width with
          | w16 => exact absurd fits two
          | w32 => decide
          | w64 => decide
        exact ⟨252, 4, if_pos four, four, fun _ => if_pos ⟨rfl, room⟩⟩
      · have wide : width = .w64 := by
          cases width with
          | w16 => exact absurd fits two
          | w32 => exact absurd fits four
          | w64 => rfl
        subst wide
        exact ⟨253, 8, if_neg four, fits, fun _ => rfl⟩

/-- A number is read back by every width that has room for it. -/
theorem decode_encode {width : Width} {number : Nat} (fits : number < 2 ^ width.bits)
    (rest : Bytes) : decode width (encode number ++ rest) = .ok (number, rest) := by
  rcases encode_cases fits with ⟨small, short⟩ | ⟨lead, count, long, inside, wide⟩
  · have lead : (UInt8.ofNat number).toNat = number := by
      rw [UInt8.toNat_ofNat']
      omega
    rw [short]
    simp only [List.cons_append, List.nil_append, decode]
    rw [lead, if_pos small]
  · rw [long, List.cons_append, wide]
    exact decodeFixed_littleEndian inside rest

theorem length_of_take {count : Nat} {bytes taken rest : Bytes}
    (split : take count bytes = .ok (taken, rest)) : taken.length = count := by
  by_cases enough : count ≤ bytes.length
  · rw [take, if_pos enough] at split
    cases split
    exact List.length_take_of_le enough
  · rw [take, if_neg enough] at split
    cases split

theorem lt_of_decodeFixed {count number : Nat} {bytes rest : Bytes}
    (read : decodeFixed count bytes = .ok (number, rest)) : number < 256 ^ count := by
  rw [decodeFixed] at read
  cases split : take count bytes with
  | error fault =>
      rw [split] at read
      cases read
  | ok halves =>
      rw [split] at read
      cases read
      rw [← length_of_take split]
      exact Bytes.toNatLittleEndian_lt _

/-- A number that is read has room in its width. -/
theorem lt_of_decode {width : Width} {number : Nat} {bytes rest : Bytes}
    (read : decode width bytes = .ok (number, rest)) : number < 2 ^ width.bits := by
  have room {digits : Nat} (narrow : digits ≤ width.bits) : 2 ^ digits ≤ 2 ^ width.bits :=
    Nat.pow_le_pow_right Nat.two_pos narrow
  have sixteen : 16 ≤ width.bits := by
    cases width <;> decide
  cases bytes with
  | nil => cases read
  | cons lead bytes =>
      rw [decode] at read
      split at read
      next =>
        cases read
        exact Nat.lt_of_lt_of_le lead.toNat_lt (room (Nat.le_trans (by decide) sixteen))
      next =>
        split at read
        next => exact Nat.lt_of_lt_of_le (lt_of_decodeFixed read) (room sixteen)
        next =>
          split at read
          next wide => exact Nat.lt_of_lt_of_le (lt_of_decodeFixed read) (room wide.2)
          next =>
            split at read
            next wide => exact Nat.lt_of_lt_of_le (lt_of_decodeFixed read) (room wide.2)
            next => cases read

theorem unzigzag_zigzag (number : Int) : unzigzag (zigzag number) = number := by
  unfold zigzag unzigzag
  split <;> split <;> omega

theorem zigzag_lt {number : Int} (above : -2 ^ 63 ≤ number) (below : number < 2 ^ 63) :
    zigzag number < 2 ^ 64 := by
  unfold zigzag
  split <;> omega

end Varint

namespace Codec

/-- Values of the given kind are read back, whatever bytes follow them. -/
def RoundTrips (codec : Codec Value) (Fits : Value → Prop) : Prop :=
  ∀ value rest, Fits value → codec.decode (codec.encode value ++ rest) = .ok (value, rest)

theorem RoundTrips.decodeFront {codec : Codec Value} {Fits : Value → Prop}
    (roundTrips : codec.RoundTrips Fits) {value : Value} (fits : Fits value) :
    codec.decodeFront (codec.encode value) = .ok value := by
  have read := roundTrips value [] fits
  rw [List.append_nil] at read
  rw [Codec.decodeFront, read]
  rfl

/-- What was written is read back when nothing follows it. -/
theorem RoundTrips.decodeExact {codec : Codec Value} {Fits : Value → Prop}
    (roundTrips : codec.RoundTrips Fits) {value : Value} (fits : Fits value) :
    codec.decodeExact (codec.encode value) = .ok value := by
  have read := roundTrips value [] fits
  rw [List.append_nil] at read
  rw [Codec.decodeExact, read]
  rfl

theorem u16_roundTrips : u16.RoundTrips fun _ => True := by
  intro number rest _
  change (Varint.decode .w16 (Varint.encode number.toNat ++ rest)).map _ = _
  rw [Varint.decode_encode number.toNat_lt]
  simp [Except.map]

theorem u64_roundTrips : u64.RoundTrips fun _ => True := by
  intro number rest _
  change (Varint.decode .w64 (Varint.encode number.toNat ++ rest)).map _ = _
  rw [Varint.decode_encode number.toNat_lt]
  simp [Except.map]

theorem i64_roundTrips : i64.RoundTrips fun _ => True := by
  intro number rest _
  have fits : Varint.zigzag number.toInt < 2 ^ Width.w64.bits :=
    Varint.zigzag_lt number.le_toInt number.toInt_lt
  simp only [i64]
  rw [Varint.decode_encode fits]
  simp [Varint.unzigzag_zigzag]

/-! ## Texts and lists -/

theorem text_roundTrips : text.RoundTrips TextFits := by
  intro value rest fits
  simp only [text, List.append_assoc]
  rw [Varint.decode_encode fits]
  simp only [bind, Except.bind]
  rw [Varint.take_append]
  simp only [Utf8.decode_ofText]

theorem decodeMany_flatMap {item : Codec Value} {Fits : Value → Prop}
    (roundTrips : item.RoundTrips Fits) {values : List Value}
    (fits : ∀ value ∈ values, Fits value) (rest : Bytes) :
    decodeMany item values.length (values.flatMap item.encode ++ rest) =
      .ok (values, rest) := by
  induction values with
  | nil => rfl
  | cons value values ih =>
      rcases List.forall_mem_cons.mp fits with ⟨head, tail⟩
      rw [List.flatMap_cons, List.length_cons, List.append_assoc, decodeMany]
      simp only [roundTrips value _ head, ih tail, bind, Except.bind]

theorem list_roundTrips {item : Codec Value} {Fits : Value → Prop}
    (roundTrips : item.RoundTrips Fits) :
    (list item).RoundTrips fun values =>
      values.length < 2 ^ 64 ∧ ∀ value ∈ values, Fits value := by
  intro values rest fits
  simp only [list, List.append_assoc]
  rw [Varint.decode_encode fits.1]
  exact decodeMany_flatMap roundTrips fits.2 rest

/-! ## Records -/

theorem pair_roundTrips {first : Codec α} {second : Codec β} {Fits : α → Prop}
    {Suits : β → Prop} (left : first.RoundTrips Fits) (right : second.RoundTrips Suits) :
    (pair first second).RoundTrips fun value => Fits value.1 ∧ Suits value.2 := by
  intro value rest fits
  simp only [pair, List.append_assoc]
  simp only [left value.1 _ fits.1, right value.2 _ fits.2, bind, Except.bind]

theorem via_roundTrips {codec : Codec α} {Fits : α → Prop} (roundTrips : codec.RoundTrips Fits)
    {ofContent : α → β} {toContent : β → α}
    (inverse : ∀ value, ofContent (toContent value) = value) :
    (codec.via ofContent toContent).RoundTrips fun value => Fits (toContent value) := by
  intro value rest fits
  simp only [via]
  rw [roundTrips _ rest fits]
  simp only [Except.map, inverse]

theorem variant_roundTrips {name : String} {count : Nat} {Payload : Fin count → Type}
    {payload : (index : Fin count) → Codec (Payload index)}
    {Fits : (index : Fin count) → Payload index → Prop}
    (each : ∀ index, (payload index).RoundTrips (Fits index)) (few : count ≤ 2 ^ 32) :
    (variant name count payload).RoundTrips fun value => Fits value.1 value.2 := by
  rintro ⟨⟨index, inside⟩, content⟩ rest fits
  have room : index < 2 ^ Width.w32.bits := Nat.lt_of_lt_of_le inside few
  simp only [variant, List.append_assoc]
  rw [Varint.decode_encode room]
  simp only [bind, Except.bind, dif_pos inside, each ⟨index, inside⟩ content rest fits]

/-! ## What is read fits -/

/-- Whatever the bytes are, a value that is read from them is of the given
kind. -/
def Yields (codec : Codec Value) (Fits : Value → Prop) : Prop :=
  ∀ bytes value rest, codec.decode bytes = .ok (value, rest) → Fits value

theorem Yields.decodeFront {codec : Codec Value} {Fits : Value → Prop}
    (yields : codec.Yields Fits) {bytes : Bytes} {value : Value}
    (read : codec.decodeFront bytes = .ok value) : Fits value := by
  rw [Codec.decodeFront] at read
  cases found : codec.decode bytes with
  | error fault =>
      rw [found] at read
      cases read
  | ok reached =>
      rw [found] at read
      cases read
      exact yields bytes reached.1 reached.2 found

theorem yields_true (codec : Codec Value) : codec.Yields fun _ => True :=
  fun _ _ _ _ => trivial

theorem text_yields : text.Yields TextFits := by
  intro bytes value rest read
  simp only [text, bind, Except.bind] at read
  cases counted : Varint.decode .w64 bytes with
  | error fault => simp [counted] at read
  | ok counting =>
      cases split : Varint.take counting.1 counting.2 with
      | error fault => simp [counted, split] at read
      | ok halves =>
          cases spelled : Utf8.decode halves.1 with
          | error fault => simp [counted, split, spelled] at read
          | ok text =>
              simp only [counted, split, spelled] at read
              cases read
              rw [TextFits, Utf8.ofText_of_decode spelled, Varint.length_of_take split]
              exact Varint.lt_of_decode counted

theorem decodeMany_yields {item : Codec Value} {Fits : Value → Prop}
    (yields : item.Yields Fits) {count : Nat} {bytes rest : Bytes} {values : List Value}
    (read : decodeMany item count bytes = .ok (values, rest)) :
    values.length = count ∧ ∀ value ∈ values, Fits value := by
  induction count generalizing bytes values with
  | zero =>
      cases read
      exact ⟨rfl, List.forall_mem_nil _⟩
  | succ count ih =>
      simp only [decodeMany, bind, Except.bind] at read
      cases first : item.decode bytes with
      | error fault => simp [first] at read
      | ok head =>
          cases others : decodeMany item count head.2 with
          | error fault => simp [first, others] at read
          | ok tail =>
              simp only [first, others] at read
              cases read
              rcases ih others with ⟨length, all⟩
              exact ⟨congrArg (· + 1) length,
                List.forall_mem_cons.mpr ⟨yields bytes head.1 head.2 first, all⟩⟩

theorem list_yields {item : Codec Value} {Fits : Value → Prop} (yields : item.Yields Fits) :
    (list item).Yields fun values => values.length < 2 ^ 64 ∧ ∀ value ∈ values, Fits value := by
  intro bytes values rest read
  simp only [list, bind, Except.bind] at read
  cases counted : Varint.decode .w64 bytes with
  | error fault => simp [counted] at read
  | ok counting =>
      simp only [counted] at read
      rcases decodeMany_yields yields read with ⟨length, all⟩
      exact ⟨length ▸ Varint.lt_of_decode counted, all⟩

theorem pair_yields {first : Codec α} {second : Codec β} {Fits : α → Prop} {Suits : β → Prop}
    (left : first.Yields Fits) (right : second.Yields Suits) :
    (pair first second).Yields fun value => Fits value.1 ∧ Suits value.2 := by
  intro bytes value rest read
  simp only [pair, bind, Except.bind] at read
  cases one : first.decode bytes with
  | error fault => simp [one] at read
  | ok head =>
      cases other : second.decode head.2 with
      | error fault => simp [one, other] at read
      | ok tail =>
          simp only [one, other] at read
          cases read
          exact ⟨left bytes head.1 head.2 one, right head.2 tail.1 tail.2 other⟩

theorem via_yields {codec : Codec α} {Fits : α → Prop} (yields : codec.Yields Fits)
    (ofContent : α → β) (toContent : β → α) :
    (codec.via ofContent toContent).Yields fun value =>
      ∃ content, Fits content ∧ value = ofContent content := by
  intro bytes value rest read
  simp only [via] at read
  cases found : codec.decode bytes with
  | error fault =>
      rw [found] at read
      cases read
  | ok reached =>
      rw [found] at read
      cases read
      exact ⟨reached.1, yields bytes reached.1 reached.2 found, rfl⟩

theorem variant_yields {name : String} {count : Nat} {Payload : Fin count → Type}
    {payload : (index : Fin count) → Codec (Payload index)}
    {Fits : (index : Fin count) → Payload index → Prop}
    (each : ∀ index, (payload index).Yields (Fits index)) :
    (variant name count payload).Yields fun value => Fits value.1 value.2 := by
  intro bytes value rest read
  simp only [variant, bind, Except.bind] at read
  cases numbered : Varint.decode .w32 bytes with
  | error fault => simp [numbered] at read
  | ok number =>
      simp only [numbered] at read
      split at read
      next inside =>
        cases content : (payload ⟨number.1, inside⟩).decode number.2 with
        | error fault => simp [content] at read
        | ok reached =>
            simp only [content] at read
            cases read
            exact each ⟨number.1, inside⟩ number.2 reached.1 reached.2 content
      next => cases read

end Codec

end LedgerNode
