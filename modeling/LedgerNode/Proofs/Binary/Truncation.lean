import LedgerNode.Proofs.Binary.RoundTrip

namespace LedgerNode

/-!
# What was cut short is refused

A reader that meets the front of a written value, and not the whole of it, asks
for bytes that are not there.  It never takes the front for another value: the
parts before the cut are read back as they were written, and the part that is
cut runs out of bytes.

A format that also reads its values back, whatever follows them, is
self-delimiting.  No written form is then the beginning of another one.
-/

/-- A reader went past the end of its bytes, by at least one byte and by no more
than are missing. -/
def RunsOut (outcome : Except DecodeFault Value) (missing : Nat) : Prop :=
  ∃ additional, 0 < additional ∧ additional ≤ missing ∧
    outcome = .error (.unexpectedEnd additional)

namespace RunsOut

variable {outcome : Except DecodeFault α} {missing : Nat}

theorem weaken (runsOut : RunsOut outcome missing) {more : Nat} (less : missing ≤ more) :
    RunsOut outcome more := by
  rcases runsOut with ⟨additional, positive, bound, refused⟩
  exact ⟨additional, positive, Nat.le_trans bound less, refused⟩

theorem bind (runsOut : RunsOut outcome missing) (next : α → Except DecodeFault β) :
    RunsOut (outcome >>= next) missing := by
  rcases runsOut with ⟨additional, positive, bound, refused⟩
  rw [refused]
  exact ⟨additional, positive, bound, rfl⟩

theorem map (runsOut : RunsOut outcome missing) (change : α → β) :
    RunsOut (outcome.map change) missing := by
  rcases runsOut with ⟨additional, positive, bound, refused⟩
  rw [refused]
  exact ⟨additional, positive, bound, rfl⟩

/-- Two parts that are read one after the other.  The cut is either inside the first
part, or behind it, and then the first part is read back. -/
theorem sequence {decode : Bytes → Except DecodeFault (α × Bytes)}
    {next : α × Bytes → Except DecodeFault β} {value : α} {written rest front missing : Bytes}
    (same : written ++ rest = front ++ missing)
    (cut : ∀ middle, written = front ++ middle → middle ≠ [] →
      RunsOut (decode front) middle.length)
    (read : ∀ others, decode (written ++ others) = .ok (value, others))
    (further : ∀ middle, rest = middle ++ missing → RunsOut (next (value, middle)) missing.length) :
    RunsOut (decode front >>= next) missing.length := by
  rcases List.append_eq_append_iff.mp same with ⟨middle, behind, left⟩ | ⟨middle, inside, left⟩
  · rw [behind, read]
    exact further middle left
  · by_cases none : middle = []
    · subst none
      rw [List.append_nil] at inside
      have all := read []
      rw [List.append_nil, inside] at all
      rw [all]
      exact further [] left.symm
    · have within : middle.length ≤ missing.length := by
        rw [left, List.length_append]
        exact Nat.le_add_right _ _
      exact ((cut middle inside none).weaken within).bind next

end RunsOut

namespace Varint

/-- Fewer bytes than are wanted. -/
theorem take_cut {count : Nat} {front missing : Bytes}
    (length : (front ++ missing).length = count) (cut : missing ≠ []) :
    RunsOut (take count front) missing.length := by
  have positive : 0 < missing.length := List.length_pos_iff.mpr cut
  rw [List.length_append] at length
  rw [take, if_neg (by omega)]
  refine ⟨count - front.length, ?_, ?_, rfl⟩ <;> omega

theorem decode_cut (width : Width) {number : Nat} (fits : number < 2 ^ width.bits)
    {front missing : Bytes} (written : encode number = front ++ missing) (cut : missing ≠ []) :
    RunsOut (decode width front) missing.length := by
  have positive : 0 < missing.length := List.length_pos_iff.mpr cut
  cases front with
  | nil => exact ⟨1, Nat.one_pos, positive, rfl⟩
  | cons lead front =>
      rw [List.cons_append] at written
      rcases encode_cases fits with ⟨-, short⟩ | ⟨first, count, long, -, wide⟩
      · rw [short] at written
        rcases List.append_eq_nil_iff.mp (List.cons.inj written).2.symm with ⟨-, none⟩
        exact absurd none cut
      · rw [long] at written
        rcases List.cons.inj written with ⟨same, digits⟩
        rw [← same, wide, decodeFixed]
        apply RunsOut.map
        apply take_cut _ cut
        rw [← digits, Bytes.length_littleEndian]

end Varint

namespace Codec

/-- A written value that is cut short is refused for want of bytes. -/
def Truncates (codec : Codec Value) (Fits : Value → Prop) : Prop :=
  ∀ value front missing, Fits value → codec.encode value = front ++ missing → missing ≠ [] →
    RunsOut (codec.decode front) missing.length

/-- Values of the given kind are read back, whatever follows them, and are refused when
they are cut short. -/
structure Delimits (codec : Codec Value) (Fits : Value → Prop) : Prop where
  roundTrips : codec.RoundTrips Fits
  truncates : codec.Truncates Fits

/-- A kind of fewer values. -/
theorem Delimits.restrict {codec : Codec Value} {Fits Suits : Value → Prop}
    (delimits : codec.Delimits Fits) (fewer : ∀ value, Suits value → Fits value) :
    codec.Delimits Suits where
  roundTrips value rest suits := delimits.roundTrips value rest (fewer value suits)
  truncates value front missing suits := delimits.truncates value front missing (fewer value suits)

/-! ## Integers, truth values and texts -/

theorem unit_delimits : unit.Delimits fun _ => True where
  roundTrips _ _ _ := rfl
  truncates _ _ _ _ written cut :=
    absurd (List.append_eq_nil_iff.mp written.symm).2 cut

theorem u16_delimits : u16.Delimits fun _ => True where
  roundTrips := u16_roundTrips
  truncates number _ _ _ written cut :=
    (Varint.decode_cut .w16 number.toNat_lt written cut).map _

theorem u64_delimits : u64.Delimits fun _ => True where
  roundTrips := u64_roundTrips
  truncates number _ _ _ written cut :=
    (Varint.decode_cut .w64 number.toNat_lt written cut).map _

theorem i64_delimits : i64.Delimits fun _ => True where
  roundTrips := i64_roundTrips
  truncates := by
    intro number front missing _ written cut
    have fits : Varint.zigzag number.toInt < 2 ^ Width.w64.bits :=
      Varint.zigzag_lt number.le_toInt number.toInt_lt
    rcases Varint.decode_cut .w64 fits written cut with ⟨additional, positive, bound, refused⟩
    simp only [i64, refused]
    exact ⟨additional, positive, bound, rfl⟩

theorem bool_delimits : bool.Delimits fun _ => True where
  roundTrips := by
    intro value rest _
    cases value <;> rfl
  truncates := by
    intro value front missing _ written cut
    have one : (bool.encode value).length = 1 := by
      cases value <;> rfl
    have positive : 0 < missing.length := List.length_pos_iff.mpr cut
    rw [written, List.length_append] at one
    have none : front = [] := List.eq_nil_of_length_eq_zero (by omega)
    subst none
    exact ⟨1, Nat.one_pos, positive, rfl⟩

theorem text_delimits : text.Delimits TextFits where
  roundTrips := text_roundTrips
  truncates := by
    intro value front missing fits written cut
    refine RunsOut.sequence written
      (fun _ inside => Varint.decode_cut .w64 fits inside)
      (fun others => @Varint.decode_encode .w64 _ fits others) ?_
    intro middle behind
    exact (Varint.take_cut (congrArg List.length behind.symm) cut).bind _

/-! ## Combinators -/

theorem decodeMany_cut {item : Codec Value} {Fits : Value → Prop} (delimits : item.Delimits Fits)
    {values : List Value} (fits : ∀ value ∈ values, Fits value) {front missing : Bytes}
    (written : values.flatMap item.encode = front ++ missing) (cut : missing ≠ []) :
    RunsOut (decodeMany item values.length front) missing.length := by
  induction values generalizing front with
  | nil => exact absurd (List.append_eq_nil_iff.mp written.symm).2 cut
  | cons value values ih =>
      rcases List.forall_mem_cons.mp fits with ⟨head, tail⟩
      rw [List.flatMap_cons] at written
      refine RunsOut.sequence written (fun middle => delimits.truncates value front middle head)
        (fun others => delimits.roundTrips value others head) ?_
      intro middle behind
      exact (ih tail behind).bind _

theorem list_delimits {item : Codec Value} {Fits : Value → Prop} (delimits : item.Delimits Fits) :
    (list item).Delimits fun values =>
      values.length < 2 ^ 64 ∧ ∀ value ∈ values, Fits value where
  roundTrips := list_roundTrips delimits.roundTrips
  truncates := by
    intro values front missing fits written cut
    refine RunsOut.sequence written
      (fun _ inside => Varint.decode_cut .w64 fits.1 inside)
      (fun others => @Varint.decode_encode .w64 _ fits.1 others) ?_
    intro middle behind
    exact decodeMany_cut delimits fits.2 behind cut

theorem pair_delimits {first : Codec α} {second : Codec β} {Fits : α → Prop} {Suits : β → Prop}
    (left : first.Delimits Fits) (right : second.Delimits Suits) :
    (pair first second).Delimits fun value => Fits value.1 ∧ Suits value.2 where
  roundTrips := pair_roundTrips left.roundTrips right.roundTrips
  truncates := by
    intro value front missing fits written cut
    refine RunsOut.sequence written
      (fun middle => left.truncates value.1 front middle fits.1)
      (fun others => left.roundTrips value.1 others fits.1) ?_
    intro middle behind
    exact (right.truncates value.2 middle missing fits.2 behind cut).bind _

theorem via_delimits {codec : Codec α} {Fits : α → Prop} (delimits : codec.Delimits Fits)
    {ofContent : α → β} {toContent : β → α}
    (inverse : ∀ value, ofContent (toContent value) = value) :
    (codec.via ofContent toContent).Delimits fun value => Fits (toContent value) where
  roundTrips := via_roundTrips delimits.roundTrips inverse
  truncates value front missing fits written cut :=
    (delimits.truncates (toContent value) front missing fits written cut).map _

theorem variant_delimits {name : String} {count : Nat} {Payload : Fin count → Type}
    {payload : (index : Fin count) → Codec (Payload index)}
    {Fits : (index : Fin count) → Payload index → Prop}
    (each : ∀ index, (payload index).Delimits (Fits index)) (few : count ≤ 2 ^ 32) :
    (variant name count payload).Delimits fun value => Fits value.1 value.2 where
  roundTrips := variant_roundTrips (fun index => (each index).roundTrips) few
  truncates := by
    rintro ⟨⟨index, inside⟩, content⟩ front missing fits written cut
    have room : index < 2 ^ Width.w32.bits := Nat.lt_of_lt_of_le inside few
    refine RunsOut.sequence written (fun _ => Varint.decode_cut .w32 room)
      (fun others => Varint.decode_encode room others) ?_
    intro middle behind
    dsimp only
    rw [dif_pos inside]
    exact ((each ⟨index, inside⟩).truncates content middle missing fits behind cut).bind _

/-! ## Self-delimiting formats -/

/-- What the readers of a format make of the bytes of a value, of these bytes and some
more, and of some of these bytes. -/
structure SelfDelimiting (codec : Codec Value) (Fits : Value → Prop) : Prop where
  whole : ∀ value, Fits value → codec.decodeExact (codec.encode value) = .ok value
  followed : ∀ value rest, Fits value → rest ≠ [] →
    codec.decodeFront (codec.encode value ++ rest) = .ok value ∧
      codec.decodeExact (codec.encode value ++ rest) = .error (.trailing rest.length)
  cut : ∀ value front missing, Fits value → codec.encode value = front ++ missing →
    missing ≠ [] →
      RunsOut (codec.decodeFront front) missing.length ∧
        RunsOut (codec.decodeExact front) missing.length
  /-- No written form is the beginning of another one. -/
  unambiguous : ∀ first second, Fits first → Fits second →
    codec.encode first <+: codec.encode second → first = second

theorem Delimits.selfDelimiting {codec : Codec Value} {Fits : Value → Prop}
    (delimits : codec.Delimits Fits) : codec.SelfDelimiting Fits where
  whole _ := delimits.roundTrips.decodeExact
  followed := by
    intro value rest fits more
    rw [decodeFront, decodeExact, delimits.roundTrips value rest fits]
    refine ⟨rfl, ?_⟩
    have some : rest.isEmpty = false := List.isEmpty_eq_false_iff.mpr more
    change (if rest.isEmpty = true then _ else _) = _
    rw [some]
    rfl
  cut value front missing fits written cut :=
    let runsOut := delimits.truncates value front missing fits written cut
    ⟨runsOut.map _, runsOut.bind _⟩
  unambiguous := by
    rintro first second fits suits ⟨rest, longer⟩
    have one := delimits.roundTrips first rest fits
    have other := delimits.roundTrips second [] suits
    rw [List.append_nil, ← longer, one] at other
    exact congrArg Prod.fst (Except.ok.inj other)

end Codec

end LedgerNode
