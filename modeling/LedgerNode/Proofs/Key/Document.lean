import LedgerNode.Key.Document
import LedgerNode.Proofs.Bytes

namespace LedgerNode

/-!
# Written key documents are accepted

The document that is written for a private key is read again element by element.  It
is accepted for every number that is a private key of the curve, and the public key
that it yields is the one that belongs to this number.  Conversely, whatever document
is accepted, the public key that it yields belongs to some private key, so that it is
never empty.
-/

namespace Except

variable {Reason Other Value Result : Type}

theorem bind_eq_ok_iff {outcome : Except Reason Value} {next : Value → Except Reason Result}
    {result : Result} :
    (outcome >>= next) = .ok result ↔ ∃ value, outcome = .ok value ∧ next value = .ok result := by
  cases outcome with
  | error reason => exact ⟨nofun, nofun⟩
  | ok value => exact ⟨fun same => ⟨value, rfl, same⟩, fun ⟨_, rfl, same⟩ => same⟩

theorem bind_eq_error_iff {outcome : Except Reason Value} {next : Value → Except Reason Result}
    {reason : Reason} :
    (outcome >>= next) = .error reason ↔
      outcome = .error reason ∨ ∃ value, outcome = .ok value ∧ next value = .error reason := by
  cases outcome with
  | error first =>
      constructor
      · intro same
        cases same
        exact .inl rfl
      · rintro (same | ⟨_, nothing, -⟩)
        · cases same
          rfl
        · cases nothing
  | ok value => exact ⟨fun same => .inr ⟨value, rfl, same⟩, fun | .inr ⟨_, rfl, same⟩ => same⟩

theorem mapError_eq_ok_iff {outcome : Except Reason Value} {change : Reason → Other}
    {value : Value} : outcome.mapError change = .ok value ↔ outcome = .ok value := by
  cases outcome with
  | error reason =>
      constructor
      · intro same
        cases same
      · intro same
        cases same
  | ok found =>
      constructor
      · intro same
        cases same
        rfl
      · intro same
        cases same
        rfl

theorem mapError_eq_error_iff {outcome : Except Reason Value} {change : Reason → Other}
    {other : Other} :
    outcome.mapError change = .error other ↔
      ∃ reason, outcome = .error reason ∧ change reason = other := by
  cases outcome with
  | error reason =>
      constructor
      · intro same
        exact ⟨reason, rfl, Except.error.inj same⟩
      · rintro ⟨_, here, rfl⟩
        cases here
        rfl
  | ok found =>
      constructor
      · intro same
        cases same
      · rintro ⟨_, here, -⟩
        cases here

end Except

/-! ## Elements -/

namespace Der

theorem readLength_writeLength {length : Nat} (small : length < 2 ^ 16) (rest : Bytes) :
    readLength (writeLength length ++ rest) = some (length, rest) := by
  have value {number : Nat} (small : number < 256) : (UInt8.ofNat number).toNat = number := by
    rw [UInt8.toNat_ofNat', Nat.mod_eq_of_lt small]
  rw [writeLength]
  split
  next short =>
      have first : UInt8.ofNat length < 0x80 := by
        rw [UInt8.lt_iff_toNat_lt, value (by omega)]
        exact short
      rw [List.singleton_append, readLength.eq_def]
      dsimp only
      rw [if_pos first, value (by omega)]
  next long =>
      split
      next one =>
          have second : ¬ UInt8.ofNat length < 0x80 := by
            rw [UInt8.lt_iff_toNat_lt, value one]
            exact long
          rw [List.cons_append, List.singleton_append, readLength.eq_def]
          dsimp only
          rw [if_neg (by decide), if_pos rfl, if_neg second, value one]
      next two =>
          have bytes : Bytes.bigEndian 2 length =
              [UInt8.ofNat (length / 256), UInt8.ofNat length] := rfl
          have whole : 256 * (UInt8.ofNat (length / 256)).toNat + (UInt8.ofNat length).toNat =
              length := by
            rw [UInt8.toNat_ofNat', UInt8.toNat_ofNat']
            omega
          rw [bytes, List.cons_append, List.cons_append, List.singleton_append, readLength.eq_def]
          dsimp only
          rw [if_neg (by decide), if_neg (by decide), if_pos rfl, whole, if_neg two]

theorem read_write {tag : UInt8} {content : Bytes} (small : content.length < 2 ^ 16)
    (rest : Bytes) : read tag (write tag content ++ rest) = some (content, rest) := by
  rw [write, List.append_assoc, List.cons_append, read, if_pos rfl,
    readLength_writeLength small (content ++ rest)]
  change (if content.length ≤ (content ++ rest).length then
    some ((content ++ rest).take content.length, (content ++ rest).drop content.length)
    else none) = _
  rw [List.length_append, if_pos (Nat.le_add_right _ _), List.take_left, List.drop_left]

theorem read_write_self {tag : UInt8} {content : Bytes} (small : content.length < 2 ^ 16) :
    read tag (write tag content) = some (content, []) := by
  rw [← List.append_nil (write tag content)]
  exact read_write small []

theorem length_write_le (tag : UInt8) (content : Bytes) :
    (write tag content).length ≤ content.length + 4 := by
  have short : (writeLength content.length).length ≤ 3 := by
    rw [writeLength]
    split
    · simp
    · split
      · simp
      · exact Nat.le_refl 3
  rw [write, List.length_append, List.length_cons]
  omega

theorem readSmallInteger_write {value : UInt8} (small : value < 0x80) (rest : Bytes) :
    readSmallInteger (write integerTag [value] ++ rest) = some (value.toNat, rest) := by
  have one : [value].length < 2 ^ 16 := by
    rw [List.length_singleton]
    decide
  rw [readSmallInteger, read_write one]
  exact if_pos small

theorem readBitString_write {content : Bytes} (small : content.length + 1 < 2 ^ 16) :
    readBitString (write bitStringTag (0 :: content)) = some (content, []) := by
  have fits : (0 :: content).length < 2 ^ 16 := small
  rw [readBitString, read_write_self fits]
  rfl

end Der

/-! ## Keys -/

namespace Curve

theorem length_publicKey (secret : Nat) : 0 < (publicKey secret).length ∧
    (publicKey secret).length ≤ 65 := by
  rw [publicKey]
  cases base.multiply secret with
  | infinity => decide
  | affine x y =>
      rw [Point.bytes, List.length_append, List.length_cons, Bytes.length_bigEndian,
        Bytes.length_bigEndian]
      decide

theorem publicKey_ne_nil (secret : Nat) : publicKey secret ≠ [] :=
  List.ne_nil_of_length_pos (length_publicKey secret).1

end Curve

/-! ## Documents -/

namespace KeyDocument

theorem readOuter_write {inner : Bytes} (small : inner.length < 2 ^ 16) :
    readOuter (Der.write Der.integerTag [0] ++ Der.write Der.sequenceTag algorithm ++
      Der.write Der.octetStringTag inner) = .ok inner := by
  have last : Der.read Der.octetStringTag (Der.write Der.octetStringTag inner) =
      some (inner, []) := Der.read_write_self small
  have named : algorithm.length < 2 ^ 16 := by decide
  have version : (0 : UInt8) < 0x80 := by decide
  simp [readOuter, Der.readSmallInteger_write version, Der.read_write named, last, orInvalid,
    Der.isNext, expectEnd, bind, Except.bind, pure, Except.pure]

theorem readPublicKey_write {key : Bytes} (small : key.length < 2 ^ 15) :
    readPublicKey (Der.write (Der.contextTag 1) (Der.write Der.bitStringTag (0 :: key))) =
      .ok key := by
  have size := Der.length_write_le Der.bitStringTag (0 :: key)
  rw [List.length_cons] at size
  have fits : (Der.write Der.bitStringTag (0 :: key)).length < 2 ^ 16 := by omega
  have outside : Der.read (Der.contextTag 1)
      (Der.write (Der.contextTag 1) (Der.write Der.bitStringTag (0 :: key))) =
        some (Der.write Der.bitStringTag (0 :: key), []) := Der.read_write_self fits
  have inside : Der.readBitString (Der.write Der.bitStringTag (0 :: key)) = some (key, []) :=
    Der.readBitString_write (by omega)
  simp [readPublicKey, outside, inside, orInvalid, expectEnd, bind, Except.bind, pure,
    Except.pure]

theorem readInner_write {secret key : Bytes} (one : secret.length < 2 ^ 16)
    (other : key.length < 2 ^ 15) :
    readInner (Der.write Der.integerTag [1] ++ Der.write Der.octetStringTag secret ++
      Der.write (Der.contextTag 1) (Der.write Der.bitStringTag (0 :: key))) =
        .ok (secret, key) := by
  have version : (1 : UInt8) < 0x80 := by decide
  have tagged : Der.isNext (Der.contextTag 0)
      (Der.write (Der.contextTag 1) (Der.write Der.bitStringTag (0 :: key))) = false := rfl
  simp [readInner, Der.readSmallInteger_write version, Der.read_write one, tagged,
    readPublicKey_write other, orInvalid, bind, Except.bind, pure, Except.pure]

theorem readSequence_write {content : Bytes} (small : content.length < 2 ^ 16) :
    readSequence (Der.write Der.sequenceTag content) = .ok (content, []) := by
  rw [readSequence, Der.read_write_self small]
  rfl

theorem readSecret_bigEndian {secret : Nat} (positive : 0 < secret)
    (below : secret < Curve.order) : readSecret (Bytes.bigEndian 32 secret) = .ok secret := by
  have width := Bytes.length_bigEndian 32 secret
  have value : Bytes.toNatBigEndian (Bytes.bigEndian 32 secret) = secret := by
    rw [Bytes.toNatBigEndian, Bytes.bigEndian, List.reverse_reverse,
      Bytes.toNatLittleEndian_littleEndian, Nat.mod_eq_of_lt (Nat.lt_trans below (by decide))]
  rw [readSecret, value]
  exact if_pos ⟨width, positive, below⟩

/-- The content of the inner document of a private key. -/
def innerContent (secret : Nat) : Bytes :=
  Der.write Der.integerTag [1] ++ Der.write Der.octetStringTag (Bytes.bigEndian 32 secret) ++
    Der.write (Der.contextTag 1) (Der.write Der.bitStringTag (0 :: Curve.publicKey secret))

/-- No part is longer than its content by more than four bytes. -/
theorem length_innerContent_le (secret : Nat) : (innerContent secret).length ≤ 128 := by
  have width := Bytes.length_bigEndian 32 secret
  have key := (Curve.length_publicKey secret).2
  have version := Der.length_write_le Der.integerTag [1]
  have number := Der.length_write_le Der.octetStringTag (Bytes.bigEndian 32 secret)
  have bits := Der.length_write_le Der.bitStringTag (0 :: Curve.publicKey secret)
  have point := Der.length_write_le (Der.contextTag 1)
    (Der.write Der.bitStringTag (0 :: Curve.publicKey secret))
  rw [innerContent, List.length_append, List.length_append]
  rw [List.length_singleton] at version
  rw [List.length_cons] at bits
  omega

/-- The content of the outer document of a private key. -/
def outerContent (secret : Nat) : Bytes :=
  Der.write Der.integerTag [0] ++ Der.write Der.sequenceTag algorithm ++
    Der.write Der.octetStringTag (writeInner secret)

theorem length_writeInner_le (secret : Nat) : (writeInner secret).length ≤ 132 :=
  Nat.le_trans (Der.length_write_le Der.sequenceTag (innerContent secret))
    (Nat.add_le_add_right (length_innerContent_le secret) 4)

theorem length_outerContent_le (secret : Nat) : (outerContent secret).length ≤ 256 := by
  have front : (Der.write Der.integerTag [0] ++
    Der.write Der.sequenceTag algorithm).length = 24 := by decide
  have inner := length_writeInner_le secret
  have back := Der.length_write_le Der.octetStringTag (writeInner secret)
  rw [outerContent, List.length_append, front]
  omega

/-- The document of a private key yields its public key. -/
theorem publicKey_ofSecret {secret : Nat} (positive : 0 < secret) (below : secret < Curve.order) :
    publicKey (ofSecret secret) = .ok (Curve.publicKey secret) := by
  have width := Bytes.length_bigEndian 32 secret
  have key := (Curve.length_publicKey secret).2
  have outside : readSequence (ofSecret secret) = .ok (outerContent secret, []) :=
    readSequence_write (Nat.lt_of_le_of_lt (length_outerContent_le secret) (by decide))
  have between : readOuter (outerContent secret) = .ok (writeInner secret) :=
    readOuter_write (Nat.lt_of_le_of_lt (length_writeInner_le secret) (by decide))
  have inside : readSequence (writeInner secret) = .ok (innerContent secret, []) :=
    readSequence_write (Nat.lt_of_le_of_lt (length_innerContent_le secret) (by decide))
  have parts : readInner (innerContent secret) =
      .ok (Bytes.bigEndian 32 secret, Curve.publicKey secret) :=
    readInner_write (by omega) (by omega)
  refine Except.bind_eq_ok_iff.mpr ⟨_, outside, ?_⟩
  refine Except.bind_eq_ok_iff.mpr ⟨_, between, ?_⟩
  refine Except.bind_eq_ok_iff.mpr ⟨(), rfl, ?_⟩
  refine Except.bind_eq_ok_iff.mpr ⟨_, inside, ?_⟩
  refine Except.bind_eq_ok_iff.mpr ⟨_, parts, ?_⟩
  refine Except.bind_eq_ok_iff.mpr ⟨(), rfl, ?_⟩
  refine Except.bind_eq_ok_iff.mpr ⟨secret, readSecret_bigEndian positive below, ?_⟩
  exact if_pos rfl

/-- The public key of an accepted document belongs to a private key. -/
theorem exists_secret {document key : Bytes} (accepted : publicKey document = .ok key) :
    ∃ secret, key = Curve.publicKey secret := by
  rw [publicKey] at accepted
  rcases Except.bind_eq_ok_iff.mp accepted with ⟨outer, -, accepted⟩
  rcases Except.bind_eq_ok_iff.mp accepted with ⟨innerDocument, -, accepted⟩
  rcases Except.bind_eq_ok_iff.mp accepted with ⟨-, -, accepted⟩
  rcases Except.bind_eq_ok_iff.mp accepted with ⟨inner, -, accepted⟩
  rcases Except.bind_eq_ok_iff.mp accepted with ⟨⟨secretBytes, publicKey⟩, -, accepted⟩
  rcases Except.bind_eq_ok_iff.mp accepted with ⟨-, -, accepted⟩
  rcases Except.bind_eq_ok_iff.mp accepted with ⟨secret, -, accepted⟩
  split at accepted
  next same =>
      cases accepted
      exact ⟨secret, same⟩
  next => cases accepted

end KeyDocument

end LedgerNode
