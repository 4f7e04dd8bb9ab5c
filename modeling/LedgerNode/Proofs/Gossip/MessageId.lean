import LedgerNode.Key.Identity
import LedgerNode.Proofs.Base58
import LedgerNode.Proofs.Bytes.Hex
import LedgerNode.Proofs.Gossip.Window

namespace LedgerNode

/-!
# Ids tell messages apart

The id of a message is the digest of the origin's id, of the message's number and
of what the message carries.  The three stand one behind the other, and nothing says
where one ends and the next one begins.  The number has eight bytes.  As long as it
leaves the highest of them empty, and the origin's id has no null character, the
first zero byte of all is where the number begins, so that the parts are found again.
Origins are digests in base 58, which have no null character.

A message is therefore dropped only if it was met before, unless the digest collides.
-/

namespace Base58

/-- A byte string in base 58 has no null character. -/
theorem null_not_mem_encode (bytes : Bytes) : '\x00' ∉ (encode bytes).toList := by
  have visible : ∀ value < 58, symbol value ≠ '\x00' := by decide
  rw [toList_encode]
  intro member
  rcases List.mem_map.mp member with ⟨value, inside, same⟩
  exact visible value (lt_of_mem_values inside) same

end Base58

namespace Overlay

/-- What the id of a message is made of: who has published it, as which of his
messages, and what it carries. -/
structure Imprint where
  origin : String
  number : UInt64
  data : Bytes
deriving DecidableEq

namespace Imprint

/-- What is digested. -/
def bytes (imprint : Imprint) : Bytes :=
  Bytes.ofText imprint.origin ++ Bytes.bigEndian 8 imprint.number.toNat ++ imprint.data

def id (imprint : Imprint) : String := messageId imprint.origin imprint.number imprint.data

/-- The origin has no null character, and the number leaves its highest byte empty. -/
structure Plain (imprint : Imprint) : Prop where
  origin : '\x00' ∉ imprint.origin.toList
  number : imprint.number.toNat < 2 ^ 56

/-- The digest of different byte strings is the same. -/
def Collide (first second : Imprint) : Prop :=
  first.bytes ≠ second.bytes ∧ Sha256.digest first.bytes = Sha256.digest second.bytes

variable {first second : Imprint}

theorem id_inj : first.id = second.id ↔ Sha256.digest first.bytes = Sha256.digest second.bytes :=
  Hex.lower_inj

theorem number_inj : Bytes.bigEndian 8 first.number.toNat = Bytes.bigEndian 8 second.number.toNat ↔
    first.number = second.number := by
  rw [Bytes.bigEndian_inj first.number.toNat_lt second.number.toNat_lt, UInt64.toNat_inj]

/-- What follows the origin begins with a zero byte. -/
theorem Plain.bytes_eq (plain : first.Plain) :
    first.bytes = Bytes.ofText first.origin ++
      0 :: (Bytes.bigEndian 7 first.number.toNat ++ first.data) := by
  rw [bytes, Bytes.bigEndian_succ_of_lt plain.number, List.append_assoc]
  rfl

theorem Plain.eq_of_bytes (one : first.Plain) (other : second.Plain)
    (same : first.bytes = second.bytes) : first = second := by
  rw [one.bytes_eq, other.bytes_eq] at same
  rcases (separated_inj (mt Bytes.zero_mem_ofText_iff.mp one.origin)
    (mt Bytes.zero_mem_ofText_iff.mp other.origin)).mp same with ⟨origins, rest⟩
  rcases List.append_inj rest
    ((Bytes.length_bigEndian _ _).trans (Bytes.length_bigEndian _ _).symm) with ⟨numbers, data⟩
  have number : first.number = second.number :=
    UInt64.toNat_inj.mp ((Bytes.bigEndian_inj one.number other.number).mp numbers)
  cases first
  cases second
  cases Bytes.ofText_inj.mp origins
  cases number
  cases data
  rfl

/-- Messages of one origin are known from their bytes whatever their numbers are. -/
theorem eq_of_bytes (origin : first.origin = second.origin) (same : first.bytes = second.bytes) :
    first = second := by
  rw [bytes, bytes, origin, List.append_assoc, List.append_assoc] at same
  have rest := List.append_cancel_left same
  rcases List.append_inj rest
    ((Bytes.length_bigEndian _ _).trans (Bytes.length_bigEndian _ _).symm) with ⟨numbers, data⟩
  cases first
  cases second
  cases origin
  cases number_inj.mp numbers
  cases data
  rfl

/-- Two messages with null-free origins and not too many predecessors, or two messages
of one origin. -/
def Comparable (first second : Imprint) : Prop :=
  first.Plain ∧ second.Plain ∨ first.origin = second.origin

theorem Comparable.id_eq_iff (comparable : Comparable first second)
    (apart : ¬ Collide first second) : first.id = second.id ↔ first = second := by
  rw [id_inj]
  constructor
  · intro digests
    have same : first.bytes = second.bytes := not_not.mp fun other => apart ⟨other, digests⟩
    rcases comparable with ⟨one, other⟩ | origin
    · exact one.eq_of_bytes other same
    · exact eq_of_bytes origin same
  · rintro rfl
    rfl

end Imprint

/-! ## Messages that are dropped -/

theorem mem_recorded {past : List String} {met : Option String} {id : String}
    (recorded : id ∈ Overlay.recorded past met) : id ∈ past ∨ met = some id := by
  cases met with
  | none => exact .inl recorded
  | some other =>
      rw [Overlay.recorded] at recorded
      split at recorded
      next => exact .inl recorded
      next =>
          rcases List.mem_cons.mp recorded with rfl | before
          · exact .inr rfl
          · exact .inl before

/-- Whatever is recorded in a run was recorded before it, or was the id of a message
that came or was published in it. -/
theorem mem_recordings {overlay : Overlay} {past : List String} {happenings : List Happening}
    {id : String} (recorded : id ∈ overlay.recordings past happenings) :
    id ∈ past ∨ ∃ earlier happening later, happenings = earlier ++ happening :: later ∧
      happening.event.messageId? (overlay.run earlier) = some id := by
  induction happenings generalizing overlay past with
  | nil => exact .inl recorded
  | cons head rest ih =>
      rcases ih recorded with now | ⟨earlier, happening, later, rfl, met⟩
      · rcases mem_recorded now with before | met
        · exact .inl before
        · exact .inr ⟨[], head, rest, rfl, met⟩
      · exact .inr ⟨head :: earlier, happening, later, rfl, met⟩

/-- The ids of messages tell the messages apart, except for collisions of the digest.
This is so for origins without a null character and numbers below `2 ^ 56`, and for
one origin with all its numbers; the ids of nodes have no null character.  So, in
every run of a node, a message is dropped only if one with its id had come or was
published before, and that was no other message. -/
theorem ids_separate_messages :
    (∀ first second : Imprint, first.Plain → second.Plain → ¬ first.Collide second →
      (first.id = second.id ↔ first = second)) ∧
    (∀ first second : Imprint, first.origin = second.origin → ¬ first.Collide second →
      (first.id = second.id ↔ first = second)) ∧
    (∀ publicKey : Bytes, '\x00' ∉ (Identity.idOf publicKey).toList) ∧
    ∀ (registry : Registry) (port : UInt16) (happenings : List Happening) (arrival : Arrival)
      (imprint : Imprint), arrival.messageId = imprint.id →
      ¬ arrival.ProcessedBy ((start registry port).run happenings) →
      ∃ earlier happening later, happenings = earlier ++ happening :: later ∧
        happening.event.messageId? ((start registry port).run earlier) = some imprint.id ∧
        ∀ other : Imprint, other.Comparable imprint → ¬ other.Collide imprint →
          happening.event.messageId? ((start registry port).run earlier) = some other.id →
          other = imprint := by
  refine ⟨?_, ?_, fun _ => Base58.null_not_mem_encode _, ?_⟩
  · intro first second one other apart
    exact Imprint.Comparable.id_eq_iff (.inl ⟨one, other⟩) apart
  · intro first second origin apart
    exact Imprint.Comparable.id_eq_iff (.inr origin) apart
  · intro registry port happenings arrival imprint named dropped
    have seen : imprint.id ∈ ((start registry port).run happenings).seen.ids := by
      rw [← named]
      exact not_not.mp (mt Arrival.processedBy_iff.mpr dropped)
    have begins : (start registry port).seen.ids = [].take seenCapacity := rfl
    rw [run_window begins] at seen
    rcases mem_recordings (List.mem_of_mem_take seen) with
      nothing | ⟨earlier, happening, later, split, met⟩
    · cases nothing
    · refine ⟨earlier, happening, later, split, met, ?_⟩
      intro other comparable apart metToo
      rw [met] at metToo
      exact (comparable.id_eq_iff apart).mp (Option.some.inj metToo).symm

/-- A number that fills all its bytes hides where the origin ends. -/
example : (⟨"", 0x6100000000000000, [7]⟩ : Imprint).bytes =
    (⟨"a", 7, []⟩ : Imprint).bytes := by decide

/-- Two messages whose parts have different lengths and whose bytes are alike. -/
def firstSample : Imprint := ⟨"ab", 0, [98, 1]⟩

def secondSample : Imprint := ⟨"a", 0, [98, 98, 1]⟩

/-- A message of an origin that no node has. -/
def strangeSample (number : UInt64) : Imprint := ⟨"\x00", number, []⟩

/-- The first message, as it comes over a connection. -/
def sampleArrival : Arrival where
  network := .isolated
  source := .v4 Network.loopback
  topic := "blocks"
  messageId := firstSample.id
  origin := "ab"
  sender := "c"
  data := [98, 1]

/-- The two messages have different ids, and so have two messages of an origin with a
null character and with great numbers.  A message that comes twice is dropped because
it had come before. -/
theorem ids_separate_messages_twice :
    firstSample.Plain ∧ secondSample.Plain ∧ firstSample.id ≠ secondSample.id ∧
      (strangeSample 0xffffffffffffffff).id ≠ (strangeSample 0xff00000000000000).id ∧
      '\x00' ∉ (Identity.idOf [4]).toList ∧
      ¬ sampleArrival.ProcessedBy
        ((start (.ofOwn default) 45050).run [sampleArrival.happening]) ∧
      ∃ earlier happening later, [sampleArrival.happening] = earlier ++ happening :: later ∧
        happening.event.messageId? ((start (.ofOwn default) 45050).run earlier) =
          some firstSample.id := by
  have one : firstSample.Plain := ⟨by decide, by decide⟩
  have other : secondSample.Plain := ⟨by decide, by decide⟩
  have apart : ¬ firstSample.Collide secondSample := fun collide =>
    absurd collide.2 (by decide +kernel)
  have far : ¬ (strangeSample 0xffffffffffffffff).Collide (strangeSample 0xff00000000000000) :=
    fun collide => absurd collide.2 (by decide +kernel)
  have origins : (strangeSample 0xffffffffffffffff).origin =
      (strangeSample 0xff00000000000000).origin := rfl
  have processed : sampleArrival.ProcessedBy (start (.ofOwn default) 45050) :=
    Arrival.processedBy_iff.mpr List.not_mem_nil
  have dropped : ¬ sampleArrival.ProcessedBy
      ((start (.ofOwn default) 45050).run [sampleArrival.happening]) := by
    intro again
    apply Arrival.processedBy_iff.mp again
    change _ ∈ ((start (.ofOwn default) 45050).step sampleArrival.happening).seen.ids
    rw [processed.remembered]
    exact List.mem_cons_self
  rcases ids_separate_messages.2.2.2 _ _ _ sampleArrival firstSample rfl dropped with
    ⟨earlier, happening, later, split, met, -⟩
  refine ⟨one, other, ?_, ?_, ids_separate_messages.2.2.1 [4], dropped, earlier, happening, later,
    split, met⟩
  · exact mt (ids_separate_messages.1 _ _ one other apart).mp (by decide)
  · exact mt (ids_separate_messages.2.1 _ _ origins far).mp (by decide)

end Overlay

end LedgerNode
