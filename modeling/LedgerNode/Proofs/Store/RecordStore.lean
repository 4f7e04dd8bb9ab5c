import Mathlib.Data.List.Induction
import LedgerNode.Proofs.Binary.RoundTrip
import LedgerNode.Proofs.OrderedMap
import LedgerNode.Proofs.Store.Procedure
import LedgerNode.Store.RecordStore

namespace LedgerNode

/-!
# What a record store shows of the contents

An edit changes the answer under its own key alone, and of several edits of a
key only the last one shows afterwards.  The part of the contents under a
keyspace is all that a record store ever sees.  Putting a record changes the
part of its own store by one entry and the part of every store apart from it
not at all.  Each read of a store is one look at the contents and an answer
that depends on what was seen.
-/

/-! ## Edits -/

namespace Edit

/-- The key whose entry the edit changes. -/
def key : Edit → Bytes
  | put key _ => key
  | remove key => key

/-- What is stored under the key after the edit. -/
def value? : Edit → Option Bytes
  | put _ value => some value
  | remove _ => none

theorem get?_apply (contents : Contents) (edit : Edit) (sought : Bytes) :
    (apply contents edit).get? sought =
      if sought = edit.key then edit.value? else contents.get? sought := by
  cases edit with
  | put key value => exact OrderedMap.get?_insert _ _ _ _
  | remove key => exact OrderedMap.get?_erase _ _ _

/-- The last of some edits that changes a key. -/
def last? (edits : List Edit) (key : Bytes) : Option Edit :=
  edits.reverse.find? fun edit => edit.key = key

/-- After edits a key answers as the last edit of it says. -/
theorem get?_applyAll (contents : Contents) (edits : List Edit) (sought : Bytes) :
    (applyAll contents edits).get? sought =
      match last? edits sought with
      | some edit => edit.value?
      | none => contents.get? sought := by
  induction edits using List.reverseRecOn with
  | nil => rfl
  | append_singleton edits edit ih =>
      rw [applyAll, List.foldl_append, List.foldl_cons, List.foldl_nil, get?_apply, last?,
        List.reverse_append, List.reverse_singleton, List.singleton_append, List.find?_cons]
      by_cases here : edit.key = sought
      · rw [if_pos here.symm, decide_eq_true here]
      · rw [if_neg (Ne.symm here), decide_eq_false here]
        exact ih

theorem last?_eq_none_iff {edits : List Edit} {sought : Bytes} :
    last? edits sought = none ↔ ∀ edit ∈ edits, edit.key ≠ sought := by
  simp [last?]

theorem of_last? {edits : List Edit} {sought : Bytes} {edit : Edit}
    (found : last? edits sought = some edit) : edit ∈ edits ∧ edit.key = sought :=
  ⟨List.mem_reverse.mp (List.mem_of_find?_eq_some found), by simpa using List.find?_some found⟩

/-- After edits that remove nothing, their keys are there beside those that were there. -/
theorem contains_applyAll {edits : List Edit} (puts : ∀ edit ∈ edits, edit.value?.isSome = true)
    (contents : Contents) (sought : Bytes) :
    (applyAll contents edits).contains sought = true ↔
      contents.contains sought = true ∨ ∃ edit ∈ edits, edit.key = sought := by
  rw [OrderedMap.contains, get?_applyAll]
  cases found : last? edits sought with
  | none =>
      have others := last?_eq_none_iff.mp found
      refine (or_iff_left ?_).symm
      rintro ⟨edit, member, same⟩
      exact others edit member same
  | some edit =>
      have member := of_last? found
      exact iff_of_true (puts edit member.1) (.inr ⟨edit, member⟩)

/-- Of the edits of each key the last one, in any order. -/
def Counting (edits kept : List Edit) : Prop :=
  ∀ edit, edit ∈ kept ↔ last? edits edit.key = some edit

theorem Counting.last?_eq {edits kept : List Edit} (counting : Counting edits kept)
    (key : Bytes) : last? kept key = last? edits key := by
  cases found : last? kept key with
  | some edit =>
      rcases of_last? found with ⟨member, same⟩
      rw [← same, (counting edit).mp member]
  | none =>
      cases other : last? edits key with
      | none => rfl
      | some edit =>
          have same := (of_last? other).2
          have member : edit ∈ kept := (counting edit).mpr (same.symm ▸ other)
          exact absurd same (last?_eq_none_iff.mp found edit member)

/-- Edits that a later edit of their key overrules need not be made. -/
theorem Counting.applyAll_eq {edits kept : List Edit} (counting : Counting edits kept)
    (contents : Contents) : applyAll contents kept = applyAll contents edits := by
  apply OrderedMap.ext_get?
  intro key
  rw [get?_applyAll, get?_applyAll, counting.last?_eq]

end Edit

namespace RecordStore

variable {Record Other : Type}

/-! ## Keys and entries -/

/-- Neither keyspace begins with the other. -/
def Apart (first : RecordStore Record) (second : RecordStore Other) : Prop :=
  ¬ Bytes.ofText first.keyspace <+: Bytes.ofText second.keyspace ∧
    ¬ Bytes.ofText second.keyspace <+: Bytes.ofText first.keyspace

theorem Apart.symm {first : RecordStore Record} {second : RecordStore Other}
    (apart : first.Apart second) : second.Apart first :=
  ⟨apart.2, apart.1⟩

theorem fullKey_eq_append (store : RecordStore Record) (key : String) :
    store.fullKey key = Bytes.ofText store.keyspace ++ Bytes.ofText key :=
  Bytes.ofText_append _ _

theorem fullKey_inj {store : RecordStore Record} {first second : String} :
    store.fullKey first = store.fullKey second ↔ first = second := by
  rw [fullKey_eq_append, fullKey_eq_append, List.append_cancel_left_eq, Bytes.ofText_inj]

theorem isPrefixOf_fullKey (store : RecordStore Record) (key : String) :
    (Bytes.ofText store.keyspace).isPrefixOf (store.fullKey key) = true := by
  apply List.isPrefixOf_iff_prefix.mpr
  rw [fullKey_eq_append]
  exact List.prefix_append _ _

/-- A key of one store is no key of a store apart from it. -/
theorem Apart.not_isPrefixOf {first : RecordStore Record} {second : RecordStore Other}
    (apart : first.Apart second) (key : String) :
    (Bytes.ofText first.keyspace).isPrefixOf (second.fullKey key) = false := by
  apply Bool.eq_false_iff.mpr
  intro found
  have mine := List.isPrefixOf_iff_prefix.mp found
  have theirs := List.isPrefixOf_iff_prefix.mp (second.isPrefixOf_fullKey key)
  rcases List.prefix_or_prefix_of_prefix mine theirs with shorter | longer
  · exact apart.1 shorter
  · exact apart.2 longer

theorem Apart.fullKey_ne {first : RecordStore Record} {second : RecordStore Other}
    (apart : first.Apart second) (key other : String) :
    first.fullKey key ≠ second.fullKey other := by
  intro same
  have found := first.isPrefixOf_fullKey key
  rw [same, apart.not_isPrefixOf] at found
  cases found

/-- The entry of a record. -/
def entry (store : RecordStore Record) (key : String) (record : Record) : Bytes × Bytes :=
  (store.fullKey key, store.codec.encode record)

theorem readKey_fullKey (store : RecordStore Record) (key : String) :
    store.readKey (store.fullKey key) = .ok key := by
  rw [readKey, fullKey, Utf8.decode_ofText]
  simp only [String.toList_append]
  rw [← String.length_toList, List.drop_left, String.ofList_toList]

/-- A record that was written is read back. -/
theorem readRecord_encode {store : RecordStore Record} {Fits : Record → Prop}
    (roundTrips : store.codec.RoundTrips Fits) {record : Record} (fits : Fits record) :
    store.readRecord (store.codec.encode record) = .ok record := by
  rw [readRecord, roundTrips.decodeFront fits]
  rfl

theorem readEntry_entry {store : RecordStore Record} {Fits : Record → Prop}
    (roundTrips : store.codec.RoundTrips Fits) (key : String) {record : Record}
    (fits : Fits record) : store.readEntry (store.entry key record) = .ok (key, record) := by
  rw [readEntry, entry]
  simp only [readKey_fullKey, readRecord_encode roundTrips fits]
  rfl

/-! ## The part of a store -/

/-- The contents under the keyspace of the store. -/
def part (store : RecordStore Record) (contents : Contents) : Contents :=
  contents.filter fun key _ => (Bytes.ofText store.keyspace).isPrefixOf key

theorem entriesIn_eq (store : RecordStore Record) (contents : Contents) :
    store.entriesIn contents = (store.part contents).entries := rfl

theorem get?_part_of_inside {store : RecordStore Record} {key : Bytes}
    (inside : (Bytes.ofText store.keyspace).isPrefixOf key = true) (contents : Contents) :
    (store.part contents).get? key = contents.get? key := by
  rw [part, OrderedMap.get?_filter]
  cases contents.get? key with
  | none => rfl
  | some value => exact Option.filter_some_pos inside

theorem get?_part_of_outside {store : RecordStore Record} {key : Bytes}
    (outside : (Bytes.ofText store.keyspace).isPrefixOf key = false) (contents : Contents) :
    (store.part contents).get? key = none := by
  rw [part, OrderedMap.get?_filter]
  cases contents.get? key with
  | none => rfl
  | some value => exact Option.filter_some_neg outside

theorem get?_part_fullKey (store : RecordStore Record) (contents : Contents) (key : String) :
    (store.part contents).get? (store.fullKey key) = contents.get? (store.fullKey key) :=
  get?_part_of_inside (store.isPrefixOf_fullKey key) contents

theorem mem_keys_part {store : RecordStore Record} {contents : Contents} {key : Bytes} :
    key ∈ (store.part contents).keys ↔
      (Bytes.ofText store.keyspace).isPrefixOf key = true ∧ contents.contains key = true := by
  rw [OrderedMap.mem_keys_iff]
  cases inside : (Bytes.ofText store.keyspace).isPrefixOf key with
  | true =>
      rw [OrderedMap.contains, get?_part_of_inside inside]
      exact (and_iff_right rfl).symm
  | false =>
      rw [OrderedMap.contains, get?_part_of_outside inside]
      exact iff_of_false Bool.false_ne_true fun both => Bool.false_ne_true both.1

theorem mem_entriesIn {store : RecordStore Record} {contents : Contents} {key value : Bytes} :
    (key, value) ∈ store.entriesIn contents ↔ (store.part contents).get? key = some value := by
  rw [entriesIn_eq]
  exact OrderedMap.mem_entries_iff

/-- Putting a record changes the part of its store by this entry. -/
theorem part_put (store : RecordStore Record) (contents : Contents) (key : String)
    (record : Record) :
    store.part (Edit.apply contents (store.putEdit key record)) =
      (store.part contents).insert (store.fullKey key) (store.codec.encode record) := by
  apply OrderedMap.ext_get?
  intro other
  cases inside : (Bytes.ofText store.keyspace).isPrefixOf other with
  | true =>
      rw [get?_part_of_inside inside, OrderedMap.get?_insert, get?_part_of_inside inside]
      exact OrderedMap.get?_insert _ _ _ _
  | false =>
      have different : other ≠ store.fullKey key := by
        intro same
        rw [same, isPrefixOf_fullKey] at inside
        cases inside
      rw [get?_part_of_outside inside, OrderedMap.get?_insert_of_ne _ different,
        get?_part_of_outside inside]

/-- An edit outside the keyspace does not change the part of the store. -/
theorem part_apply_of_outside {store : RecordStore Record} {edit : Edit}
    (outside : (Bytes.ofText store.keyspace).isPrefixOf edit.key = false)
    (contents : Contents) : store.part (Edit.apply contents edit) = store.part contents := by
  apply OrderedMap.ext_get?
  intro sought
  cases inside : (Bytes.ofText store.keyspace).isPrefixOf sought with
  | true =>
      have different : sought ≠ edit.key := by
        intro same
        rw [same, outside] at inside
        cases inside
      rw [get?_part_of_inside inside, get?_part_of_inside inside, Edit.get?_apply,
        if_neg different]
  | false => rw [get?_part_of_outside inside, get?_part_of_outside inside]

/-- Putting a record does not change the part of a store apart. -/
theorem Apart.part_put {store : RecordStore Record} {other : RecordStore Other}
    (apart : store.Apart other) (contents : Contents) (key : String) (record : Other) :
    store.part (Edit.apply contents (other.putEdit key record)) = store.part contents :=
  part_apply_of_outside (apart.not_isPrefixOf key) contents

/-- Putting a record under a fresh key adds its entry. -/
theorem entriesIn_put_perm {store : RecordStore Record} {contents : Contents} {key : String}
    (fresh : contents.get? (store.fullKey key) = none) (record : Record) :
    (store.entriesIn (Edit.apply contents (store.putEdit key record))).Perm
      (store.entriesIn contents ++ [store.entry key record]) := by
  rw [← get?_part_fullKey] at fresh
  rw [entriesIn_eq, part_put]
  apply (OrderedMap.perm_entries_insert fresh _).trans
  exact (List.perm_append_comm : ([store.entry key record] ++ store.entriesIn contents).Perm _)

theorem get?_put (store : RecordStore Record) (contents : Contents) (key : String)
    (record : Record) (other : Bytes) :
    (Edit.apply contents (store.putEdit key record)).get? other =
      if other = store.fullKey key then some (store.codec.encode record)
      else contents.get? other :=
  Edit.get?_apply _ _ _

/-- Putting a record leaves the keys of a store apart alone. -/
theorem Apart.get?_put {store : RecordStore Record} {other : RecordStore Other}
    (apart : store.Apart other) (contents : Contents) (key : String) (record : Other)
    (sought : String) :
    (Edit.apply contents (other.putEdit key record)).get? (store.fullKey sought) =
      contents.get? (store.fullKey sought) := by
  rw [RecordStore.get?_put, if_neg (apart.fullKey_ne _ _)]

/-- Records of stores apart may be put in any order. -/
theorem Apart.putEdit_commutes {first : RecordStore Record} {second : RecordStore Other}
    (apart : first.Apart second) (key : String) (record : Record) (other : String)
    (others : Other) : (first.putEdit key record).Commutes (second.putEdit other others) := by
  intro contents
  have different := apart.fullKey_ne key other
  apply OrderedMap.ext_get?
  intro sought
  rw [RecordStore.get?_put, RecordStore.get?_put, RecordStore.get?_put, RecordStore.get?_put]
  by_cases here : sought = second.fullKey other
  · rw [if_pos here, if_neg (here ▸ different.symm), if_pos here]
  · rw [if_neg here, if_neg here]

/-! ## Reads are single looks at the contents -/

/-- The record under a key of the contents. -/
def find (store : RecordStore Record) (key : String) (contents : Contents) :
    Except Fault Record :=
  match contents.get? (store.fullKey key) with
  | some bytes => store.readRecord bytes
  | none => .error (.notFound (store.keyspace ++ key))

theorem get_eq_reading (store : RecordStore Record) (key : String) :
    store.get key = StoreAction.reading (store.find key) := by
  have answers : (fun contents : Contents => (match contents.get? (store.fullKey key) with
      | some bytes => StoreAction.ofExcept (store.readRecord bytes)
      | none => throw (.notFound (store.keyspace ++ key)) : StoreAction Record)) =
      fun contents => StoreAction.ofExcept (store.find key contents) := by
    funext contents
    unfold find
    cases contents.get? (store.fullKey key) <;> rfl
  exact congrArg (StoreAction.contents >>= ·) answers

theorem has_eq_reading (store : RecordStore Record) (key : String) :
    store.has key =
      StoreAction.reading fun contents => .ok (contents.contains (store.fullKey key)) := by
  apply congrArg Procedure.read
  funext seen
  cases seen <;> rfl

theorem count_eq_reading (store : RecordStore Record) :
    store.count = StoreAction.reading fun contents => .ok (store.entriesIn contents).length := by
  apply congrArg Procedure.read
  funext seen
  cases seen <;> rfl

theorem keys_eq_reading (store : RecordStore Record) :
    store.keys = StoreAction.reading fun contents =>
      (store.entriesIn contents).mapM fun entry => store.readKey entry.1 := rfl

theorem entries_eq_reading (store : RecordStore Record) :
    store.entries = StoreAction.reading fun contents =>
      (store.entriesIn contents).mapM store.readEntry := rfl

theorem values_eq_reading (store : RecordStore Record) :
    store.values = StoreAction.reading fun contents =>
      ((store.entriesIn contents).mapM store.readEntry).map (·.map (·.2)) := by
  apply congrArg Procedure.read
  funext seen
  cases seen with
  | none => rfl
  | some contents =>
      change Procedure.bind (.done ((store.entriesIn contents).mapM store.readEntry)) _ =
        .done (Except.map _ ((store.entriesIn contents).mapM store.readEntry))
      cases (store.entriesIn contents).mapM store.readEntry <;> rfl

theorem range_eq_reading (store : RecordStore Record) {first bound : String}
    (nonempty : compare (Bytes.ofText first) (Bytes.ofText bound) = .lt) :
    store.range first bound = StoreAction.reading fun contents =>
      (contents.range (store.fullKey first) (store.fullKey bound)).mapM
        fun entry => store.readRecord entry.2 := by
  rw [range, if_pos nonempty]
  rfl

theorem count_readOnly (store : RecordStore Record) : store.count.ReadOnly := by
  rw [count_eq_reading]
  exact StoreAction.readOnly_reading _

theorem values_readOnly (store : RecordStore Record) : store.values.ReadOnly := by
  rw [values_eq_reading]
  exact StoreAction.readOnly_reading _

/-- The records are read from the entries under the keyspace alone. -/
theorem values_congr {store : RecordStore Record} {first second : Engine}
    (firstOpen : first.isOpen = true) (secondOpen : second.isOpen = true)
    (same : store.part first.contents = store.part second.contents) :
    (store.values.run first).1 = (store.values.run second).1 := by
  rw [values_eq_reading, StoreAction.run_reading firstOpen, StoreAction.run_reading secondOpen,
    entriesIn_eq, entriesIn_eq, same]

/-- Whether there is a record is read from the entries under the keyspace
alone. -/
theorem has_congr {store : RecordStore Record} {first second : Engine}
    (firstOpen : first.isOpen = true) (secondOpen : second.isOpen = true)
    (same : store.part first.contents = store.part second.contents) (key : String) :
    ((store.has key).run first).1 = ((store.has key).run second).1 := by
  rw [has_eq_reading, StoreAction.run_reading firstOpen, StoreAction.run_reading secondOpen,
    OrderedMap.contains, OrderedMap.contains, ← get?_part_fullKey, same, get?_part_fullKey]

theorem does_put (store : RecordStore Record) {engine : Engine} (isOpen : engine.isOpen = true)
    (key : String) (record : Record) :
    (store.put key record).Does engine () [store.putEdit key record] :=
  StoreAction.does_write isOpen _

theorem does_get {store : RecordStore Record} {engine : Engine} (isOpen : engine.isOpen = true)
    {key : String} {record : Record} (found : store.find key engine.contents = .ok record) :
    (store.get key).Does engine record [] := by
  rw [get_eq_reading]
  exact StoreAction.does_reading isOpen found

theorem does_has (store : RecordStore Record) {engine : Engine} (isOpen : engine.isOpen = true)
    (key : String) :
    (store.has key).Does engine (engine.contents.contains (store.fullKey key)) [] := by
  rw [has_eq_reading]
  exact StoreAction.does_reading isOpen rfl

/-! ## Reading lists of entries -/

theorem mapM_map_eq_ok {entries : List α} {make : α → β} {read : β → Except Fault γ}
    {answer : α → γ} (each : ∀ entry ∈ entries, read (make entry) = .ok (answer entry)) :
    (entries.map make).mapM read = .ok (entries.map answer) := by
  induction entries with
  | nil => rfl
  | cons entry entries ih =>
      rcases List.forall_mem_cons.mp each with ⟨head, tail⟩
      rw [List.map_cons, List.mapM_cons, head, ih tail]
      rfl

/-- Entries that each come from a record are the entries of a list of records. -/
theorem exists_map_eq {entries : List α} {make : Record → α} {Good : Record → Prop}
    (each : ∀ entry ∈ entries, ∃ record, Good record ∧ entry = make record) :
    ∃ records : List Record, (∀ record ∈ records, Good record) ∧ entries = records.map make := by
  induction entries with
  | nil => exact ⟨[], List.forall_mem_nil _, rfl⟩
  | cons entry entries ih =>
      rcases List.forall_mem_cons.mp each with ⟨head, tail⟩
      rcases head with ⟨record, good, here⟩
      rcases ih tail with ⟨records, all, there⟩
      refine ⟨record :: records, List.forall_mem_cons.mpr ⟨good, all⟩, ?_⟩
      rw [here, there, List.map_cons]

/-- Entries that were written under keys of their own are read back in order. -/
theorem mapM_readEntry {store : RecordStore Record} {Fits : Record → Prop}
    (roundTrips : store.codec.RoundTrips Fits) {records : List Record}
    (fits : ∀ record ∈ records, Fits record) (keyOf : Record → String) :
    (records.map fun record => store.entry (keyOf record) record).mapM store.readEntry =
      .ok (records.map fun record => (keyOf record, record)) :=
  mapM_map_eq_ok fun record member =>
    readEntry_entry roundTrips (keyOf record) (fits record member)

theorem readEntry_yields {store : RecordStore Record} {Fits : Record → Prop}
    (yields : store.codec.Yields Fits) {entry : Bytes × Bytes} {keyed : String × Record}
    (read : store.readEntry entry = .ok keyed) : Fits keyed.2 := by
  simp only [readEntry, readRecord, bind, Except.bind] at read
  cases named : store.readKey entry.1 with
  | error fault => simp [named] at read
  | ok key =>
      cases found : store.codec.decodeFront entry.2 with
      | error fault =>
          rw [named, found] at read
          cases read
      | ok record =>
          rw [named, found] at read
          cases read
          exact yields.decodeFront found

/-- Whatever the entries are, each gives one record, and the records that are
read fit into the store. -/
theorem mapM_readEntry_yields {store : RecordStore Record} {Fits : Record → Prop}
    (yields : store.codec.Yields Fits) {entries : List (Bytes × Bytes)}
    {keyed : List (String × Record)} (read : entries.mapM store.readEntry = .ok keyed) :
    keyed.length = entries.length ∧ ∀ pair ∈ keyed, Fits pair.2 := by
  induction entries generalizing keyed with
  | nil =>
      cases read
      exact ⟨rfl, List.forall_mem_nil _⟩
  | cons entry entries ih =>
      simp only [List.mapM_cons, bind, Except.bind] at read
      cases first : store.readEntry entry with
      | error fault => simp [first] at read
      | ok head =>
          cases others : entries.mapM store.readEntry with
          | error fault => simp [first, others] at read
          | ok tail =>
              simp only [first, others] at read
              cases read
              rcases ih others with ⟨length, all⟩
              exact ⟨congrArg (· + 1) length,
                List.forall_mem_cons.mpr ⟨readEntry_yields yields first, all⟩⟩

theorem map_snd_keyed (keyOf : Record → String) (records : List Record) :
    (records.map fun record => (keyOf record, record)).map (·.2) = records := by
  rw [List.map_map]
  exact List.map_id records

/-- The records that are read from a store are as many as its entries, and each
fits. -/
theorem values_yields {store : RecordStore Record} {Fits : Record → Prop}
    (yields : store.codec.Yields Fits) {engine : Engine} (isOpen : engine.isOpen = true)
    {records : List Record} (read : (store.values.run engine).1 = .ok records) :
    records.length = (store.entriesIn engine.contents).length ∧
      ∀ record ∈ records, Fits record := by
  rw [values_eq_reading, StoreAction.run_reading isOpen] at read
  cases found : (store.entriesIn engine.contents).mapM store.readEntry with
  | error fault =>
      rw [found] at read
      cases read
  | ok keyed =>
      rw [found] at read
      cases read
      rcases mapM_readEntry_yields yields found with ⟨length, all⟩
      refine ⟨(List.length_map _).trans length, ?_⟩
      intro record member
      rcases List.mem_map.mp member with ⟨pair, inside, same⟩
      exact same ▸ all pair inside

/-- A record is found under the key where it was put last. -/
theorem find_put {store : RecordStore Record} {Fits : Record → Prop}
    (roundTrips : store.codec.RoundTrips Fits) (contents : Contents) (key : String)
    {record : Record} (fits : Fits record) :
    store.find key (Edit.apply contents (store.putEdit key record)) = .ok record := by
  rw [find, get?_put, if_pos rfl]
  exact readRecord_encode roundTrips fits

end RecordStore

end LedgerNode
