import Mathlib.Logic.Function.Basic
import LedgerNode.Proofs.Bytes
import LedgerNode.Proofs.Store.RecordStore

namespace LedgerNode

/-!
# A record store is a table

What a user of a record store has in mind is a table from texts to records.
It is no part of that picture that the store shares its engine with others, or
that keys and records are bytes there.

A store keeps a table when the contents under its keyspace are the entries of
the table, each record under its full key.  As the full keys share the
keyspace in front, they are in the order of the keys themselves, and whatever
lies between two of them belongs to the store.  So all reads of the store
report the table.  A change through the store makes it keep the changed table,
and an edit elsewhere leaves it with the table that it had.
-/

/-! ## Tables -/

/-- Records under texts. -/
abbrev Table (Record : Type) := String → Option Record

/-- A change of the record under one key. -/
inductive TableChange (Record : Type) where
  | put (key : String) (record : Record)
  | delete (key : String)

namespace TableChange

variable {Record : Type}

def key : TableChange Record → String
  | put key _ => key
  | delete key => key

/-- What is under the key after the change. -/
def record? : TableChange Record → Option Record
  | put _ record => some record
  | delete _ => none

/-- What the change brings in satisfies a property. -/
def Brings (Fits : Record → Prop) (change : TableChange Record) : Prop :=
  ∀ record, change.record? = some record → Fits record

end TableChange

namespace Table

variable {Record : Type}

/-- The table without records. -/
def empty : Table Record := fun _ => none

def change (table : Table Record) (change : TableChange Record) : Table Record :=
  Function.update table change.key change.record?

/-- The table after changes, one after another. -/
def changeAll (table : Table Record) (changes : List (TableChange Record)) : Table Record :=
  changes.foldl change table

/-- The entries are those of the table, in the order of the bytes of their
keys, and no key occurs twice. -/
structure Lists (table : Table Record) (entries : List (String × Record)) : Prop where
  increasing : entries.Pairwise fun earlier later =>
    compare (Bytes.ofText earlier.1) (Bytes.ofText later.1) = .lt
  mem_iff : ∀ key record, (key, record) ∈ entries ↔ table key = some record

theorem Lists.nodup {table : Table Record} {entries : List (String × Record)}
    (lists : table.Lists entries) : entries.Nodup := by
  apply lists.increasing.imp
  intro earlier later less same
  rw [same, Std.ReflOrd.compare_self] at less
  cases less

/-- A table is listed in one way. -/
theorem Lists.eq {table : Table Record} {first second : List (String × Record)}
    (one : table.Lists first) (other : table.Lists second) : first = second := by
  have permuted : first.Perm second := by
    apply (List.perm_ext_iff_of_nodup one.nodup other.nodup).mpr
    intro entry
    rw [one.mem_iff, other.mem_iff]
  apply permuted.eq_of_pairwise _ one.increasing other.increasing
  intro earlier later _ _ less greater
  have impossible := Std.TransCmp.lt_trans less greater
  rw [Std.ReflOrd.compare_self] at impossible
  cases impossible

/-- The key is at least `first` and below `bound`, in the order of bytes. -/
def within (first bound key : String) : Bool :=
  compare (Bytes.ofText first) (Bytes.ofText key) != .gt &&
    compare (Bytes.ofText key) (Bytes.ofText bound) == .lt

/-- A table that was filled under different keys has what was put into it. -/
theorem changeAll_put_iff {entries : List (String × Record)}
    (distinct : (entries.map (·.1)).Nodup) {key : String} {record : Record} :
    empty.changeAll (entries.map fun entry => .put entry.1 entry.2) key = some record ↔
      (key, record) ∈ entries := by
  induction entries using List.reverseRecOn with
  | nil => exact ⟨nofun, nofun⟩
  | append_singleton entries last ih =>
      rw [List.map_append, List.map_singleton, List.nodup_append] at distinct
      rcases distinct with ⟨others, _, apart⟩
      have final : empty.changeAll
          ((entries ++ [last]).map fun entry => TableChange.put entry.1 entry.2) =
          (empty.changeAll (entries.map fun entry => .put entry.1 entry.2)).change
            (.put last.1 last.2) := by
        rw [List.map_append, changeAll, List.foldl_append]
        rfl
      rw [final, change, Function.update_apply, List.mem_append, List.mem_singleton]
      split
      next here =>
        have here : key = last.1 := here
        constructor
        · intro same
          exact .inr (Prod.ext here (Option.some.inj same).symm)
        · rintro (member | same)
          · exact absurd here
              (apart _ (List.mem_map_of_mem member) _ (List.mem_singleton_self _))
          · rw [← same]
            rfl
      next there =>
        rw [ih others]
        constructor
        · exact .inl
        · rintro (member | same)
          · exact member
          · exact absurd (congrArg Prod.fst same) there

end Table

namespace RecordStore

variable {Record Other : Type}

/-- Make a change through the store. -/
def change (store : RecordStore Record) : TableChange Record → StoreAction Unit
  | .put key record => store.put key record
  | .delete key => store.delete key

/-- The reads of the store on this engine answer from the table, and none of
them changes the engine. -/
structure Reports (store : RecordStore Record) (engine : Engine) (table : Table Record) :
    Prop where
  get : ∀ key, (store.get key).run engine =
    (match table key with
      | some record => .ok record
      | none => .error (.notFound (store.keyspace ++ key)), engine)
  has : ∀ key, (store.has key).run engine = (.ok (table key).isSome, engine)
  lists : ∃ entries, table.Lists entries ∧
    store.keys.run engine = (.ok (entries.map (·.1)), engine) ∧
    store.entries.run engine = (.ok entries, engine) ∧
    store.values.run engine = (.ok (entries.map (·.2)), engine) ∧
    store.count.run engine = (.ok entries.length, engine) ∧
    ∀ first bound, (store.range first bound).run engine =
      (.ok ((entries.filter fun entry => Table.within first bound entry.1).map (·.2)), engine)

/-! ## Changes as edits -/

/-- The edit that a change through the store makes. -/
def editOf (store : RecordStore Record) : TableChange Record → Edit
  | .put key record => store.putEdit key record
  | .delete key => store.removeEdit key

@[simp]
theorem key_editOf (store : RecordStore Record) (change : TableChange Record) :
    (store.editOf change).key = store.fullKey change.key := by
  cases change <;> rfl

@[simp]
theorem value?_editOf (store : RecordStore Record) (change : TableChange Record) :
    (store.editOf change).value? = change.record?.map store.codec.encode := by
  cases change <;> rfl

theorem change_eq_write (store : RecordStore Record) (change : TableChange Record) :
    store.change change = .write [store.editOf change] := by
  cases change <;> rfl

/-! ## Ranges -/

/-- What lies between two keys of the store belongs to the store, and lies there
as its own key does. -/
theorem range_eq_of_entriesIn_eq {store : RecordStore Record} {contents : Contents}
    {entries : List (String × Record)}
    (same : store.entriesIn contents = entries.map fun entry => store.entry entry.1 entry.2)
    (first bound : String) :
    contents.range (store.fullKey first) (store.fullKey bound) =
      (entries.filter fun entry => Table.within first bound entry.1).map
        fun entry => store.entry entry.1 entry.2 := by
  have inside : ∀ raw ∈ contents.entries,
      (compare (store.fullKey first) raw.1 != .gt &&
          compare raw.1 (store.fullKey bound) == .lt) =
        ((compare (store.fullKey first) raw.1 != .gt &&
            compare raw.1 (store.fullKey bound) == .lt) &&
          (Bytes.ofText store.keyspace).isPrefixOf raw.1) := by
    intro raw _
    cases between : (compare (store.fullKey first) raw.1 != .gt &&
        compare raw.1 (store.fullKey bound) == .lt) with
    | false => rfl
    | true =>
        rw [fullKey_eq_append, fullKey_eq_append, Bool.and_eq_true, bne_iff_ne,
          beq_iff_eq] at between
        exact (List.isPrefixOf_iff_prefix.mpr
          (Bytes.prefix_of_between between.1 between.2)).symm
  rw [OrderedMap.range, List.filter_congr inside, ← List.filter_filter]
  change (store.entriesIn contents).filter _ = _
  rw [same, List.filter_map]
  congr 1
  apply List.filter_congr
  intro entry _
  simp only [Function.comp_apply, RecordStore.entry, fullKey_eq_append,
    Bytes.compare_append_left, Table.within]

/-! ## Stores that keep a table -/

/-- The contents under the keyspace are the entries of the table, whose records
fit into the store. -/
structure Keeps (store : RecordStore Record) (Fits : Record → Prop) (table : Table Record)
    (contents : Contents) : Prop where
  shown : ∀ key, contents.get? (store.fullKey key) = (table key).map store.codec.encode
  known : ∀ fullKey bytes, (fullKey, bytes) ∈ store.entriesIn contents →
    ∃ key, fullKey = store.fullKey key
  fits : ∀ key record, table key = some record → Fits record

namespace Keeps

variable {store : RecordStore Record} {Fits : Record → Prop} {table : Table Record}
  {contents : Contents}

/-- Nothing is stored in an engine without contents. -/
theorem empty (store : RecordStore Record) (Fits : Record → Prop) :
    store.Keeps Fits Table.empty ∅ where
  shown _ := rfl
  known _ _ member := by cases member
  fits _ _ found := by cases found

/-- A store without entries keeps the empty table. -/
theorem of_entriesIn_nil {contents : Contents} (nothing : store.entriesIn contents = [])
    (Fits : Record → Prop) : store.Keeps Fits Table.empty contents where
  shown key := by
    rw [← get?_part_fullKey]
    apply OrderedMap.get?_eq_none_iff.mpr
    intro value member
    rw [← entriesIn_eq, nothing] at member
    cases member
  known fullKey bytes member := by
    rw [nothing] at member
    cases member
  fits _ _ found := by cases found

/-- An edit that is not of the store leaves the table alone. -/
theorem apply_of_outside (keeps : store.Keeps Fits table contents) {edit : Edit}
    (outside : (Bytes.ofText store.keyspace).isPrefixOf edit.key = false) :
    store.Keeps Fits table (Edit.apply contents edit) where
  shown key := by
    have different : store.fullKey key ≠ edit.key := by
      intro same
      rw [← same, isPrefixOf_fullKey] at outside
      cases outside
    rw [Edit.get?_apply, if_neg different]
    exact keeps.shown key
  known fullKey bytes member := by
    rw [entriesIn_eq, part_apply_of_outside outside] at member
    exact keeps.known fullKey bytes member
  fits := keeps.fits

/-- A change through the store changes the table. -/
theorem apply (keeps : store.Keeps Fits table contents) {change : TableChange Record}
    (brings : change.Brings Fits) :
    store.Keeps Fits (table.change change) (Edit.apply contents (store.editOf change)) where
  shown key := by
    rw [Edit.get?_apply, key_editOf, value?_editOf, Table.change, Function.update_apply]
    by_cases same : key = change.key
    · rw [if_pos (fullKey_inj.mpr same), if_pos same]
    · rw [if_neg (mt fullKey_inj.mp same), if_neg same, keeps.shown]
  known fullKey bytes member := by
    by_cases here : fullKey = store.fullKey change.key
    · exact ⟨change.key, here⟩
    · rcases List.mem_filter.mp member with ⟨stored, inside⟩
      rw [OrderedMap.mem_entries_iff, Edit.get?_apply, key_editOf, if_neg here] at stored
      exact keeps.known fullKey bytes
        (List.mem_filter.mpr ⟨OrderedMap.mem_entries_iff.mpr stored, inside⟩)
  fits key record found := by
    rw [Table.change, Function.update_apply] at found
    split at found
    · exact brings record found
    · exact keeps.fits key record found

theorem applyAll_of_outside (keeps : store.Keeps Fits table contents) {edits : List Edit}
    (outside : ∀ edit ∈ edits, (Bytes.ofText store.keyspace).isPrefixOf edit.key = false) :
    store.Keeps Fits table (Edit.applyAll contents edits) := by
  induction edits generalizing contents with
  | nil => exact keeps
  | cons edit edits ih =>
      rcases List.forall_mem_cons.mp outside with ⟨first, rest⟩
      exact ih (keeps.apply_of_outside first) rest

theorem applyAll (keeps : store.Keeps Fits table contents)
    {changes : List (TableChange Record)} (brings : ∀ change ∈ changes, change.Brings Fits) :
    store.Keeps Fits (table.changeAll changes)
      (Edit.applyAll contents (changes.map store.editOf)) := by
  induction changes generalizing table contents with
  | nil => exact keeps
  | cons change changes ih =>
      rcases List.forall_mem_cons.mp brings with ⟨first, rest⟩
      exact ih (keeps.apply first) rest

/-! ## What the reads report -/

/-- The entries under the keyspace are the entries of the table. -/
theorem exists_entries (keeps : store.Keeps Fits table contents) :
    ∃ entries, table.Lists entries ∧ (∀ entry ∈ entries, Fits entry.2) ∧
      store.entriesIn contents = entries.map fun entry => store.entry entry.1 entry.2 := by
  have each : ∀ raw ∈ store.entriesIn contents, ∃ entry : String × Record,
      table entry.1 = some entry.2 ∧ raw = store.entry entry.1 entry.2 := by
    rintro ⟨fullKey, bytes⟩ member
    rcases keeps.known fullKey bytes member with ⟨key, rfl⟩
    have stored := mem_entriesIn.mp member
    rw [get?_part_fullKey, keeps.shown] at stored
    rcases Option.map_eq_some_iff.mp stored with ⟨record, found, rfl⟩
    exact ⟨(key, record), found, rfl⟩
  rcases exists_map_eq each with ⟨entries, found, same⟩
  refine ⟨entries, ⟨?_, ?_⟩, fun entry member => keeps.fits _ _ (found entry member), same⟩
  · have increasing := (store.part contents).increasing
    rw [← entriesIn_eq, same, List.pairwise_map] at increasing
    apply increasing.imp
    intro earlier later less
    rw [entry, entry, fullKey_eq_append, fullKey_eq_append, Bytes.compare_append_left] at less
    exact less
  · intro key record
    refine ⟨fun member => found _ member, fun kept => ?_⟩
    have stored : store.entry key record ∈ store.entriesIn contents := by
      apply mem_entriesIn.mpr
      rw [get?_part_fullKey, keeps.shown, kept, Option.map_some]
    rw [same] at stored
    rcases List.mem_map.mp stored with ⟨⟨other, another⟩, member, here⟩
    obtain rfl := fullKey_inj.mp (congrArg Prod.fst here)
    rw [found _ member] at kept
    cases kept
    exact member

theorem find_eq (keeps : store.Keeps Fits table contents)
    (roundTrips : store.codec.RoundTrips Fits) (key : String) :
    store.find key contents =
      match table key with
      | some record => .ok record
      | none => .error (.notFound (store.keyspace ++ key)) := by
  rw [find, keeps.shown]
  cases found : table key with
  | none => rfl
  | some record => exact readRecord_encode roundTrips (keeps.fits key record found)

/-- A store that keeps a table reports it. -/
theorem reports {engine : Engine} (keeps : store.Keeps Fits table engine.contents)
    (roundTrips : store.codec.RoundTrips Fits) (isOpen : engine.isOpen = true) :
    store.Reports engine table where
  get key := by rw [get_eq_reading, StoreAction.run_reading isOpen, keeps.find_eq roundTrips]
  has key := by
    rw [has_eq_reading, StoreAction.run_reading isOpen, OrderedMap.contains, keeps.shown,
      Option.isSome_map]
  lists := by
    rcases keeps.exists_entries with ⟨entries, lists, fits, same⟩
    have readEntries : (store.entriesIn engine.contents).mapM store.readEntry =
        .ok (entries.map id) := by
      rw [same]
      exact mapM_map_eq_ok fun entry member => readEntry_entry roundTrips entry.1 (fits entry member)
    rw [List.map_id] at readEntries
    refine ⟨entries, lists, ?_, ?_, ?_, ?_, ?_⟩
    · rw [keys_eq_reading, StoreAction.run_reading isOpen, same,
        mapM_map_eq_ok fun entry _ => readKey_fullKey store entry.1]
    · rw [entries_eq_reading, StoreAction.run_reading isOpen, readEntries]
    · rw [values_eq_reading, StoreAction.run_reading isOpen, readEntries]
      rfl
    · rw [count_eq_reading, StoreAction.run_reading isOpen, same, List.length_map]
    · intro first bound
      by_cases nonempty : compare (Bytes.ofText first) (Bytes.ofText bound) = .lt
      · rw [range_eq_reading store nonempty, StoreAction.run_reading isOpen,
          range_eq_of_entriesIn_eq same]
        apply congrArg (·, engine)
        apply mapM_map_eq_ok
        intro entry member
        exact readRecord_encode roundTrips (fits entry (List.mem_filter.mp member).1)
      · have none : entries.filter (fun entry => Table.within first bound entry.1) = [] := by
          apply List.filter_eq_nil_iff.mpr
          intro entry _ between
          rw [Table.within, Bool.and_eq_true, bne_iff_ne, beq_iff_eq] at between
          exact nonempty (Std.TransCmp.lt_of_isLE_of_lt (Ordering.isLE_iff_ne_gt.mpr between.1)
            between.2)
        rw [range, if_neg nonempty, none]
        rfl

end Keeps

end RecordStore

end LedgerNode
