import LedgerNode.Peer.Registry
import LedgerNode.Proofs.Peer.Format
import LedgerNode.Proofs.Peer.Registry
import LedgerNode.Proofs.Store.Tables

namespace LedgerNode

/-!
# What a registry saves and what the next run takes over

A saved registry is a table of peers.  The key of a peer is made of its address
and its id, so it may happen that two peers of a registry share a key; then only
the one whose id comes last is in the table.  What is saved takes the place of
all that was saved before.

A node that knows nobody and takes a table over knows everybody in it, as
disconnected.  If it then saves what it knows, it saves the same table, with
everybody disconnected.
-/

/-! ## Tables of records that name their keys -/

namespace Table

variable {Record : Type} {keyOf : Record → String} {table : Table Record}

theorem change_apply (table : Table Record) (change : TableChange Record) (key : String) :
    table.change change key = if key = change.key then change.record? else table key :=
  Function.update_apply _ _ _ _

/-- The table with records under their keys, put one after another. -/
def putAll (table : Table Record) (keyOf : Record → String) (records : List Record) :
    Table Record :=
  table.changeAll (records.map fun record => .put (keyOf record) record)

theorem of_putAll {records : List Record} {key : String} {record : Record}
    (found : table.putAll keyOf records key = some record) :
    table key = some record ∨ record ∈ records ∧ keyOf record = key := by
  induction records generalizing table with
  | nil => exact .inl found
  | cons head rest ih =>
      rcases ih found with before | ⟨member, same⟩
      · rw [change_apply] at before
        split at before
        next here =>
          cases before
          exact .inr ⟨List.mem_cons_self, here.symm⟩
        next => exact .inl before
      · exact .inr ⟨List.mem_cons_of_mem _ member, same⟩

/-- A key that is filled, or that one of the records names, is filled afterwards. -/
theorem exists_putAll {records : List Record} {key : String}
    (filled : (∃ record, table key = some record) ∨ ∃ record ∈ records, keyOf record = key) :
    ∃ record, table.putAll keyOf records key = some record := by
  induction records generalizing table with
  | nil => exact filled.resolve_right nofun
  | cons head rest ih =>
      apply ih
      rw [change_apply]
      split
      next => exact .inl ⟨head, rfl⟩
      next other =>
          refine filled.imp_right ?_
          rintro ⟨record, member, rfl⟩
          refine ⟨record, (List.mem_cons.mp member).resolve_left ?_, rfl⟩
          rintro rfl
          exact other rfl

end Table

namespace RecordStore.Keeps

variable {Record : Type} {store : RecordStore Record} {Fits : Record → Prop}
  {table : Table Record}

/-- What is kept depends only on what is under the keyspace. -/
theorem congr {before after : Contents} (keeps : store.Keeps Fits table before)
    (same : store.part after = store.part before) : store.Keeps Fits table after where
  shown key := by
    rw [← get?_part_fullKey, same, get?_part_fullKey]
    exact keeps.shown key
  known fullKey bytes member := by
    rw [entriesIn_eq, same] at member
    exact keeps.known fullKey bytes member
  fits := keeps.fits

end RecordStore.Keeps

namespace RecordStore

variable {Record : Type} {store : RecordStore Record} {contents : Contents}

/-- All keys of the store are texts, as they are when everything was written through
record stores. -/
def TextKeys (store : RecordStore Record) (contents : Contents) : Prop :=
  ∀ fullKey bytes, (fullKey, bytes) ∈ store.entriesIn contents → ∃ key, fullKey = store.fullKey key

theorem TextKeys.exists_keys (texts : store.TextKeys contents) :
    ∃ keys : List String, (store.entriesIn contents).map (·.1) = keys.map store.fullKey := by
  have each : ∀ entry ∈ (store.entriesIn contents).map (·.1), ∃ key : String,
      True ∧ entry = store.fullKey key := by
    intro entry member
    rcases List.mem_map.mp member with ⟨⟨fullKey, bytes⟩, inside, rfl⟩
    rcases texts fullKey bytes inside with ⟨key, same⟩
    exact ⟨key, trivial, same⟩
  rcases exists_map_eq each with ⟨keys, -, same⟩
  exact ⟨keys, same⟩

/-- Nothing is left once every key is deleted. -/
theorem entriesIn_removed {keys : List String}
    (listed : ∀ fullKey bytes, (fullKey, bytes) ∈ store.entriesIn contents →
      ∃ key ∈ keys, fullKey = store.fullKey key) :
    store.entriesIn (Edit.applyAll contents (keys.map store.removeEdit)) = [] := by
  induction keys generalizing contents with
  | nil =>
      apply List.eq_nil_iff_forall_not_mem.mpr
      rintro ⟨fullKey, bytes⟩ member
      rcases listed fullKey bytes member with ⟨key, inside, -⟩
      cases inside
  | cons head rest ih =>
      apply ih
      intro fullKey bytes member
      rcases List.mem_filter.mp member with ⟨stored, inside⟩
      rw [OrderedMap.mem_entries_iff, Edit.get?_apply] at stored
      split at stored
      next => cases stored
      next other =>
          have before : (fullKey, bytes) ∈ store.entriesIn contents :=
            List.mem_filter.mpr ⟨OrderedMap.mem_entries_iff.mpr stored, inside⟩
          rcases listed fullKey bytes before with ⟨key, named, rfl⟩
          refine ⟨key, (List.mem_cons.mp named).resolve_left ?_, rfl⟩
          rintro rfl
          exact other rfl

/-- Records are put in place of whatever was there by deleting its keys and putting
them. -/
theorem keeps_replaced {Fits : Record → Prop} {keys : List String}
    (listed : ∀ fullKey bytes, (fullKey, bytes) ∈ store.entriesIn contents →
      ∃ key ∈ keys, fullKey = store.fullKey key)
    (keyOf : Record → String) {records : List Record} (fits : ∀ record ∈ records, Fits record) :
    store.Keeps Fits (Table.empty.putAll keyOf records)
      (Edit.applyAll contents
        (keys.map store.removeEdit ++
          records.map fun record => store.putEdit (keyOf record) record)) := by
  have cleared : store.Keeps Fits Table.empty
      (Edit.applyAll contents (keys.map store.removeEdit)) :=
    .of_entriesIn_nil (entriesIn_removed listed) Fits
  have filled : store.Keeps Fits (Table.empty.putAll keyOf records)
      (Edit.applyAll (Edit.applyAll contents (keys.map store.removeEdit))
        ((records.map fun record => TableChange.put (keyOf record) record).map store.editOf)) := by
    apply cleared.applyAll
    intro change member
    rcases List.mem_map.mp member with ⟨record, inside, rfl⟩
    intro brought same
    cases same
    exact fits record inside
  rw [List.map_map] at filled
  rw [Edit.applyAll_append]
  exact filled

end RecordStore

/-! ## Saving -/

/-- The peer as the next run knows it. -/
def Peer.disconnected (peer : Peer) : Peer := { peer with connected := false }

@[simp]
theorem Peer.id_disconnected (peer : Peer) : peer.disconnected.id = peer.id := rfl

namespace Batch

variable {Record : Type}

theorem foldl_delete (batch : Batch Record) (keys : List String) :
    keys.foldl delete batch =
      { batch with edits := batch.edits ++ keys.map batch.store.removeEdit } := by
  induction keys generalizing batch with
  | nil => rw [List.map_nil, List.append_nil]; rfl
  | cons key rest ih =>
      rw [List.foldl_cons, ih, delete, List.append_assoc]
      rfl

theorem foldl_put (batch : Batch Record) (keyOf : Record → String) (records : List Record) :
    records.foldl (fun batch record => batch.put (keyOf record) record) batch =
      { batch with
        edits := batch.edits ++
          records.map fun record => batch.store.putEdit (keyOf record) record } := by
  induction records generalizing batch with
  | nil => rw [List.map_nil, List.append_nil]; rfl
  | cons record rest ih =>
      rw [List.foldl_cons, ih, put, List.append_assoc]
      rfl

end Batch

namespace Registry

/-- The table that the registry saves. -/
def snapshot (registry : Registry) : Table Peer :=
  Table.empty.putAll StoreKey.peer registry.all

/-- Nobody else in the registry has the key of the peer. -/
def Alone (registry : Registry) (peer : Peer) : Prop :=
  ∀ other ∈ registry.all, StoreKey.peer other = StoreKey.peer peer → other = peer

variable {registry : Registry} {peer : Peer}

theorem of_snapshot {key : String} (found : registry.snapshot key = some peer) :
    peer ∈ registry.all ∧ StoreKey.peer peer = key :=
  (Table.of_putAll found).resolve_left nofun

/-- A peer of the registry is in the table, unless another has its key. -/
theorem snapshot_of_alone (member : peer ∈ registry.all) (alone : registry.Alone peer) :
    registry.snapshot (StoreKey.peer peer) = some peer := by
  have filled : ∃ found, registry.snapshot (StoreKey.peer peer) = some found :=
    Table.exists_putAll (.inr ⟨peer, member, rfl⟩)
  rcases filled with ⟨found, here⟩
  rcases of_snapshot here with ⟨inside, same⟩
  rw [here, alone found inside same]

/-- What is saved takes the place of what was saved before, whatever that was. -/
theorem save_run {Fits : Peer → Prop} {engine : Engine}
    (texts : RecordStore.peers.TextKeys engine.contents)
    (fits : ∀ peer ∈ registry.all, Fits peer) (isOpen : engine.isOpen = true) :
    ∃ contents, registry.save.run engine =
        (.ok registry.all.length, { engine with contents }) ∧
      RecordStore.peers.Keeps Fits registry.snapshot contents := by
  rcases texts.exists_keys with ⟨names, same⟩
  have listed : ∀ fullKey bytes, (fullKey, bytes) ∈ RecordStore.peers.entriesIn engine.contents →
      ∃ key ∈ names, fullKey = RecordStore.peers.fullKey key := by
    intro fullKey bytes member
    have inside : fullKey ∈ names.map RecordStore.peers.fullKey :=
      same ▸ List.mem_map_of_mem member
    rcases List.mem_map.mp inside with ⟨key, named, here⟩
    exact ⟨key, named, here.symm⟩
  have read : ((RecordStore.peers.entriesIn engine.contents).map (·.1)).mapM
      RecordStore.peers.readKey = .ok names := by
    rw [same, RecordStore.mapM_map_eq_ok fun key _ => RecordStore.readKey_fullKey _ key,
      List.map_id']
  have keys : (RecordStore.peers.keys.run engine).1 = .ok names := by
    rw [RecordStore.keys_eq_reading, StoreAction.run_reading isOpen]
    rw [List.mapM_map] at read
    exact read
  have reads : RecordStore.peers.keys.ReadOnly := by
    rw [RecordStore.keys_eq_reading]
    exact StoreAction.readOnly_reading _
  refine ⟨_, ?_, RecordStore.keeps_replaced listed StoreKey.peer fits⟩
  rw [save, (reads.bind_of_ok keys _).1]
  dsimp only
  rw [Batch.foldl_delete, Batch.foldl_put]
  exact (StoreAction.write_bind_of_open isOpen _ _).1

/-! ## Taking over -/

theorem restore_snd (peers : List Peer) :
    (registry.restore peers).2 = registry.upsertAll (peers.map Peer.disconnected) := by
  induction peers generalizing registry with
  | nil => rfl
  | cons peer rest ih => exact ih

/-- A table that the store keeps is read as a whole. -/
theorem load_run {table : Table Peer} {engine : Engine}
    (keeps : RecordStore.peers.Keeps Peer.Fits table engine.contents)
    (isOpen : engine.isOpen = true) (registry : Registry) :
    ∃ entries, table.Lists entries ∧
      registry.load.run engine = (.ok (registry.restore (entries.map (·.2))), engine) := by
  rcases (keeps.reports Peer.codec_delimits.roundTrips isOpen).lists with
    ⟨entries, lists, -, -, values, -, -⟩
  refine ⟨entries, lists, ?_⟩
  rw [load, StoreAction.run_bind_return, values]
  rfl

/-- The registry knows whoever is in the table, as disconnected, and nobody else. -/
def Recalls (registry : Registry) (table : Table Peer) : Prop :=
  ∀ id peer, registry.get? id = some peer ↔
    ∃ key before, table key = some before ∧ before.id = id ∧ before.disconnected = peer

theorem proper_restore (proper : registry.Proper) (peers : List Peer) :
    (registry.restore peers).2.Proper := by
  rw [restore_snd]
  exact proper.upsertAll _

/-- A node that knew nobody recalls what an earlier run of it saved. -/
theorem recalls_restore {earlier : Registry} (proper : earlier.Proper) {own : Peer}
    (same : earlier.id = own.id) {entries : List (String × Peer)}
    (lists : earlier.snapshot.Lists entries) :
    ((ofOwn own).restore (entries.map (·.2))).2.Recalls earlier.snapshot := by
  have known {key : String} {peer : Peer} (found : earlier.snapshot key = some peer) :
      earlier.get? peer.id = some peer := by
    rcases earlier.mem_all_iff.mp (of_snapshot found).1 with ⟨id, here⟩
    rw [proper.keyed id peer here]
    exact here
  have listed {peer : Peer} : peer ∈ (entries.map (·.2)).map Peer.disconnected ↔
      ∃ key before, earlier.snapshot key = some before ∧ before.disconnected = peer := by
    rw [List.map_map, List.mem_map]
    constructor
    · rintro ⟨⟨key, before⟩, member, rfl⟩
      exact ⟨key, before, (lists.mem_iff key before).mp member, rfl⟩
    · rintro ⟨key, before, found, rfl⟩
      exact ⟨(key, before), (lists.mem_iff key before).mpr found, rfl⟩
  intro id peer
  rw [restore_snd]
  constructor
  · intro found
    rcases get?_of_upsertAll found with nobody | ⟨member, named⟩
    · cases nobody
    · rcases listed.mp member with ⟨key, before, saved, rfl⟩
      exact ⟨key, before, saved, named, rfl⟩
  · rintro ⟨key, before, saved, rfl, rfl⟩
    have foreign : before.disconnected.id ≠ (ofOwn own).id := by
      intro here
      have self := known saved
      rw [show before.id = earlier.id from here.trans same.symm, proper.foreign] at self
      cases self
    refine get?_upsertAll_of_mem (listed.mpr ⟨key, before, saved, rfl⟩) foreign ?_
    intro other member named
    rcases listed.mp member with ⟨_, another, found, rfl⟩
    have first := known found
    rw [show another.id = before.id from named, known saved] at first
    rw [Option.some.inj first]

variable {earlier : Registry}

theorem Recalls.mem_all_iff (recalls : registry.Recalls earlier.snapshot) :
    peer ∈ registry.all ↔
      ∃ key before, earlier.snapshot key = some before ∧ before.disconnected = peer := by
  rw [Registry.mem_all_iff]
  constructor
  · rintro ⟨id, found⟩
    rcases (recalls id peer).mp found with ⟨key, before, saved, -, same⟩
    exact ⟨key, before, saved, same⟩
  · rintro ⟨key, before, saved, same⟩
    exact ⟨before.id, (recalls before.id peer).mpr ⟨key, before, saved, rfl, same⟩⟩

/-- What is recalled is saved again under the same keys. -/
theorem Recalls.snapshot_eq (recalls : registry.Recalls earlier.snapshot) :
    registry.snapshot = fun key => (earlier.snapshot key).map Peer.disconnected := by
  funext key
  cases saved : earlier.snapshot key with
  | some before =>
      have placed : StoreKey.peer before = key := (of_snapshot saved).2
      have member : before.disconnected ∈ registry.all :=
        recalls.mem_all_iff.mpr ⟨key, before, saved, rfl⟩
      have alone : registry.Alone before.disconnected := by
        intro other inside same
        rcases recalls.mem_all_iff.mp inside with ⟨place, another, found, rfl⟩
        have here : place = key := (of_snapshot found).2.symm.trans (same.trans placed)
        rw [here, saved] at found
        rw [Option.some.inj found]
      rw [← placed]
      exact snapshot_of_alone member alone
  | none =>
      cases found : registry.snapshot key with
      | none => rfl
      | some peer =>
          rcases of_snapshot found with ⟨inside, placed⟩
          rcases recalls.mem_all_iff.mp inside with ⟨place, before, here, rfl⟩
          have same : place = key := (of_snapshot here).2.symm.trans placed
          rw [same, saved] at here
          cases here

/-! ## Whoever is known -/

/-- The registry knows a node with this id. -/
def Knows (registry : Registry) (id : String) : Prop :=
  ∃ peer, registry.get? id = some peer ∧ peer.id = id

/-- Whoever was known is known, in a registry of the same node. -/
structure Grows (before after : Registry) : Prop where
  id : after.id = before.id
  proper : before.Proper → after.Proper
  known : ∀ id, before.Knows id → after.Knows id

theorem Grows.refl (registry : Registry) : registry.Grows registry :=
  ⟨rfl, fun proper => proper, fun _ known => known⟩

theorem Grows.trans {first second third : Registry} (earlier : first.Grows second)
    (later : second.Grows third) : first.Grows third where
  id := later.id.trans earlier.id
  proper := fun proper => later.proper (earlier.proper proper)
  known := fun id known => later.known id (earlier.known id known)

theorem grows_upsert (registry : Registry) (peer : Peer) :
    registry.Grows (registry.upsert peer).2 where
  id := registry.id_upsert peer
  proper := fun proper => proper.upsert peer
  known := by
    rintro id ⟨known, found, named⟩
    rw [Knows, get?_upsert]
    split
    next both => exact ⟨peer, rfl, both.1⟩
    next => exact ⟨known, found, named⟩

theorem grows_setConnected (registry : Registry) (id : String) (connected : Bool) :
    registry.Grows (registry.setConnected id connected) where
  id := rfl
  proper := fun proper => proper.setConnected id connected
  known := by
    rintro other ⟨known, found, named⟩
    rw [Knows, get?_setConnected]
    split
    next same =>
      subst same
      exact ⟨{ known with connected }, by rw [found, Option.map_some], named⟩
    next => exact ⟨known, found, named⟩

/-- A node may learn more of itself, as long as it is the same node. -/
theorem grows_own {registry : Registry} {own : Peer} (same : own.id = registry.own.id) :
    registry.Grows { registry with own } where
  id := same
  proper := by
    intro proper
    refine ⟨proper.keyed, ?_⟩
    change registry.get? own.id = none
    rw [same]
    exact proper.foreign
  known := fun _ known => known

theorem Recalls.knows (recalls : registry.Recalls earlier.snapshot) {key : String}
    (saved : earlier.snapshot key = some peer) : registry.Knows peer.id :=
  ⟨peer.disconnected, (recalls peer.id _).mpr ⟨key, peer, saved, rfl, rfl⟩, rfl⟩

end Registry

end LedgerNode
