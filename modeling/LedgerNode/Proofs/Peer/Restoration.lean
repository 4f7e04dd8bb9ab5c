import Mathlib.Data.List.Nodup
import LedgerNode.Proofs.Peer.Snapshot
import LedgerNode.Proofs.Store.Layout

namespace LedgerNode

/-!
# Saved peers are restored whole

A registry whose peers have different store keys is found again as it was saved.
The store lists its peers and nobody else, whatever it listed before.  A new registry
that reads the store knows the same peers, as disconnected, except for itself; and
what it saves in turn differs from the first only there.

Keys can coincide: the address and the id of a peer are separated by a colon, and
both may have colons of their own.  As long as no id has one, the keys are as different
as the ids, whatever the addresses.
-/

namespace Registry

/-! ## Registries that a node can get into -/

/-- The registries that come about by calls.  The texts of the peers are such as a
machine can hold, and of itself the node may note anything. -/
inductive Reachable : Registry → Prop where
  | ofOwn (own : Peer) : Reachable (.ofOwn own)
  | upsert {registry : Registry} (reachable : Reachable registry) {peer : Peer}
    (fits : peer.Fits) : Reachable (registry.upsert peer).2
  | setConnected {registry : Registry} (reachable : Reachable registry) (id : String)
    (connected : Bool) : Reachable (registry.setConnected id connected)
  | noteOwn {registry : Registry} (reachable : Reachable registry) (own : Peer) :
    Reachable { registry with own }

variable {registry : Registry}

theorem Reachable.keyed (reachable : registry.Reachable) : registry.Keyed := by
  induction reachable with
  | ofOwn own => exact nofun
  | upsert _ _ ih => exact ih.upsert _
  | setConnected _ id connected ih => exact ih.setConnected id connected
  | noteOwn _ own ih => exact ih

theorem Reachable.fits (reachable : registry.Reachable) :
    ∀ id peer, registry.get? id = some peer → peer.Fits := by
  induction reachable with
  | ofOwn own => exact nofun
  | upsert _ brought ih =>
      intro id peer found
      rcases get?_of_upsert _ found with before | ⟨rfl, -, -⟩
      · exact ih id peer before
      · exact brought
  | setConnected _ other connected ih =>
      intro id peer found
      rcases get?_of_setConnected found with ⟨known, flag, before, rfl⟩
      have same := ih id known before
      exact ⟨same.address, same.id⟩
  | noteOwn _ own ih => exact ih

theorem Reachable.fits_all (reachable : registry.Reachable) : ∀ peer ∈ registry.all, peer.Fits := by
  intro peer member
  rcases registry.mem_all_iff.mp member with ⟨id, found⟩
  exact reachable.fits id peer found

theorem Keyed.mem_all_iff (keyed : registry.Keyed) {peer : Peer} :
    peer ∈ registry.all ↔ registry.get? peer.id = some peer := by
  rw [Registry.mem_all_iff]
  constructor
  · rintro ⟨id, found⟩
    exact keyed id peer found ▸ found
  · exact fun found => ⟨peer.id, found⟩

/-! ## Different keys -/

/-- No two peers share a store key. -/
def Distinct (registry : Registry) : Prop := ∀ peer ∈ registry.all, registry.Alone peer

/-- Ids without a colon keep the keys apart. -/
theorem Keyed.distinct (keyed : registry.Keyed)
    (plain : ∀ peer ∈ registry.all, ':' ∉ peer.id.toList) : registry.Distinct := by
  intro peer member other inside same
  have ids := ((StoreKey.peer_inj (plain other inside) (plain peer member)).mp same).2
  have found := keyed.mem_all_iff.mp inside
  rw [ids, keyed.mem_all_iff.mp member] at found
  exact (Option.some.inj found).symm

theorem Distinct.snapshot_eq_some_iff (distinct : registry.Distinct) {key : String}
    {peer : Peer} :
    registry.snapshot key = some peer ↔ peer ∈ registry.all ∧ StoreKey.peer peer = key := by
  constructor
  · exact of_snapshot
  · rintro ⟨member, rfl⟩
    exact snapshot_of_alone member (distinct peer member)

/-- What is saved lists every peer once, under its own key. -/
theorem Distinct.lists_perm (distinct : registry.Distinct) (keyed : registry.Keyed)
    {entries : List (String × Peer)} (lists : registry.snapshot.Lists entries) :
    entries.Perm (registry.all.map fun peer => (StoreKey.peer peer, peer)) := by
  have once : (registry.all.map fun peer => (StoreKey.peer peer, peer)).Nodup :=
    (List.Nodup.of_map _ keyed.nodup_ids).map fun _ _ same => congrArg Prod.snd same
  apply (List.perm_ext_iff_of_nodup lists.nodup once).mpr
  rintro ⟨key, peer⟩
  rw [lists.mem_iff, distinct.snapshot_eq_some_iff, List.mem_map]
  constructor
  · rintro ⟨member, rfl⟩
    exact ⟨peer, member, rfl⟩
  · rintro ⟨other, member, same⟩
    cases same
    exact ⟨member, rfl⟩

/-! ## What another registry takes over -/

/-- The registry of a node that knows whom this registry knows, except for itself, as
disconnected. -/
def inherited (registry : Registry) (own : Peer) : Registry :=
  ⟨own, (registry.peers.filter fun id _ => id != own.id).map Peer.disconnected⟩

theorem get?_inherited (own : Peer) (id : String) :
    (registry.inherited own).get? id =
      if id = own.id then none else (registry.get? id).map Peer.disconnected := by
  rw [get?, inherited, OrderedMap.get?_map, OrderedMap.get?_filter, get?]
  by_cases self : id = own.id
  · rw [if_pos self, self, bne_self_eq_false]
    cases registry.peers.get? own.id <;> rfl
  · rw [if_neg self, bne_iff_ne.mpr self]
    cases registry.peers.get? id <;> rfl

theorem Keyed.inherited (keyed : registry.Keyed) (own : Peer) :
    (registry.inherited own).Keyed := by
  intro id peer found
  rw [get?_inherited] at found
  split at found
  next => cases found
  next =>
      rcases Option.map_eq_some_iff.mp found with ⟨before, known, rfl⟩
      exact keyed id before known

theorem Keyed.mem_all_inherited (keyed : registry.Keyed) {own peer : Peer} :
    peer ∈ (registry.inherited own).all ↔
      ∃ before ∈ registry.all, before.id ≠ own.id ∧ before.disconnected = peer := by
  rw [(keyed.inherited own).mem_all_iff, get?_inherited]
  constructor
  · intro found
    split at found
    next => cases found
    next foreign =>
        rcases Option.map_eq_some_iff.mp found with ⟨before, known, rfl⟩
        exact ⟨before, keyed.mem_all_iff.mpr known, foreign, rfl⟩
  · rintro ⟨before, member, foreign, rfl⟩
    rw [Peer.id_disconnected, if_neg foreign, keyed.mem_all_iff.mp member]
    rfl

theorem Keyed.all_inherited (keyed : registry.Keyed) (own : Peer) :
    (registry.inherited own).all =
      (registry.all.filter fun peer => peer.id != own.id).map Peer.disconnected := by
  have named : ∀ entry ∈ registry.peers.entries,
      (entry.1 != own.id) = (entry.2.id != own.id) := by
    intro entry member
    rw [keyed entry.1 entry.2 (OrderedMap.mem_entries_iff.mp member)]
  rw [all, all, OrderedMap.values, OrderedMap.values, List.filter_map, List.map_map]
  change ((registry.peers.entries.filter fun entry => entry.1 != own.id).map _).map _ = _
  rw [List.filter_congr named, List.map_map]
  rfl

theorem Distinct.inherited (distinct : registry.Distinct) (keyed : registry.Keyed)
    (own : Peer) : (registry.inherited own).Distinct := by
  intro peer member other inside same
  rcases keyed.mem_all_inherited.mp member with ⟨before, known, -, rfl⟩
  rcases keyed.mem_all_inherited.mp inside with ⟨another, there, -, rfl⟩
  rw [distinct before known another there same]

/-- The answer of a restoration tells by how many peers the registry has grown. -/
theorem size_restore (registry : Registry) (peers : List Peer) :
    (registry.restore peers).2.size = registry.size + (registry.restore peers).1 := by
  have grows (registry : Registry) (peer : Peer) :
      (registry.upsert peer).2.size = registry.size + (registry.upsert peer).1.toNat := by
    rw [upsert]
    split
    next => rfl
    next => exact registry.peers.size_insert peer.id peer
  induction peers generalizing registry with
  | nil => rfl
  | cons peer rest ih =>
      have first := grows registry peer.disconnected
      have others := ih (registry.upsert peer.disconnected).2
      rw [first, Nat.add_assoc] at others
      exact others

/-- Whatever the order in which the peers of a registry are restored, all are there. -/
theorem Keyed.restore_eq (keyed : registry.Keyed) (own : Peer) {peers : List Peer}
    (permuted : peers.Perm registry.all) :
    (ofOwn own).restore peers = ((registry.inherited own).size, registry.inherited own) := by
  have listed {peer : Peer} : peer ∈ peers.map Peer.disconnected ↔
      ∃ before ∈ registry.all, before.disconnected = peer := by
    rw [List.mem_map]
    exact exists_congr fun before => and_congr_left' permuted.mem_iff
  have answers : ∀ id, ((ofOwn own).upsertAll (peers.map Peer.disconnected)).get? id =
      (registry.inherited own).get? id := by
    intro id
    apply Option.ext
    intro peer
    constructor
    · intro found
      rcases get?_of_upsertAll found with nobody | ⟨member, rfl⟩
      · cases nobody
      · rcases listed.mp member with ⟨before, known, rfl⟩
        have foreign : before.id ≠ own.id := by
          intro self
          have nobody := ((proper_ofOwn own).upsertAll (peers.map Peer.disconnected)).foreign
          rw [id_upsertAll] at nobody
          rw [Peer.id_disconnected, self] at found
          cases nobody.symm.trans found
        rw [Peer.id_disconnected, get?_inherited, if_neg foreign, keyed.mem_all_iff.mp known]
        rfl
    · intro found
      have named := keyed.inherited own id peer found
      have member := (registry.inherited own).mem_all_iff.mpr ⟨id, found⟩
      rcases keyed.mem_all_inherited.mp member with ⟨before, known, foreign, rfl⟩
      have stranger : before.disconnected.id ≠ (ofOwn own).id := foreign
      rw [← named]
      apply get?_upsertAll_of_mem (listed.mpr ⟨before, known, rfl⟩) stranger
      intro other inside same
      rcases listed.mp inside with ⟨another, there, rfl⟩
      have ids : another.id = before.id := same
      have found := keyed.mem_all_iff.mp there
      rw [ids, keyed.mem_all_iff.mp known] at found
      rw [Option.some.inj found]
  have whole : ((ofOwn own).restore peers).2 = registry.inherited own := by
    rw [restore_snd]
    have known := OrderedMap.ext_get? answers
    have owned : ((ofOwn own).upsertAll (peers.map Peer.disconnected)).own = own :=
      own_upsertAll _
    exact congr (congrArg Registry.mk owned) known
  have count := (ofOwn own).size_restore peers
  rw [whole] at count
  have nobody : (ofOwn own).size = 0 := rfl
  rw [nobody, Nat.zero_add] at count
  exact Prod.ext count.symm whole

/-- What the second registry saves is listed like what the first one saved, but for the
second node itself and for who is connected. -/
theorem Distinct.lists_inherited (distinct : registry.Distinct) (keyed : registry.Keyed)
    (own : Peer) {entries : List (String × Peer)} (lists : registry.snapshot.Lists entries) :
    (registry.inherited own).snapshot.Lists
      ((entries.filter fun entry => entry.2.id != own.id).map
        fun entry => (entry.1, entry.2.disconnected)) where
  increasing := List.pairwise_map.mpr (lists.increasing.filter _)
  mem_iff key peer := by
    rw [(distinct.inherited keyed own).snapshot_eq_some_iff, keyed.mem_all_inherited,
      List.mem_map]
    constructor
    · rintro ⟨⟨place, before⟩, member, same⟩
      cases same
      rcases List.mem_filter.mp member with ⟨listed, foreign⟩
      rcases distinct.snapshot_eq_some_iff.mp ((lists.mem_iff _ _).mp listed) with
        ⟨known, placed⟩
      exact ⟨⟨before, known, bne_iff_ne.mp foreign, rfl⟩, placed⟩
    · rintro ⟨⟨before, known, foreign, rfl⟩, placed⟩
      refine ⟨(key, before), List.mem_filter.mpr ⟨?_, bne_iff_ne.mpr foreign⟩, rfl⟩
      exact (lists.mem_iff _ _).mpr (distinct.snapshot_eq_some_iff.mpr ⟨known, placed⟩)

/-! ## Saving, loading and saving again -/

/-- The peers of the registry replace what the store listed.  A new registry takes them
over from there, and saves them again. -/
structure Restored (registry : Registry) (own : Peer) (engine saved again : Engine)
    (listed : List (String × Peer)) : Prop where
  saves : registry.save.run engine = (.ok registry.all.length, saved)
  lists : RecordStore.peers.entries.run saved = (.ok listed, saved)
  whole : listed.Perm (registry.all.map fun peer => (StoreKey.peer peer, peer))
  loads : (ofOwn own).load.run saved =
    (.ok ((registry.inherited own).size, registry.inherited own), saved)
  known : (registry.inherited own).all =
    (registry.all.filter fun peer => peer.id != own.id).map Peer.disconnected
  savesAgain : (registry.inherited own).save.run saved =
    (.ok (registry.inherited own).size, again)
  listsAgain : RecordStore.peers.entries.run again =
    (.ok ((listed.filter fun entry => entry.2.id != own.id).map
      fun entry => (entry.1, entry.2.disconnected)), again)

/-- After a registry was saved, the store is open as before and lists what was saved. -/
theorem save_lists {engine : Engine} (texts : RecordStore.peers.TextKeys engine.contents)
    (fits : ∀ peer ∈ registry.all, peer.Fits) (isOpen : engine.isOpen = true) :
    ∃ saved listed, registry.save.run engine = (.ok registry.all.length, saved) ∧
      saved.isOpen = true ∧
      RecordStore.peers.Keeps Peer.Fits registry.snapshot saved.contents ∧
      registry.snapshot.Lists listed ∧
      RecordStore.peers.entries.run saved = (.ok listed, saved) := by
  rcases save_run texts fits isOpen with ⟨contents, saves, keeps⟩
  have still : ({ engine with contents } : Engine).isOpen = true := isOpen
  have reports : RecordStore.peers.Reports { engine with contents } registry.snapshot :=
    keeps.reports Peer.codec_delimits.roundTrips still
  rcases reports.lists with ⟨listed, lists, -, entries, -, -, -⟩
  exact ⟨_, listed, saves, still, keeps, lists, entries⟩

theorem Distinct.restored (distinct : registry.Distinct) (reachable : registry.Reachable)
    {engine : Engine} (isOpen : engine.isOpen = true)
    (texts : RecordStore.peers.TextKeys engine.contents) (own : Peer) :
    ∃ saved again listed, registry.Restored own engine saved again listed := by
  have keyed := reachable.keyed
  have fits : ∀ peer ∈ (registry.inherited own).all, peer.Fits := by
    intro peer member
    rcases keyed.mem_all_inherited.mp member with ⟨before, known, -, rfl⟩
    have same := reachable.fits_all before known
    exact ⟨same.address, same.id⟩
  rcases save_lists texts reachable.fits_all isOpen with
    ⟨saved, listed, saves, savedOpen, keeps, lists, entries⟩
  rcases load_run keeps savedOpen (ofOwn own) with ⟨others, listsToo, loads⟩
  cases lists.eq listsToo
  have permuted := distinct.lists_perm keyed lists
  have peers : (listed.map (·.2)).Perm registry.all := by
    have values := permuted.map (·.2)
    rwa [RecordStore.map_snd_keyed] at values
  rw [keyed.restore_eq own peers] at loads
  rcases save_lists keeps.known fits savedOpen with
    ⟨again, relisted, savesAgain, -, -, listsAgain, entriesAgain⟩
  cases listsAgain.eq (distinct.lists_inherited keyed own lists)
  have counted : (registry.inherited own).all.length = (registry.inherited own).size :=
    List.length_map _
  rw [counted] at savesAgain
  exact ⟨saved, again, listed, saves, entries, permuted, loads, keyed.all_inherited own,
    savesAgain, entriesAgain⟩

/-- A registry whose peers have different store keys, as they do when no id has a
colon, is saved in place of whatever was stored, and restored whole. -/
theorem saved_restored_whole :
    (∀ registry : Registry, registry.Reachable →
      (∀ peer ∈ registry.all, ':' ∉ peer.id.toList) → registry.Distinct) ∧
    ∀ (registry : Registry) (engine : Engine) (own : Peer), registry.Reachable →
      registry.Distinct → engine.isOpen = true →
      RecordStore.peers.TextKeys engine.contents →
      ∃ saved again listed, registry.Restored own engine saved again listed :=
  ⟨fun _ reachable => reachable.keyed.distinct,
    fun _ _ own reachable distinct isOpen texts => distinct.restored reachable isOpen texts own⟩

/-- Two peers, one of them at an address with colons. -/
def pair : Registry :=
  (ofOwn (.ofAddress "0.0.0.0" 45050 "here" .dns)).upsertAll
    [{ Peer.ofAddress "fe80::1" 45050 "far" .seed with connected := true },
      .ofAddress "10.0.0.9" 45050 "near" .node]

/-- A store in which something lies that is no peer. -/
def litteredEngine : Engine :=
  { Engine.create "data" with
    contents := (∅ : Contents).insert (RecordStore.peers.fullKey "10.0.0.9:gone") [255] }

/-- The peer that takes over the pair is one of the two. -/
theorem saved_restored_whole_pair :
    pair.Reachable ∧ (∀ peer ∈ pair.all, ':' ∉ peer.id.toList) ∧
      litteredEngine.isOpen = true ∧ RecordStore.peers.TextKeys litteredEngine.contents ∧
      ∃ saved again listed, pair.Restored (.ofAddress "10.0.0.9" 45050 "near" .node)
        litteredEngine saved again listed ∧ listed.length = 2 := by
  have reachable : pair.Reachable :=
    .upsert (.upsert (.ofOwn _) ⟨by decide, by decide⟩) ⟨by decide, by decide⟩
  have plain : ∀ peer ∈ pair.all, ':' ∉ peer.id.toList := by decide +kernel
  have texts : RecordStore.peers.TextKeys litteredEngine.contents := by
    intro fullKey bytes member
    have stored := OrderedMap.mem_entries_iff.mp (List.mem_filter.mp member).1
    rw [litteredEngine, OrderedMap.get?_insert] at stored
    split at stored
    next here => exact ⟨_, here⟩
    next => cases stored
  rcases saved_restored_whole.2 pair litteredEngine (.ofAddress "10.0.0.9" 45050 "near" .node)
    reachable (saved_restored_whole.1 pair reachable plain) rfl texts with
    ⟨saved, again, listed, restored⟩
  have two : (pair.all.map fun peer => (StoreKey.peer peer, peer)).length = 2 := by
    decide +kernel
  exact ⟨reachable, plain, rfl, texts, saved, again, listed, restored,
    restored.whole.length_eq.trans two⟩

end Registry

end LedgerNode
