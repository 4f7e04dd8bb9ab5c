import LedgerNode.Peer.Registry
import LedgerNode.Proofs.OrderedMap

namespace LedgerNode

/-!
# What a registry answers

A registry is described by whom it finds under an id.  A node that introduces
itself is found afterwards as it said, and being connected is changed for one
peer at a time.
-/

namespace Registry

/-- Every peer is listed under its own id. -/
def Keyed (registry : Registry) : Prop :=
  ∀ id peer, registry.get? id = some peer → peer.id = id

/-- Every peer is listed under its own id, and the node itself is not listed. -/
structure Proper (registry : Registry) : Prop where
  keyed : ∀ id peer, registry.get? id = some peer → peer.id = id
  foreign : registry.get? registry.id = none

/-- Whether the registry holds somebody as connected. -/
def Holds (registry : Registry) (id : String) : Prop :=
  ∃ peer, registry.get? id = some peer ∧ peer.connected = true

variable (registry : Registry)

@[simp]
theorem own_upsert (peer : Peer) : (registry.upsert peer).2.own = registry.own := by
  rw [upsert]
  split <;> rfl

@[simp]
theorem id_upsert (peer : Peer) : (registry.upsert peer).2.id = registry.id :=
  congrArg Peer.id (registry.own_upsert peer)

theorem get?_setConnected (id other : String) (connected : Bool) :
    (registry.setConnected id connected).get? other =
      if other = id then (registry.get? id).map fun peer => { peer with connected }
      else registry.get? other :=
  registry.peers.get?_modify id other _

/-- Somebody else is found as it was put. -/
theorem get?_upsert_self {peer : Peer} (foreign : peer.id ≠ registry.id) :
    (registry.upsert peer).2.get? peer.id = some peer := by
  rw [upsert, if_neg foreign]
  exact OrderedMap.get?_insert_self _ _ _

/-- Whoever is found after a peer was put was found before, or is this peer. -/
theorem get?_of_upsert {peer found : Peer} {id : String}
    (here : (registry.upsert peer).2.get? id = some found) :
    registry.get? id = some found ∨ found = peer ∧ peer.id = id ∧ peer.id ≠ registry.id := by
  rw [upsert] at here
  split at here
  next => exact .inl here
  next foreign =>
    by_cases same : id = peer.id
    · subst same
      rw [get?, OrderedMap.get?_insert_self] at here
      exact .inr ⟨(Option.some.inj here).symm, rfl, foreign⟩
    · rw [get?, OrderedMap.get?_insert_of_ne _ same] at here
      exact .inl here

theorem get?_upsert (peer : Peer) (id : String) :
    (registry.upsert peer).2.get? id =
      if peer.id = id ∧ peer.id ≠ registry.id then some peer else registry.get? id := by
  by_cases own : peer.id = registry.id
  · rw [upsert, if_pos own, if_neg fun both => both.2 own]
  · by_cases same : peer.id = id
    · rw [if_pos ⟨same, own⟩, ← same]
      exact registry.get?_upsert_self own
    · rw [upsert, if_neg own, if_neg fun both => same both.1]
      exact registry.peers.get?_insert_of_ne (Ne.symm same) peer

theorem mem_all_iff {peer : Peer} : peer ∈ registry.all ↔ ∃ id, registry.get? id = some peer :=
  OrderedMap.mem_values_iff

theorem mem_connected {peer : Peer} :
    peer ∈ registry.connected ↔ ∃ id, registry.get? id = some peer ∧ peer.connected = true := by
  rw [connected, List.mem_filter, all, OrderedMap.mem_values_iff]
  exact exists_and_right.symm

variable {registry}

/-- The peers are listed by their ids. -/
theorem Keyed.map_id_all (keyed : registry.Keyed) :
    registry.all.map (·.id) = registry.peers.keys := by
  rw [all, OrderedMap.values, List.map_map, OrderedMap.keys]
  apply List.map_congr_left
  rintro ⟨id, peer⟩ member
  exact keyed id peer (OrderedMap.mem_entries_iff.mp member)

theorem Keyed.nodup_ids (keyed : registry.Keyed) : (registry.all.map (·.id)).Nodup :=
  keyed.map_id_all ▸ registry.peers.nodup_keys

/-- The connected peers have different ids. -/
theorem Keyed.nodup_connected (keyed : registry.Keyed) :
    (registry.connected.map (·.id)).Nodup :=
  keyed.nodup_ids.sublist (List.filter_sublist.map _)

theorem Proper.nodup_connected (proper : registry.Proper) :
    (registry.connected.map (·.id)).Nodup :=
  Keyed.nodup_connected proper.keyed

theorem Keyed.mem_connected_iff (keyed : registry.Keyed) {peer : Peer} :
    peer ∈ registry.connected ↔ registry.get? peer.id = some peer ∧ peer.connected = true := by
  rw [mem_connected]
  constructor
  · rintro ⟨id, found, connected⟩
    exact ⟨keyed id peer found ▸ found, connected⟩
  · rintro ⟨found, connected⟩
    exact ⟨peer.id, found, connected⟩

/-- Noting a connection changes at most whether the peer is connected. -/
theorem get?_of_setConnected {id other : String} {connected : Bool} {peer : Peer}
    (found : (registry.setConnected id connected).get? other = some peer) :
    ∃ known flag, registry.get? other = some known ∧ peer = { known with connected := flag } := by
  rw [get?_setConnected] at found
  split at found
  next same =>
    rcases Option.map_eq_some_iff.mp found with ⟨known, here, changed⟩
    exact ⟨known, connected, same ▸ here, changed.symm⟩
  next => exact ⟨peer, peer.connected, found, rfl⟩

theorem Keyed.setConnected (keyed : registry.Keyed) (id : String) (connected : Bool) :
    (registry.setConnected id connected).Keyed := by
  intro other peer found
  rcases get?_of_setConnected found with ⟨known, _, here, rfl⟩
  exact keyed other known here

theorem Proper.setConnected (proper : registry.Proper) (id : String) (connected : Bool) :
    (registry.setConnected id connected).Proper where
  keyed := Keyed.setConnected proper.keyed id connected
  foreign := by
    cases found : (registry.setConnected id connected).get? registry.id with
    | none => exact found
    | some peer =>
        rcases get?_of_setConnected found with ⟨known, _, here, -⟩
        rw [proper.foreign] at here
        cases here

theorem proper_ofOwn (own : Peer) : (ofOwn own).Proper := ⟨nofun, rfl⟩

theorem Keyed.upsert (keyed : registry.Keyed) (peer : Peer) :
    (registry.upsert peer).2.Keyed := by
  intro id found here
  rcases get?_of_upsert registry here with before | ⟨rfl, same, -⟩
  · exact keyed id found before
  · exact same

theorem Proper.upsert (proper : registry.Proper) (peer : Peer) :
    (registry.upsert peer).2.Proper where
  keyed := Keyed.upsert proper.keyed peer
  foreign := by
    rw [id_upsert]
    cases here : (registry.upsert peer).2.get? registry.id with
    | none => rfl
    | some found =>
        rcases get?_of_upsert registry here with before | ⟨-, same, foreign⟩
        · rw [proper.foreign] at before
          cases before
        · exact absurd same foreign

theorem Proper.upsertAll (proper : registry.Proper) (peers : List Peer) :
    (registry.upsertAll peers).Proper := by
  induction peers generalizing registry with
  | nil => exact proper
  | cons peer rest ih => exact ih (proper.upsert peer)

theorem own_upsertAll (peers : List Peer) : (registry.upsertAll peers).own = registry.own := by
  induction peers generalizing registry with
  | nil => rfl
  | cons peer rest ih => exact ih.trans (registry.own_upsert peer)

theorem id_upsertAll (peers : List Peer) : (registry.upsertAll peers).id = registry.id :=
  congrArg Peer.id (own_upsertAll peers)

/-- Whoever is found after several peers were put was found before, or is one of them. -/
theorem get?_of_upsertAll {peers : List Peer} {id : String} {found : Peer}
    (here : (registry.upsertAll peers).get? id = some found) :
    registry.get? id = some found ∨ found ∈ peers ∧ found.id = id := by
  induction peers generalizing registry with
  | nil => exact .inl here
  | cons peer rest ih =>
      rcases ih here with before | ⟨member, same⟩
      · rcases get?_of_upsert registry before with earlier | ⟨rfl, same, -⟩
        · exact .inl earlier
        · exact .inr ⟨List.mem_cons_self, same⟩
      · exact .inr ⟨List.mem_cons_of_mem _ member, same⟩

/-- Whoever is found is still found after several peers were put, if none of them
has its id and says something else. -/
theorem get?_upsertAll_of_known {peers : List Peer} {id : String} {peer : Peer}
    (known : registry.get? id = some peer) (agree : ∀ other ∈ peers, other.id = id → other = peer) :
    (registry.upsertAll peers).get? id = some peer := by
  induction peers generalizing registry with
  | nil => exact known
  | cons head rest ih =>
      rcases List.forall_mem_cons.mp agree with ⟨first, others⟩
      refine ih ?_ others
      rw [get?_upsert]
      split
      next both => rw [first both.1]
      next => exact known

theorem get?_upsertAll_of_mem {peers : List Peer} {peer : Peer} (member : peer ∈ peers)
    (foreign : peer.id ≠ registry.id)
    (agree : ∀ other ∈ peers, other.id = peer.id → other = peer) :
    (registry.upsertAll peers).get? peer.id = some peer := by
  induction peers generalizing registry with
  | nil => cases member
  | cons head rest ih =>
      rcases List.forall_mem_cons.mp agree with ⟨first, others⟩
      rcases List.mem_cons.mp member with rfl | inside
      · have stays : ((registry.upsert peer).2.upsertAll rest).get? peer.id = some peer :=
          get?_upsertAll_of_known (registry.get?_upsert_self foreign) others
        exact stays
      · refine ih inside ?_ others
        rw [id_upsert]
        exact foreign

/-- Whoever is connected stays so when another connection is noted. -/
theorem Holds.setConnected {id : String} (holds : registry.Holds id) (other : String) :
    (registry.setConnected other true).Holds id := by
  rcases holds with ⟨peer, found, connected⟩
  rw [Holds, get?_setConnected]
  split
  next same => exact ⟨_, by rw [← same, found, Option.map_some], rfl⟩
  next => exact ⟨peer, found, connected⟩

end Registry

end LedgerNode
