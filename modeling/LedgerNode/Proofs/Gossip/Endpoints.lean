import LedgerNode.Proofs.Gossip.Run
import LedgerNode.Proofs.Net.SocketAddress

namespace LedgerNode

/-!
# Which endpoints can be dialled

A node sends only to peers whose endpoints are socket addresses.  An introduction
by a stranger is refused if its endpoint is none, and whoever was dialled has one,
because the node remembers dialled addresses as texts of addresses.

Two ways into the registry have no such guard.  An acquaintance that introduces
itself again is taken at its word, and so is somebody who tells the node where it
was seen, as long as the node says of itself only that it listens everywhere.  Every
endpoint that cannot be dialled came in by one of these two ways.
-/

/-- A peer whose endpoint is an address. -/
def Peer.Dialable (peer : Peer) : Prop := ∃ target, peer.socketAddress = .ok target

theorem Peer.dialable_iff {peer : Peer} :
    peer.Dialable ↔ ∃ target, SocketAddress.ofText? peer.endpoint = some target := by
  rw [Dialable, socketAddress]
  cases SocketAddress.ofText? peer.endpoint with
  | none => simp
  | some target => exact iff_of_true ⟨target, rfl⟩ ⟨target, rfl⟩

/-- Only the endpoint counts. -/
theorem Peer.Dialable.congr {first second : Peer} (dialable : first.Dialable)
    (same : second.endpoint = first.endpoint) : second.Dialable := by
  rw [Peer.dialable_iff, same]
  exact Peer.dialable_iff.mp dialable

namespace Registry

variable {registry : Registry}

@[simp]
theorem own_disconnect (peers : List Peer) :
    (registry.disconnect peers).own = registry.own := by
  induction peers generalizing registry with
  | nil => rfl
  | cons peer rest ih => exact ih

/-- Noting that peers are disconnected does not move them. -/
theorem get?_of_disconnect {peers : List Peer} {id : String} {row : Peer}
    (found : (registry.disconnect peers).get? id = some row) :
    ∃ known, registry.get? id = some known ∧ row.endpoint = known.endpoint := by
  induction peers generalizing registry with
  | nil => exact ⟨row, found, rfl⟩
  | cons peer rest ih =>
      rcases ih found with ⟨middle, here, same⟩
      rcases get?_of_setConnected here with ⟨known, _, before, rfl⟩
      exact ⟨known, before, same⟩

end Registry

namespace Overlay

/-! ## What moves nobody -/

/-- Nobody is found elsewhere than before. -/
structure Stays (overlay next : Overlay) : Prop where
  own : next.registry.own = overlay.registry.own
  dialled : next.dialled = overlay.dialled
  rows : ∀ id row, next.registry.get? id = some row →
    ∃ known, overlay.registry.get? id = some known ∧ row.endpoint = known.endpoint

theorem Stays.of_registry {overlay next : Overlay} (registry : next.registry = overlay.registry)
    (dialled : next.dialled = overlay.dialled) : Stays overlay next where
  own := congrArg Registry.own registry
  dialled := dialled
  rows _ row found := ⟨row, registry ▸ found, rfl⟩

theorem Stays.spread {overlay next : Overlay} (stays : Stays overlay next) (network : Network)
    (frame : Frame) (peers : List Peer) : Stays overlay (next.spread network frame peers) where
  own := by
    rw [Overlay.spread, Registry.own_disconnect]
    exact stays.own
  dialled := stays.dialled
  rows id row found := by
    rcases Registry.get?_of_disconnect found with ⟨middle, here, same⟩
    rcases stays.rows id middle here with ⟨known, before, moved⟩
    exact ⟨known, before, same.trans moved⟩

theorem Processed.stays {network : Network} {overlay next : Overlay} {topic id : String}
    {message : Message} (processed : Processed network overlay next topic id message) :
    Stays overlay next := by
  rcases processed.relayed with ⟨targets, _, _, registry⟩
  refine ⟨?_, processed.dialled, ?_⟩
  · rw [registry, Registry.own_disconnect]
    rfl
  · intro other row found
    rw [registry] at found
    rcases Registry.get?_of_disconnect found with ⟨middle, here, same⟩
    rcases Registry.get?_of_setConnected here with ⟨known, _, before, rfl⟩
    exact ⟨known, before, same⟩

theorem stays_handlePublish (network : Network) (overlay : Overlay)
    (topic messageId origin sender : String) (data : Bytes) :
    Stays overlay
      ((handlePublish network topic messageId origin sender data).run.run overlay).2 := by
  by_cases known : messageId ∈ overlay.seen.ids
  · rw [run_handlePublish_of_seen known]
    exact .of_registry rfl rfl
  · exact (handlePublish_processed known network topic origin sender data).stays

theorem stays_publish (network : Network) (overlay : Overlay) (topic : String) (data : Bytes) :
    Stays overlay ((publish network topic data).run.run overlay).2 := by
  have counted : Stays overlay
      { overlay with
        published := overlay.published + 1
        seen := (overlay.seen.record (overlay.nextId data)).2 } := .of_registry rfl rfl
  rw [publish_spread]
  exact counted.spread network _ _

theorem stays_join (overlay : Overlay) (topic : String) :
    Stays overlay ((join topic).run.run overlay).2 := by
  rcases topics_join overlay topic with ⟨topics, same⟩
  exact .of_registry (congrArg (·.registry) same) (congrArg (·.dialled) same)

theorem stays_takeAll (overlay : Overlay) (topic : String) :
    Stays overlay ((takeAll topic).run.run overlay).2 := by
  rcases topics_takeAll overlay topic with ⟨topics, same⟩
  exact .of_registry (congrArg (·.registry) same) (congrArg (·.dialled) same)

theorem stays_leave (overlay : Overlay) (topic : String) :
    Stays overlay ((leave topic).run.run overlay).2 := .of_registry rfl rfl

/-! ## What was told -/

end Overlay

/-- An introduction as one of the things that happen to a node. -/
def Greeting.happening (greeting : Greeting) : Overlay.Happening :=
  ⟨greeting.network, .frame greeting.source (.hello greeting.peer greeting.observedAddress)⟩

namespace Overlay

/-- Among what has happened since the node began there is an introduction of some
kind.  The kind may depend on the state in which the node took it. -/
def Told (begun : Overlay) (happenings : List Happening)
    (Kind : Overlay → Greeting → Prop) : Prop :=
  ∃ past greeting future, happenings = past ++ greeting.happening :: future ∧
    Kind (begun.run past) greeting

variable {begun overlay : Overlay} {past : List Happening} {Kind : Overlay → Greeting → Prop}

theorem Told.later (told : Told begun past Kind) (happening : Happening) :
    Told begun (past ++ [happening]) Kind := by
  rcases told with ⟨before, greeting, after, split, kind⟩
  refine ⟨before, greeting, after ++ [happening], ?_, kind⟩
  rw [split, List.append_assoc]
  rfl

theorem told_now {greeting : Greeting} (kind : Kind (begun.run past) greeting) :
    Told begun (past ++ [greeting.happening]) Kind :=
  ⟨past, greeting, [], rfl, kind⟩

/-- An acquaintance says that it is found at this endpoint now. -/
def Moves (id endpoint : String) (overlay : Overlay) (greeting : Greeting) : Prop :=
  greeting.peer.id = id ∧ overlay.registry.contains id = true ∧
    endpoint = (introduced greeting.peer greeting.source).endpoint

/-- Somebody tells the node its address, which it has not got. -/
def Observes (address : String) (overlay : Overlay) (greeting : Greeting) : Prop :=
  greeting.observedAddress = some address ∧
    overlay.registry.own.hasUnspecifiedAddress = true

/-- What can be said of the endpoints after all that has happened. -/
structure Located (begun : Overlay) (past : List Happening) (overlay : Overlay) : Prop where
  dialled : ∀ text ∈ overlay.dialled, ∃ target : SocketAddress, target.isV4 = true ∧
    text = target.text
  rows : ∀ id row, overlay.registry.get? id = some row →
    row.Dialable ∨ Told begun past (Moves id row.endpoint)
  own : overlay.registry.own.Dialable ∨
    Told begun past (Observes overlay.registry.own.address)

/-- A text that the node has dialled is the text of an address. -/
theorem Located.dialable (located : Located begun past overlay) {peer : Peer}
    (dialled : peer.endpoint ∈ overlay.dialled) : peer.Dialable := by
  rcases located.dialled _ dialled with ⟨target, short, same⟩
  exact Peer.dialable_iff.mpr ⟨target, same ▸ SocketAddress.ofText?_text short⟩

theorem Located.stays (located : Located begun past overlay) {next : Overlay}
    (stays : Stays overlay next) (happening : Happening) :
    Located begun (past ++ [happening]) next where
  dialled := stays.dialled ▸ located.dialled
  rows id row found := by
    rcases stays.rows id row found with ⟨known, before, same⟩
    rcases located.rows id known before with dialable | told
    · exact .inl (dialable.congr same)
    · exact .inr (same ▸ told.later happening)
  own := by
    rw [stays.own]
    exact located.own.imp_right (·.later happening)

theorem Located.dials (located : Located begun past overlay) {next : Overlay}
    (dials : Dials overlay next) (happening : Happening) :
    Located begun (past ++ [happening]) next where
  dialled text member := (dials.dialled text member).elim (located.dialled text) id
  rows id row found := by
    rw [dials.registry] at found
    exact (located.rows id row found).imp_right (·.later happening)
  own := by
    rw [dials.registry]
    exact located.own.imp_right (·.later happening)

/-- A node that learned its address was told it, and otherwise it is what it was. -/
theorem learnAddress_cases (observedAddress : Option String) (own : Peer) :
    learnAddress observedAddress own = own ∨
      ∃ address, observedAddress = some address ∧ own.hasUnspecifiedAddress = true ∧
        (learnAddress observedAddress own).address = address := by
  cases observedAddress with
  | none => exact .inl rfl
  | some address =>
      cases everywhere : own.hasUnspecifiedAddress with
      | false =>
          left
          simp [learnAddress, everywhere]
      | true =>
          right
          refine ⟨address, rfl, rfl, ?_⟩
          simp [learnAddress, everywhere]

theorem Located.acquaints {greeting : Greeting} (located : Located begun past (begun.run past))
    {next : Overlay} (acquaints : Acquaints (begun.run past) next greeting.peer
      greeting.observedAddress greeting.source) :
    Located begun (past ++ [greeting.happening]) next where
  dialled text member := located.dialled text (acquaints.dialled member)
  rows id row found := by
    -- only the way in by a known id has no guard
    rcases acquaints.rows id row found with before | ⟨rfl, same, known | dialled | address⟩
    · exact (located.rows id row before).imp_right (·.later _)
    · exact .inr (told_now ⟨rfl, known, same⟩)
    · exact .inl (located.dialable dialled)
    · exact .inl address
  own := by
    rcases learnAddress_cases greeting.observedAddress (begun.run past).registry.own with
      same | ⟨address, told, everywhere, learned⟩
    · rw [acquaints.own, same]
      exact located.own.imp_right (·.later _)
    · right
      rw [acquaints.own, learned]
      exact told_now ⟨told, everywhere⟩

theorem Located.step (located : Located begun past (begun.run past)) (happening : Happening) :
    Located begun (past ++ [happening]) ((begun.run past).step happening) := by
  rcases happening with ⟨network, event⟩
  cases event with
  | frame source content =>
      cases content with
      | hello peer observedAddress =>
          let greeting : Greeting := ⟨network, peer, observedAddress, source⟩
          have acquaints : Acquaints (begun.run past)
              ((begun.run past).step greeting.happening) greeting.peer greeting.observedAddress
              greeting.source := acquaints_handleHello _ network peer observedAddress source
          exact located.acquaints acquaints
      | publish topic id origin sender data =>
          exact located.stays (stays_handlePublish network _ topic id origin sender data) _
  | connect address => exact located.dials (dials_connect network _ address) _
  | publish topic data => exact located.stays (stays_publish network _ topic data) _
  | join topic => exact located.stays (stays_join _ topic) _
  | leave topic => exact located.stays (stays_leave _ topic) _
  | takeAll topic => exact located.stays (stays_takeAll _ topic) _

/-- A node begins with an endpoint that can be dialled and knows nobody.  Then at any
time everybody it knows can be dialled, except for those who were known already when
they said where they are; and so can the node itself, unless it was told its address
while it had none. -/
theorem undialable_was_told (own : Peer) (port : UInt16)
    (dialable : (start (.ofOwn own) port).registry.own.Dialable)
    (happenings : List Happening) :
    let begun := start (.ofOwn own) port
    let overlay := begun.run happenings
    (∀ id row, overlay.registry.get? id = some row →
        row.Dialable ∨ Told begun happenings (Moves id row.endpoint)) ∧
      (overlay.registry.own.Dialable ∨
        Told begun happenings (Observes overlay.registry.own.address)) := by
  intro begun overlay
  have first : Located begun [] begun := ⟨nofun, nofun, .inl dialable⟩
  have located : Located begun happenings overlay :=
    run_keeps first (fun past happening reached => reached.step happening) happenings
  exact ⟨located.rows, located.own⟩

/-- A node that listens everywhere. -/
def everywhere : Peer := .ofAddress "0.0.0.0" 0 "me" .node

/-- Somebody introduces itself from an address, and once more from nowhere. -/
def wanderer (address : String) : Greeting :=
  ⟨.isolated, .ofAddress address 7001 "peer" .node, some address, .v4 Network.loopback⟩

theorem dialable_everywhere : (start (.ofOwn everywhere) 7000).registry.own.Dialable :=
  ⟨.v4 .unspecified 7000, by cbv⟩

theorem undialable_was_told_wanderer :
    let begun := start (.ofOwn everywhere) 7000
    let happenings := [(wanderer "127.0.0.1").happening, (wanderer "nowhere").happening]
    let overlay := begun.run happenings
    begun.registry.own.Dialable ∧
      (∀ id row, overlay.registry.get? id = some row →
        row.Dialable ∨ Told begun happenings (Moves id row.endpoint)) ∧
      (overlay.registry.own.Dialable ∨
        Told begun happenings (Observes overlay.registry.own.address)) :=
  ⟨dialable_everywhere, undialable_was_told everywhere 7000 dialable_everywhere _⟩

/-- An acquaintance cannot be dialled any more after it has introduced itself from
nowhere, and neither can the node itself after it was told that it is nowhere. -/
theorem wanderer_undialable :
    let begun := start (.ofOwn everywhere) 7000
    let moved := begun.run [(wanderer "127.0.0.1").happening, (wanderer "nowhere").happening]
    let told := begun.run [(wanderer "nowhere").happening]
    begun.registry.own.Dialable ∧
      (∃ row, moved.registry.get? "peer" = some row ∧ ¬ row.Dialable) ∧
      ¬ told.registry.own.Dialable := by
  have lost (peer : Peer) (text : String) (spelled : peer.endpoint = text)
      (unreadable : SocketAddress.ofText? text = none) : ¬ peer.Dialable := by
    intro dialable
    rcases Peer.dialable_iff.mp dialable with ⟨target, found⟩
    rw [spelled, unreadable] at found
    cases found
  refine ⟨dialable_everywhere, ⟨_, rfl, ?_⟩, ?_⟩
  · exact lost _ "nowhere:7001" rfl (by cbv)
  · exact lost _ "nowhere:7000" rfl (by cbv)

end Overlay

end LedgerNode
