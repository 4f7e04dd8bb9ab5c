import Mathlib.Data.List.Induction
import LedgerNode.Proofs.Gossip.Echo

namespace LedgerNode

/-!
# A node among others, whatever they do

Frames come in from anywhere, and the node makes calls of its own, in any order.
The network around it is another one each time, so that a peer that was reached
once need not be reached again.

Sending tries every peer.  Those that were reached get the frame, and the others
count as disconnected.  An introduction changes at most one record, and the record
tells by which of three ways it came in: the id was known, the endpoint had been
dialled, or the endpoint was found to be an address.
-/

/-- Whether a peer has an address that answers. -/
def Network.answers (network : Network) (peer : Peer) : Bool :=
  match peer.socketAddress with
  | .ok target => (network.dial target).isNone
  | .error _ => false

/-- Some peers are noted as disconnected. -/
def Registry.disconnect (registry : Registry) (peers : List Peer) : Registry :=
  peers.foldl (fun registry peer => registry.setConnected peer.id false) registry

namespace Overlay

/-! ## Runs -/

/-- What happens to a node in the net. -/
inductive Event where
  | frame (source : IpAddress) (frame : Frame)
  | connect (address : String)
  | publish (topic : String) (data : Bytes)
  | join (topic : String)
  | leave (topic : String)
  | takeAll (topic : String)

/-- What happens, and what surrounds the node at that time. -/
structure Happening where
  network : Network
  event : Event

def Event.perform (network : Network) : Event → OverlayAction Unit
  | .frame source content => handleFrame network source content
  | .connect address => Overlay.connect network address
  | .publish topic data => Overlay.publish network topic data
  | .join topic => Overlay.join topic
  | .leave topic => do let _ ← Overlay.leave topic
  | .takeAll topic => do let _ ← Overlay.takeAll topic

def step (overlay : Overlay) (happening : Happening) : Overlay :=
  ((happening.event.perform happening.network).run.run overlay).2

def run (overlay : Overlay) (happenings : List Happening) : Overlay :=
  happenings.foldl step overlay

theorem run_append (overlay : Overlay) (first second : List Happening) :
    overlay.run (first ++ second) = (overlay.run first).run second :=
  List.foldl_append

/-- A fact about all that has happened that everything that happens keeps. -/
theorem run_keeps {Holds : List Happening → Overlay → Prop} {overlay : Overlay}
    (first : Holds [] overlay)
    (next : ∀ past happening, Holds past (overlay.run past) →
      Holds (past ++ [happening]) ((overlay.run past).step happening))
    (happenings : List Happening) : Holds happenings (overlay.run happenings) := by
  induction happenings using List.reverseRecOn with
  | nil => exact first
  | append_singleton past happening ih =>
      rw [run_append]
      exact next past happening ih

/-! ## Sending -/

variable {network : Network} {overlay : Overlay}

/-- The node after it has tried to send a frame to some peers. -/
def spread (network : Network) (overlay : Overlay) (frame : Frame) (peers : List Peer) :
    Overlay :=
  { overlay with
    registry := overlay.registry.disconnect (peers.filter (!network.answers ·))
    sent := overlay.sent ++ postings frame (peers.filter network.answers) }

theorem postings_append (frame : Frame) (first second : List Peer) :
    postings frame (first ++ second) = postings frame first ++ postings frame second :=
  List.filterMap_append

theorem spread_spread (frame : Frame) (first second : List Peer) :
    (overlay.spread network frame first).spread network frame second =
      overlay.spread network frame (first ++ second) := by
  simp only [spread, List.filter_append, postings_append, Registry.disconnect, List.foldl_append,
    List.append_assoc]

/-- A peer that does not answer counts as disconnected. -/
theorem run_deliverTo_of_fault {peer : Peer} {fault : Fault} (frame : Frame)
    (failed : (do
      let target ← ExceptT.mk (pure peer.socketAddress)
      send network target frame
      return true : OverlayAction Bool).run.run overlay = (.error fault, overlay)) :
    (deliverTo network frame peer).run.run overlay =
      (.ok false, { overlay with registry := overlay.registry.setConnected peer.id false }) := by
  rw [deliverTo, Action.run_tryCatch_error failed]
  rfl

theorem run_deliverTo_spread (network : Network) (overlay : Overlay) (frame : Frame)
    (peer : Peer) :
    (deliverTo network frame peer).run.run overlay =
      (.ok (network.answers peer), overlay.spread network frame [peer]) := by
  have silent (alone : network.answers peer = false) : overlay.spread network frame [peer] =
      { overlay with registry := overlay.registry.setConnected peer.id false } := by
    simp [spread, alone, postings, Registry.disconnect]
  cases located : peer.socketAddress with
  | error fault =>
      have alone : network.answers peer = false := by
        rw [Network.answers, located]
      rw [silent alone, alone, run_deliverTo_of_fault frame (by rw [located]; rfl)]
  | ok target =>
      cases dialled : network.dial target with
      | none =>
          have connects : network.connect target = .ok () := by
            rw [Network.connect, dialled]
          have answers : network.answers peer = true := by
            rw [Network.answers, located]
            simp [dialled]
          have sends : postings frame [peer] = [⟨target, frame⟩] := by
            simp [postings, located, Except.toOption]
          rw [run_deliverTo ⟨located, connects⟩, spread]
          simp [answers, sends, Registry.disconnect]
      | some fault =>
          have refused : network.connect target = .error
              (.network (.cannotConnect target.text fault)) := by
            rw [Network.connect, dialled]
          have alone : network.answers peer = false := by
            rw [Network.answers, located]
            simp [dialled]
          rw [silent alone, alone, run_deliverTo_of_fault frame]
          rw [located]
          exact Action.run_bind_error (run_send_of_fault refused frame) _

theorem run_mapM_deliverTo_spread (network : Network) (overlay : Overlay) (frame : Frame)
    (peers : List Peer) :
    (peers.mapM (deliverTo network frame)).run.run overlay =
      (.ok (peers.map network.answers), overlay.spread network frame peers) := by
  induction peers generalizing overlay with
  | nil =>
      rw [spread, List.filter_nil, List.filter_nil, postings, List.filterMap_nil, List.append_nil]
      rfl
  | cons peer rest ih =>
      rw [List.mapM_cons, OverlayAction.run_bind (run_deliverTo_spread _ _ frame peer),
        OverlayAction.run_bind (ih _), spread_spread]
      rfl

/-- All connected peers but some are tried. -/
theorem run_broadcast_spread (network : Network) (overlay : Overlay) (frame : Frame)
    (except : List String) :
    (broadcast network frame except).run.run overlay =
      (.ok ((overlay.others except).length,
          ((overlay.others except).map network.answers).count true),
        overlay.spread network frame (overlay.others except)) := by
  have tried : (broadcast network frame except).run.run overlay =
      (do
        let outcomes ← (overlay.others except).mapM (deliverTo network frame)
        return ((overlay.others except).length, outcomes.count true)
        : OverlayAction (Nat × Nat)).run.run overlay := rfl
  rw [tried, OverlayAction.run_bind (run_mapM_deliverTo_spread network overlay frame _)]
  rfl

/-! ## Messages -/

/-- What becomes of a node that takes a new message and passes it on. -/
structure Processed (network : Network) (overlay next : Overlay) (topic messageId : String)
    (message : Message) : Prop where
  /-- The id is the youngest one that the node remembers. -/
  remembered : next.seen.ids = (messageId :: overlay.seen.ids).take seenCapacity
  /-- The message waits on its topic, if the node listens to it. -/
  delivered : next.topics = overlay.topics.modify topic (· ++ [message])
  /-- All peers that are connected now have got it, except for the one it came from,
  the one who published it, and those that do not answer. -/
  relayed : ∃ targets,
    targets = (overlay.registry.setConnected message.receivedFrom true).connected.filter
        (fun peer => !([message.receivedFrom, message.origin].contains peer.id)) ∧
      next.sent = overlay.sent ++ postings
        (.publish topic messageId message.origin overlay.registry.id message.data)
        (targets.filter network.answers) ∧
      next.registry = (overlay.registry.setConnected message.receivedFrom true).disconnect
        (targets.filter (!network.answers ·))
  dialled : next.dialled = overlay.dialled
  published : next.published = overlay.published

theorem run_handlePublish_spread {messageId : String} (fresh : messageId ∉ overlay.seen.ids)
    (network : Network) (topic origin sender : String) (data : Bytes) :
    (handlePublish network topic messageId origin sender data).run.run overlay =
      (.ok (), (overlay.hearing topic messageId ⟨origin, sender, data⟩ fresh).spread network
        (.publish topic messageId origin overlay.registry.id data)
        ((overlay.hearing topic messageId ⟨origin, sender, data⟩ fresh).others
          [sender, origin])) := by
  have relayed : (handlePublish network topic messageId origin sender data).run.run overlay =
      (do
        let frame := .publish topic messageId origin overlay.registry.id data
        let _ ← broadcast network frame [sender, origin]
        : OverlayAction Unit).run.run
          (overlay.hearing topic messageId ⟨origin, sender, data⟩ fresh) := by
    rw [handlePublish, OverlayAction.run_bind (run_record_of_fresh overlay fresh)]
    rfl
  rw [relayed, OverlayAction.run_bind (run_broadcast_spread network _ _ _)]
  rfl

theorem handlePublish_processed {messageId : String} (fresh : messageId ∉ overlay.seen.ids)
    (network : Network) (topic origin sender : String) (data : Bytes) :
    Processed network overlay
      ((handlePublish network topic messageId origin sender data).run.run overlay).2
      topic messageId ⟨origin, sender, data⟩ := by
  rw [run_handlePublish_spread fresh]
  exact ⟨rfl, rfl, ⟨_, rfl, rfl, rfl⟩, rfl, rfl⟩

/-- A node that has counted a message of its own and recorded its id, unless it is
remembered already. -/
def counting (overlay : Overlay) (data : Bytes) : Overlay :=
  { overlay with
    published := overlay.published + 1
    seen := (overlay.seen.record (overlay.nextId data)).2 }

/-- A message of the node's own is sent to all connected peers.  It is lost if there are
some and none of them answers. -/
theorem run_publish_spread (network : Network) (overlay : Overlay) (topic : String)
    (data : Bytes) :
    (publish network topic data).run.run overlay =
      (if 0 < (overlay.others []).length ∧
          ((overlay.others []).map network.answers).count true = 0 then
        .error (.network (.noPeerReached (overlay.others []).length topic))
      else .ok (),
      (overlay.counting data).spread network
        (.publish topic (overlay.nextId data) overlay.registry.id overlay.registry.id data)
        (overlay.others [])) := by
  have sends : (publish network topic data).run.run overlay =
      (do
        let own := overlay.registry.id
        let frame := .publish topic (overlay.nextId data) own own data
        let sends ← broadcast network frame []
        if 0 < sends.1 ∧ sends.2 = 0 then
          throw (.network (.noPeerReached sends.1 topic))
        : OverlayAction Unit).run.run (overlay.counting data) := rfl
  rw [sends, OverlayAction.run_bind (run_broadcast_spread network (overlay.counting data) _ _)]
  change ((if 0 < (overlay.others []).length ∧
      ((overlay.others []).map network.answers).count true = 0 then _ else _ :
      OverlayAction Unit).run.run _) = _
  split <;> rfl

theorem publish_spread (network : Network) (overlay : Overlay) (topic : String) (data : Bytes) :
    ((publish network topic data).run.run overlay).2 =
      ({ overlay with
        published := overlay.published + 1
        seen := (overlay.seen.record (overlay.nextId data)).2 } : Overlay).spread network
        (.publish topic (overlay.nextId data) overlay.registry.id overlay.registry.id data)
        (overlay.others []) :=
  congrArg Prod.snd (run_publish_spread network overlay topic data)

/-! ## Introductions -/

/-- What an introduction does to a node, whether or not it is answered. -/
structure Acquaints (overlay next : Overlay) (peer : Peer) (observedAddress : Option String)
    (source : IpAddress) : Prop where
  seen : next.seen = overlay.seen
  own : next.registry.own = learnAddress observedAddress overlay.registry.own
  dialled : next.dialled ⊆ overlay.dialled
  /-- A record that is not an old one is the caller's.  It came in because the id was
  known, because the endpoint had been dialled, or because it is an address. -/
  rows : ∀ id row, next.registry.get? id = some row → overlay.registry.get? id = some row ∨
    id = peer.id ∧ row.endpoint = (introduced peer source).endpoint ∧
      (overlay.registry.contains peer.id = true ∨ row.endpoint ∈ overlay.dialled ∨
        ∃ target, row.socketAddress = .ok target)

variable {next : Overlay} {peer : Peer} {source : IpAddress}

theorem Acquaints.of_upsert {observedAddress : Option String} (row : Peer)
    (named : row.id = peer.id) (located : row.endpoint = (introduced peer source).endpoint)
    (way : overlay.registry.contains peer.id = true ∨ row.endpoint ∈ overlay.dialled ∨
      ∃ target, row.socketAddress = .ok target)
    (put : next.registry = ((overlay.learning observedAddress).registry.upsert row).2)
    (seen : next.seen = overlay.seen) (dialled : next.dialled ⊆ overlay.dialled) :
    Acquaints overlay next peer observedAddress source where
  seen := seen
  own := by rw [put, Registry.own_upsert]; rfl
  dialled := dialled
  rows id found here := by
    rw [put] at here
    rcases Registry.get?_of_upsert _ here with before | ⟨rfl, same, _⟩
    · exact .inl before
    · exact .inr ⟨same.symm.trans named, located, way⟩

theorem acquaints_welcome (overlay : Overlay) (network : Network) (peer : Peer)
    (observedAddress : Option String) (source : IpAddress) :
    Acquaints overlay ((welcome network (introduced peer source) source).run.run
      (overlay.learning observedAddress)).2 peer observedAddress source := by
  cases located : (introduced peer source).socketAddress with
  | error fault =>
      have unchanged : ((welcome network (introduced peer source) source).run.run
          (overlay.learning observedAddress)).2 = overlay.learning observedAddress := by
        rw [welcome, located]
        rfl
      rw [unchanged]
      exact ⟨rfl, rfl, List.Subset.refl _, fun _ _ here => .inl here⟩
  | ok target =>
      let row : Peer := { introduced peer source with direction := .inbound }
      have address : ∃ target, row.socketAddress = .ok target := ⟨target, located⟩
      cases connects : network.connect target with
      | ok answered =>
          rw [run_welcome ⟨located, connects⟩]
          exact .of_upsert row rfl rfl (.inr (.inr address)) rfl rfl (List.Subset.refl _)
      | error fault =>
          have unsent : ((welcome network (introduced peer source) source).run.run
              (overlay.learning observedAddress)).2 =
              { overlay.learning observedAddress with
                registry := ((overlay.learning observedAddress).registry.upsert row).2 } := by
            rw [welcome, located]
            exact congrArg Prod.snd (run_send_of_fault connects _)
          rw [unsent]
          exact .of_upsert row rfl rfl (.inr (.inr address)) rfl rfl (List.Subset.refl _)

theorem acquaints_handleHello (overlay : Overlay) (network : Network) (peer : Peer)
    (observedAddress : Option String) (source : IpAddress) :
    Acquaints overlay ((handleHello network peer observedAddress source).run.run overlay).2
      peer observedAddress source := by
  rw [run_handleHello]
  cases known : overlay.registry.get? peer.id with
  | some old =>
      have contained : overlay.registry.contains peer.id = true :=
        OrderedMap.contains_iff.mpr ⟨old, known⟩
      exact .of_upsert { introduced peer source with direction := old.direction } rfl rfl
        (.inl contained) rfl rfl (List.Subset.refl _)
  | none =>
      dsimp only
      split
      next expected =>
        exact .of_upsert { introduced peer source with direction := .outbound } rfl rfl
          (.inr (.inl expected)) rfl rfl (List.filter_subset_self _)
      next => exact acquaints_welcome overlay network peer observedAddress source

/-- What an introduction of the node's own does to the node.  It dials addresses of
four bytes only. -/
structure Dials (overlay next : Overlay) : Prop where
  seen : next.seen = overlay.seen
  registry : next.registry = overlay.registry
  dialled : ∀ text ∈ next.dialled, text ∈ overlay.dialled ∨
    ∃ target : SocketAddress, target.isV4 = true ∧ text = target.text

theorem dials_connect (network : Network) (overlay : Overlay) (address : String) :
    Dials overlay ((connect network address).run.run overlay).2 := by
  have nothing : Dials overlay overlay := ⟨rfl, rfl, fun _ member => .inl member⟩
  cases known : network.lookup address with
  | error fault =>
      rw [connect, known]
      exact nothing
  | ok addresses =>
      cases first : addresses.find? (·.isV4) with
      | none =>
          rw [connect, known]
          dsimp only
          rw [first]
          exact nothing
      | some target =>
          have short : target.isV4 = true := List.find?_some first
          have added : ∀ text ∈ target.text :: overlay.dialled.filter (· != target.text),
              text ∈ overlay.dialled ∨
                ∃ target : SocketAddress, target.isV4 = true ∧ text = target.text := by
            intro text member
            rcases List.mem_cons.mp member with here | there
            · exact .inr ⟨target, short, here⟩
            · exact .inl (List.mem_filter.mp there).1
          cases connects : network.connect target with
          | ok answered =>
              rw [run_connect overlay known first connects]
              exact ⟨rfl, rfl, added⟩
          | error fault =>
              have sends : (connect network address).run.run overlay =
                  (send network target (.hello overlay.registry.own none)).run.run
                    { overlay with
                      dialled := target.text :: overlay.dialled.filter (· != target.text) } := by
                rw [connect, known]
                dsimp only
                rw [first]
                rfl
              rw [sends, run_send_of_fault connects]
              exact ⟨rfl, rfl, added⟩

/-! ## Topics -/

/-- Whoever joins, leaves or reads a topic changes nothing but what waits. -/
theorem topics_join (overlay : Overlay) (topic : String) :
    ∃ topics, ((join topic).run.run overlay).2 = { overlay with topics } := by
  change ∃ topics, ((if overlay.topics.contains topic = true then throw _ else set _ :
    OverlayAction Unit).run.run overlay).2 = { overlay with topics }
  split
  · exact ⟨overlay.topics, rfl⟩
  · exact ⟨_, rfl⟩

theorem topics_takeAll (overlay : Overlay) (topic : String) :
    ∃ topics, ((takeAll topic).run.run overlay).2 = { overlay with topics } := by
  rw [takeAll, Action.run_modifyGet]
  dsimp only
  split
  · exact ⟨_, rfl⟩
  · exact ⟨overlay.topics, rfl⟩

end Overlay

end LedgerNode
