import LedgerNode.Gossip.Overlay
import LedgerNode.Proofs.Action
import LedgerNode.Proofs.Peer.Registry

namespace LedgerNode

/-!
# What a node does in the net

Where all connected peers can be reached, publishing a message and taking one
succeed, and a node afterwards is described by equations: what it has seen, whom
it knows, what waits on its topics, and which frames it has sent.
-/

/-- Whether a peer answers at an address when it is dialled. -/
def Network.Reaches (network : Network) (peer : Peer) (target : SocketAddress) : Prop :=
  peer.socketAddress = .ok target ∧ network.connect target = .ok ()

namespace SeenWindow

/-- While there is room, nothing is driven out. -/
theorem ids_push {window : SeenWindow} {id : String} (fresh : id ∉ window.ids)
    (room : window.ids.length < seenCapacity) :
    (window.push id fresh).ids = id :: window.ids :=
  List.take_of_length_le room

theorem record_of_mem {window : SeenWindow} {id : String} (known : id ∈ window.ids) :
    window.record id = (false, window) := dif_pos known

theorem record_of_fresh {window : SeenWindow} {id : String} (fresh : id ∉ window.ids) :
    window.record id = (true, window.push id fresh) := dif_neg fresh

end SeenWindow

/-! ## Actions that succeed -/

namespace OverlayAction

variable {First Second : Type} {overlay next : Overlay} {action : OverlayAction First}
  {value : First}

/-- After an action that succeeds, the next one goes on from its answer. -/
theorem run_bind (performed : action.run.run overlay = (.ok value, next))
    (rest : First → OverlayAction Second) :
    (action >>= rest).run.run overlay = (rest value).run.run next :=
  Action.run_bind performed rest

/-- An action that succeeds needs no handler. -/
theorem run_tryCatch (performed : action.run.run overlay = (.ok value, next))
    (handler : Fault → OverlayAction First) :
    (tryCatch action handler).run.run overlay = (.ok value, next) :=
  Action.run_tryCatch performed handler

end OverlayAction

namespace Overlay

variable {network : Network} {overlay : Overlay} {topic id : String} {data : Bytes}

/-- The messages that wait on a topic. -/
def queue (overlay : Overlay) (topic : String) : List Message :=
  (overlay.topics.get? topic).getD []

/-- The frames that go out when a frame is sent to each of some peers. -/
def postings (frame : Frame) (peers : List Peer) : List Posting :=
  peers.filterMap fun peer => peer.socketAddress.toOption.map (⟨·, frame⟩)

/-- The connected peers but some. -/
def others (overlay : Overlay) (except : List String) : List Peer :=
  overlay.registry.connected.filter fun peer => !except.contains peer.id

/-- The node after it has sent a frame to all connected peers but some. -/
def flood (overlay : Overlay) (frame : Frame) (except : List String) : Overlay :=
  { overlay with sent := overlay.sent ++ postings frame (overlay.others except) }

/-! ## Sending -/

theorem run_send {target : SocketAddress} (connects : network.connect target = .ok ())
    (frame : Frame) :
    (send network target frame).run.run overlay =
      (.ok (), { overlay with sent := overlay.sent ++ [⟨target, frame⟩] }) := by
  rw [send.eq_def, connects]
  rfl

theorem run_deliverTo {peer : Peer} {target : SocketAddress}
    (reached : network.Reaches peer target) (frame : Frame) :
    (deliverTo network frame peer).run.run overlay =
      (.ok true, { overlay with sent := overlay.sent ++ [⟨target, frame⟩] }) := by
  rw [deliverTo, reached.1]
  apply OverlayAction.run_tryCatch
  exact OverlayAction.run_bind (run_send reached.2 frame) _

theorem run_mapM_deliverTo {peers : List Peer}
    (reached : ∀ peer ∈ peers, ∃ target, network.Reaches peer target) (frame : Frame) :
    (peers.mapM (deliverTo network frame)).run.run overlay =
      (.ok (peers.map fun _ => true),
        { overlay with sent := overlay.sent ++ postings frame peers }) := by
  induction peers generalizing overlay with
  | nil =>
      rw [postings, List.filterMap_nil, List.append_nil]
      rfl
  | cons peer rest ih =>
      rcases List.forall_mem_cons.mp reached with ⟨⟨target, here⟩, others⟩
      have located : postings frame (peer :: rest) = [⟨target, frame⟩] ++ postings frame rest := by
        simp [postings, here.1, Except.toOption]
      rw [List.mapM_cons, OverlayAction.run_bind (run_deliverTo here frame),
        OverlayAction.run_bind (ih others), located, ← List.append_assoc]
      rfl

/-- All peers are tried and reached. -/
theorem run_broadcast {except : List String}
    (reached : ∀ peer ∈ overlay.others except, ∃ target, network.Reaches peer target)
    (frame : Frame) :
    (broadcast network frame except).run.run overlay =
      (.ok ((overlay.others except).length, (overlay.others except).length),
        overlay.flood frame except) := by
  have tried : (broadcast network frame except).run.run overlay =
      (do
        let outcomes ← (overlay.others except).mapM (deliverTo network frame)
        return ((overlay.others except).length, outcomes.count true)
        : OverlayAction (Nat × Nat)).run.run overlay := rfl
  have all : ((overlay.others except).map fun _ => true).count true =
      (overlay.others except).length := by
    rw [List.map_const', List.count_replicate_self]
  rw [tried, OverlayAction.run_bind (run_mapM_deliverTo reached frame), all]
  rfl

/-! ## Messages -/

theorem run_record_of_mem (known : id ∈ overlay.seen.ids) :
    (record id).run.run overlay = (.ok false, overlay) := by
  change (Except.ok (overlay.seen.record id).1,
    { overlay with seen := (overlay.seen.record id).2 }) = _
  rw [SeenWindow.record_of_mem known]

theorem run_record_of_fresh (overlay : Overlay) (fresh : id ∉ overlay.seen.ids) :
    (record id).run.run overlay =
      (.ok true, { overlay with seen := overlay.seen.push id fresh }) := by
  change (Except.ok (overlay.seen.record id).1,
    { overlay with seen := (overlay.seen.record id).2 }) = _
  rw [SeenWindow.record_of_fresh fresh]

/-- A message that was seen before is passed over. -/
theorem run_handlePublish_of_seen {messageId origin sender : String}
    (seen : messageId ∈ overlay.seen.ids) :
    (handlePublish network topic messageId origin sender data).run.run overlay =
      (.ok (), overlay) := by
  rw [handlePublish, OverlayAction.run_bind (run_record_of_mem seen)]
  rfl

/-- What a node knows that has taken a new message and not passed it on. -/
def hearing (overlay : Overlay) (topic messageId : String) (message : Message)
    (fresh : messageId ∉ overlay.seen.ids) : Overlay :=
  { overlay with
    seen := overlay.seen.push messageId fresh
    registry := overlay.registry.setConnected message.receivedFrom true
    topics := overlay.topics.modify topic (· ++ [message]) }

/-- The message waits on its topic then, if the node listens to it. -/
theorem queue_hearing {message : Message} (fresh : id ∉ overlay.seen.ids) :
    (overlay.hearing topic id message fresh).queue topic =
      overlay.queue topic ++ if overlay.topics.contains topic then [message] else [] := by
  rw [queue, queue, hearing, OrderedMap.get?_modify, if_pos rfl]
  cases waiting : overlay.topics.get? topic with
  | none => simp [OrderedMap.contains, waiting]
  | some messages => simp [OrderedMap.contains, waiting]

theorem contains_hearing {message : Message} (fresh : id ∉ overlay.seen.ids) (other : String) :
    (overlay.hearing topic id message fresh).topics.contains other =
      overlay.topics.contains other := by
  rw [OrderedMap.contains, OrderedMap.contains, hearing, OrderedMap.get?_modify]
  split
  next same => rw [same, Option.isSome_map]
  next => rfl

/-- A new message is passed on to all connected peers but two. -/
theorem run_handlePublish_of_fresh {messageId origin sender : String}
    (fresh : messageId ∉ overlay.seen.ids)
    (reached : ∀ peer ∈ (overlay.hearing topic messageId ⟨origin, sender, data⟩ fresh).others
      [sender, origin], ∃ target, network.Reaches peer target) :
    (handlePublish network topic messageId origin sender data).run.run overlay =
      (.ok (), (overlay.hearing topic messageId ⟨origin, sender, data⟩ fresh).flood
        (.publish topic messageId origin overlay.registry.id data) [sender, origin]) := by
  have relayed : (handlePublish network topic messageId origin sender data).run.run overlay =
      (do
        let frame := .publish topic messageId origin overlay.registry.id data
        let _ ← broadcast network frame [sender, origin]
        : OverlayAction Unit).run.run
          (overlay.hearing topic messageId ⟨origin, sender, data⟩ fresh) := by
    rw [handlePublish, OverlayAction.run_bind (run_record_of_fresh overlay fresh)]
    rfl
  rw [relayed, OverlayAction.run_bind (run_broadcast reached _)]
  rfl

/-- What a node knows that is about to publish a message. -/
def publishing (overlay : Overlay) (id : String) (fresh : id ∉ overlay.seen.ids) : Overlay :=
  { overlay with published := overlay.published + 1, seen := overlay.seen.push id fresh }

/-- The id of the next message of a node. -/
def nextId (overlay : Overlay) (data : Bytes) : String :=
  messageId overlay.registry.id overlay.published data

/-- A message that the node publishes goes to all connected peers. -/
theorem run_publish (topic : String) (fresh : overlay.nextId data ∉ overlay.seen.ids)
    (reached : ∀ peer ∈ (overlay.publishing _ fresh).others [],
      ∃ target, network.Reaches peer target) :
    (publish network topic data).run.run overlay =
      (.ok (), (overlay.publishing _ fresh).flood
        (.publish topic (overlay.nextId data) overlay.registry.id overlay.registry.id data)
        []) := by
  have recorded : (record (overlay.nextId data)).run.run
        { overlay with published := overlay.published + 1 } =
      (.ok true, overlay.publishing _ fresh) :=
    run_record_of_fresh { overlay with published := overlay.published + 1 } fresh
  have sent : (publish network topic data).run.run overlay =
      (do
        let _ ← record (overlay.nextId data)
        let own := overlay.registry.id
        let frame := .publish topic (overlay.nextId data) own own data
        let sends ← broadcast network frame []
        if 0 < sends.1 ∧ sends.2 = 0 then
          throw (.network (.noPeerReached sends.1 topic))
        : OverlayAction Unit).run.run { overlay with published := overlay.published + 1 } := rfl
  have not_lost (tried : Nat) : ¬(0 < tried ∧ tried = 0) := by omega
  rw [sent, OverlayAction.run_bind recorded, OverlayAction.run_bind (run_broadcast reached _)]
  simp only [if_neg (not_lost _)]
  rfl

/-! ## Introductions -/

/-- Somebody whom the node neither knows nor has dialled. -/
def Stranger (overlay : Overlay) (peer : Peer) : Prop :=
  overlay.registry.get? peer.id = none ∧ peer.endpoint ∉ overlay.dialled

/-- What a node has become to whom a peer has introduced itself: it holds the peer as
connected, and has sent some frames. -/
structure Met (overlay next : Overlay) (id : String) (outgoing : List Posting) : Prop where
  own : next.registry.id = overlay.registry.id
  holds : next.registry.Holds id
  sent : next.sent = overlay.sent ++ outgoing

theorem Met.of_upsert {middle next : Overlay} {peer : Peer} {outgoing : List Posting}
    (put : next.registry = (middle.registry.upsert peer).2)
    (same : middle.registry.id = overlay.registry.id) (named : peer.id = id)
    (foreign : id ≠ overlay.registry.id) (connected : peer.connected = true)
    (sent : next.sent = overlay.sent ++ outgoing) : Met overlay next id outgoing := by
  subst named
  refine ⟨?_, ⟨peer, ?_, connected⟩, sent⟩
  · rw [put, Registry.id_upsert, same]
  · rw [put]
    exact middle.registry.get?_upsert_self (same ▸ foreign)

/-- An introduction reaches whoever can be looked up and dialled. -/
theorem run_connect (overlay : Overlay) {text : String} {addresses : List SocketAddress}
    {target : SocketAddress} (known : network.lookup text = .ok addresses)
    (first : addresses.find? (·.isV4) = some target)
    (connects : network.connect target = .ok ()) :
    (connect network text).run.run overlay =
      (.ok (),
        { overlay with
          dialled := target.text :: overlay.dialled.filter (· != target.text)
          sent := overlay.sent ++ [⟨target, .hello overlay.registry.own none⟩] }) := by
  rw [connect, known]
  dsimp only
  rw [first]
  exact run_send connects _

theorem learnAddress_id (observedAddress : Option String) (own : Peer) :
    (learnAddress observedAddress own).id = own.id := by
  unfold learnAddress
  split
  next => split <;> rfl
  next => rfl

/-- What a node knows that has learned its own address. -/
def learning (overlay : Overlay) (observedAddress : Option String) : Overlay :=
  { overlay with
    registry := { overlay.registry with own := learnAddress observedAddress overlay.registry.own } }

theorem id_learning (observedAddress : Option String) :
    (overlay.learning observedAddress).registry.id = overlay.registry.id :=
  learnAddress_id _ _

theorem run_welcome {peer : Peer} {target : SocketAddress} (reached : network.Reaches peer target)
    (source : IpAddress) :
    (welcome network peer source).run.run overlay =
      (.ok (),
        { overlay with
          registry := (overlay.registry.upsert { peer with direction := .inbound }).2
          sent := overlay.sent ++
            [⟨target, .hello (overlay.registry.upsert { peer with direction := .inbound }).2.own
              (some source.text)⟩] }) := by
  rw [welcome, reached.1]
  exact run_send reached.2 _

section Hello

variable {peer : Peer} {source : IpAddress} (observedAddress : Option String)

/-- First of all the node learns its own address. -/
theorem run_handleHello :
    (handleHello network peer observedAddress source).run.run overlay =
      (match overlay.registry.get? peer.id with
        | some known => do
          let _ ← upsert { introduced peer source with direction := known.direction }
        | none =>
          if (introduced peer source).endpoint ∈ overlay.dialled then do
            modify fun overlay =>
              { overlay with
                dialled := overlay.dialled.filter (· != (introduced peer source).endpoint) }
            let _ ← upsert { introduced peer source with direction := .outbound }
          else welcome network (introduced peer source) source
        : OverlayAction Unit).run.run (overlay.learning observedAddress) := rfl

/-- A node does not answer an acquaintance. -/
theorem handleHello_of_acquainted (foreign : peer.id ≠ overlay.registry.id)
    (acquainted : ¬overlay.Stranger (introduced peer source)) :
    ∃ next, (handleHello network peer observedAddress source).run.run overlay = (.ok (), next) ∧
      Met overlay next peer.id [] := by
  have same : (overlay.learning observedAddress).registry.id = overlay.registry.id :=
    id_learning observedAddress
  have silent : overlay.sent = overlay.sent ++ [] := (List.append_nil _).symm
  rw [run_handleHello]
  cases known : overlay.registry.get? peer.id with
  | some old => exact ⟨_, rfl, Met.of_upsert rfl same rfl foreign rfl silent⟩
  | none =>
      dsimp only
      split
      next => exact ⟨_, rfl, Met.of_upsert rfl same rfl foreign rfl silent⟩
      next missing => exact absurd ⟨known, missing⟩ acquainted

/-- It answers a stranger. -/
theorem handleHello_of_stranger (foreign : peer.id ≠ overlay.registry.id)
    (stranger : overlay.Stranger (introduced peer source)) {target : SocketAddress}
    (reached : network.Reaches (introduced peer source) target) :
    ∃ next, (handleHello network peer observedAddress source).run.run overlay = (.ok (), next) ∧
      Met overlay next peer.id
        [⟨target, .hello (learnAddress observedAddress overlay.registry.own)
          (some source.text)⟩] := by
  have same : (overlay.learning observedAddress).registry.id = overlay.registry.id :=
    id_learning observedAddress
  have unknown : overlay.registry.get? peer.id = none := stranger.1
  rw [run_handleHello, unknown]
  dsimp only
  rw [if_neg stranger.2, run_welcome reached, Registry.own_upsert]
  exact ⟨_, rfl, Met.of_upsert rfl same rfl foreign rfl rfl⟩

end Hello

end Overlay

end LedgerNode
