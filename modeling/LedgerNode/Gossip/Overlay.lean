import LedgerNode.Digest.Sha256
import LedgerNode.Gossip.Frame
import LedgerNode.Gossip.Message
import LedgerNode.Net.Network
import LedgerNode.Peer.Registry

namespace LedgerNode

/-!
# The overlay

Nodes that introduced themselves to each other form a net, over which they
flood messages.  A node passes a message on when it sees it for the first
time, to all connected peers but the one it came from and the one who
published it.

A node answers the introduction of a stranger by its own.  It does not answer
somebody whom it has dialled itself, or whom it knows already.

A node remembers the ids of the messages it has seen last, so that it takes
each of them once.  The window has room for a fixed number of ids.  When it is
full, a new id drives out the oldest one.  Meeting an id again does not make
it younger.
-/

/-! ## Seen messages -/

/-- How many ids a node remembers. -/
def seenCapacity : Nat := 4096

/-- The ids that were recorded last, newest first. -/
structure SeenWindow where
  ids : List String
  bounded : ids.length ≤ seenCapacity
  distinct : ids.Nodup

namespace SeenWindow

/-- The window before any message. -/
def empty : SeenWindow := ⟨[], Nat.zero_le _, .nil⟩

def contains (window : SeenWindow) (id : String) : Bool := window.ids.contains id

/-- Record an id that is not remembered. -/
def push (window : SeenWindow) (id : String) (fresh : id ∉ window.ids) : SeenWindow where
  ids := (id :: window.ids).take seenCapacity
  bounded := List.length_take_le ..
  distinct := (List.nodup_cons.mpr ⟨fresh, window.distinct⟩).sublist (List.take_sublist ..)

/-- Record an id.  The answer tells whether it was not remembered. -/
def record (window : SeenWindow) (id : String) : Bool × SeenWindow :=
  if known : id ∈ window.ids then (false, window) else (true, window.push id known)

end SeenWindow

/-! ## The state of a node -/

/-- A frame that was handed to the network. -/
structure Posting where
  target : SocketAddress
  frame : Frame
deriving DecidableEq

/-- The state of a node in the net. -/
structure Overlay where
  registry : Registry
  seen : SeenWindow
  /-- The messages that wait on each topic that the node listens to. -/
  topics : OrderedMap String (List Message)
  /-- The addresses to which the node has introduced itself and that have not
  answered. -/
  dialled : List String
  /-- The number of messages that the node has published. -/
  published : UInt64
  /-- The frames sent so far, oldest first. -/
  sent : List Posting

/-- An action of a node in the net. -/
abbrev OverlayAction := ExceptT Fault (StateM Overlay)

namespace Overlay

/-- The state of a node that has just begun to listen at a port. -/
def start (registry : Registry) (port : UInt16) : Overlay where
  registry := { registry with own := { registry.own with port } }
  seen := .empty
  topics := ∅
  dialled := []
  published := 0
  sent := []

/-- The id of a message: the digest of the origin's id, of the eight bytes of
the message's number, and of what it carries. -/
def messageId (origin : String) (number : UInt64) (data : Bytes) : String :=
  Hex.lower
    (Sha256.digest (Bytes.ofText origin ++ Bytes.bigEndian 8 number.toNat ++ data))

def modifyRegistry (change : Registry → Registry) : OverlayAction Unit :=
  modify fun overlay => { overlay with registry := change overlay.registry }

/-- Put a peer in place of what was known of it. -/
def upsert (peer : Peer) : OverlayAction Bool :=
  modifyGet fun overlay =>
    let (isNew, registry) := overlay.registry.upsert peer
    (isNew, { overlay with registry })

/-- Send a frame over a connection of its own. -/
def send (network : Network) (target : SocketAddress) (frame : Frame) :
    OverlayAction Unit := do
  ExceptT.mk (pure (network.connect target))
  modify fun overlay => { overlay with sent := overlay.sent ++ [⟨target, frame⟩] }

/-! ## Introductions -/

/-- Learn the node's own address from somebody who sees it, unless the node
has one. -/
def learnAddress (observedAddress : Option String) (own : Peer) : Peer :=
  match observedAddress with
  | some address => if own.hasUnspecifiedAddress then { own with address } else own
  | none => own

/-- The sender of an introduction.  One who says no address of its own is
found where the connection comes from. -/
def introduced (peer : Peer) (source : IpAddress) : Peer :=
  { peer with
    address := if peer.hasUnspecifiedAddress then source.text else peer.address
    connected := true }

/-- Answer a stranger who introduced itself. -/
def welcome (network : Network) (peer : Peer) (source : IpAddress) : OverlayAction Unit := do
  let target ← ExceptT.mk (pure peer.socketAddress)
  let _ ← upsert { peer with direction := .inbound }
  let overlay ← get
  send network target (.hello overlay.registry.own (some source.text))

/-- Take an introduction. -/
def handleHello (network : Network) (peer : Peer) (observedAddress : Option String)
    (source : IpAddress) : OverlayAction Unit := do
  modifyRegistry fun registry =>
    { registry with own := learnAddress observedAddress registry.own }
  let peer := introduced peer source
  let overlay ← get
  match overlay.registry.get? peer.id with
  | some known => do let _ ← upsert { peer with direction := known.direction }
  | none =>
    if peer.endpoint ∈ overlay.dialled then
      modify fun overlay =>
        { overlay with dialled := overlay.dialled.filter (· != peer.endpoint) }
      let _ ← upsert { peer with direction := .outbound }
    else welcome network peer source

/-- Introduce the node at an address. -/
def connect (network : Network) (address : String) : OverlayAction Unit := do
  match network.lookup address with
  | .error fault => throw (.network (.invalidAddress address fault))
  | .ok addresses =>
    match addresses.find? (·.isV4) with
    | none => throw (.network (.noIpv4 address))
    | some target =>
      modify fun overlay =>
        { overlay with dialled := target.text :: overlay.dialled.filter (· != target.text) }
      let overlay ← get
      send network target (.hello overlay.registry.own none)

/-! ## Messages -/

/-- Send a frame to a peer.  A peer that cannot be reached counts as
disconnected.  The answer tells whether it was reached. -/
def deliverTo (network : Network) (frame : Frame) (peer : Peer) : OverlayAction Bool :=
  tryCatch
    (do
      let target ← ExceptT.mk (pure peer.socketAddress)
      send network target frame
      return true)
    fun _ => do
      modifyRegistry (·.setConnected peer.id false)
      return false

/-- Send a frame to every connected peer but some.  The answer tells how many
peers were tried, and how many of them were reached. -/
def broadcast (network : Network) (frame : Frame) (except : List String) :
    OverlayAction (Nat × Nat) := do
  let overlay ← get
  let targets := overlay.registry.connected.filter fun peer => !except.contains peer.id
  let outcomes ← targets.mapM (deliverTo network frame)
  return (targets.length, outcomes.count true)

/-- Record the id of a message.  The answer tells whether it was unknown. -/
def record (messageId : String) : OverlayAction Bool :=
  modifyGet fun overlay =>
    let (isNew, seen) := overlay.seen.record messageId
    (isNew, { overlay with seen })

/-- Put a message into the queue of its topic, if the node listens to it. -/
def deliver (topic : String) (message : Message) : OverlayAction Unit :=
  modify fun overlay =>
    { overlay with topics := overlay.topics.modify topic (· ++ [message]) }

/-- Take a message from another node, and pass it on if it is new. -/
def handlePublish (network : Network) (topic messageId origin sender : String)
    (data : Bytes) : OverlayAction Unit := do
  if ← record messageId then
    modifyRegistry (·.setConnected sender true)
    deliver topic ⟨origin, sender, data⟩
    let overlay ← get
    let frame := .publish topic messageId origin overlay.registry.id data
    let _ ← broadcast network frame [sender, origin]

/-- Publish a message of this node. -/
def publish (network : Network) (topic : String) (data : Bytes) : OverlayAction Unit := do
  let overlay ← get
  let origin := overlay.registry.id
  let id := messageId origin overlay.published data
  set { overlay with published := overlay.published + 1 }
  let _ ← record id
  let (attempted, reached) ← broadcast network (.publish topic id origin origin data) []
  if 0 < attempted ∧ reached = 0 then
    throw (.network (.noPeerReached attempted topic))

/-! ## Topics -/

def join (topic : String) : OverlayAction Unit := do
  let overlay ← get
  if overlay.topics.contains topic then throw (.network (.alreadyJoined topic))
  else set { overlay with topics := overlay.topics.insert topic [] }

/-- Listen to a topic no longer.  The answer tells whether the node did. -/
def leave (topic : String) : OverlayAction Bool :=
  modifyGet fun overlay =>
    (overlay.topics.contains topic, { overlay with topics := overlay.topics.erase topic })

def take (topic : String) : OverlayAction (Option Message) :=
  modifyGet fun overlay =>
    match overlay.topics.get? topic with
    | some (message :: rest) =>
      (some message, { overlay with topics := overlay.topics.insert topic rest })
    | _ => (none, overlay)

def takeAll (topic : String) : OverlayAction (List Message) :=
  modifyGet fun overlay =>
    match overlay.topics.get? topic with
    | some messages => (messages, { overlay with topics := overlay.topics.insert topic [] })
    | none => ([], overlay)

/-! ## Connections -/

/-- Take a frame that came over a connection. -/
def handleFrame (network : Network) (source : IpAddress) : Frame → OverlayAction Unit
  | .hello peer observedAddress => handleHello network peer observedAddress source
  | .publish topic messageId origin sender data =>
    handlePublish network topic messageId origin sender data

/-- Take the frames of a connection one after another.  A frame that fails
does not keep the next one from being taken; bytes that are no frame do. -/
def handleConnection (network : Network) (source : IpAddress) (bytes : Bytes) :
    OverlayAction Unit := do
  let (frames, complete) := Frame.readAll bytes
  frames.forM fun frame =>
    tryCatch (handleFrame network source frame) fun _ => return ()
  if complete then return () else throw (.decode (.malformedDocument "frame"))

/-- Take and forget the record of the frames sent. -/
def takeSent : OverlayAction (List Posting) :=
  modifyGet fun overlay => (overlay.sent, { overlay with sent := [] })

end Overlay

end LedgerNode
