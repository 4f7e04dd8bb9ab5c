import Mathlib.Data.List.Perm.Basic
import Mathlib.Logic.Function.Basic
import LedgerNode.Proofs.Gossip.Overlay

namespace LedgerNode

/-!
# A net of nodes

Several nodes act one at a time, and the frames that they send are on their way
until somebody takes them.  Any of the frames on their way may be the next one.
A frame goes to whoever listens at its target.

The net also keeps what no node could tell by itself: the frames that were taken,
the messages that were put into the queues of their topics, and the ids of all
published messages.
-/

/-- Who the nodes of a net are, and how they reach each other. -/
structure Sites (size : Nat) where
  id : Fin size → String
  distinct : Function.Injective id
  /-- What surrounds each node. -/
  network : Fin size → Network
  /-- The node that listens at an address. -/
  listener : SocketAddress → Option (Fin size)
  /-- Where the connections of a node come from. -/
  source : Fin size → IpAddress
  /-- The nodes that may come to be connected.  Whoever takes a message from a node
  is connected to it. -/
  near : Fin size → Fin size → Prop
  symmetric : ∀ node other, near node other → near other node

/-- A frame with the node that sent it. -/
structure Transit (size : Nat) where
  sender : Fin size
  posting : Posting
deriving DecidableEq

/-- A message that a node has put into the queue of its topic. -/
structure Handover (size : Nat) where
  receiver : Fin size
  messageId : String
  message : Message

/-- The state of a net. -/
structure Net (size : Nat) where
  overlays : Fin size → Overlay
  /-- The frames that are on their way. -/
  flight : List (Transit size)
  taken : List (Transit size)
  handed : List (Handover size)
  published : List String

/-- What happens in a net. -/
inductive Move (size : Nat) where
  | publish (node : Fin size) (topic : String) (data : Bytes)
  /-- The frame at a place among those on their way is taken. -/
  | deliver (index : Nat)

def Frame.messageId? : Frame → Option String
  | .hello .. => none
  | .publish _ messageId .. => some messageId

variable {size : Nat}

namespace Net

variable (sites : Sites size) (net : Net size)

/-- A node goes on in another state.  What it has sent since is on its way then. -/
def become (node : Fin size) (next : Overlay) : Net size :=
  let outgoing := next.sent.drop (net.overlays node).sent.length
  { net with
    overlays := Function.update net.overlays node next
    flight := net.flight ++ outgoing.map (Transit.mk node) }

def act (node : Fin size) (action : OverlayAction Value) : Except Fault Value × Net size :=
  let (answer, next) := action.run.run (net.overlays node)
  (answer, net.become node next)

/-- A node goes on in another state after it has met a message.  What it has put
into the queue of the topic since is the message. -/
def hear (node : Fin size) (topic messageId : String) (next : Overlay) : Net size :=
  let added := (next.queue topic).drop ((net.overlays node).queue topic).length
  { net.become node next with
    handed := net.handed ++ added.map fun message => ⟨node, messageId, message⟩ }

def actOn (node : Fin size) (topic messageId : String) (action : OverlayAction Unit) :
    Net size :=
  net.hear node topic messageId (action.run.run (net.overlays node)).2

def publish (node : Fin size) (topic : String) (data : Bytes) : Net size :=
  let id := (net.overlays node).nextId data
  let next := net.actOn node topic id (Overlay.publish (sites.network node) topic data)
  { next with published := net.published ++ [id] }

/-- A node takes a frame. -/
def take (receiver : Fin size) (transit : Transit size) : Net size :=
  let frame := transit.posting.frame
  let action := Overlay.handleFrame (sites.network receiver) (sites.source transit.sender) frame
  match frame with
  | .hello .. => (net.act receiver action).2
  | .publish topic messageId .. => net.actOn receiver topic messageId action

/-- The frame at a place is on its way no longer. -/
def withdraw (transit : Transit size) (index : Nat) : Net size :=
  { net with
    flight := net.flight.eraseIdx index
    taken := net.taken ++ [transit] }

/-- The frame at a place among those on their way goes to whoever listens at its
target.  If nobody does, it is lost. -/
def deliver (index : Nat) : Net size :=
  match net.flight[index]? with
  | none => net
  | some transit =>
    match sites.listener transit.posting.target with
    | none => net.withdraw transit index
    | some receiver => (net.withdraw transit index).take sites receiver transit

def step : Move size → Net size
  | .publish node topic data => net.publish sites node topic data
  | .deliver index => net.deliver sites index

def run (moves : List (Move size)) : Net size := moves.foldl (step sites) net

/-- Every node listens to a topic. -/
def Subscribed (topic : String) : Prop :=
  ∀ node, (net.overlays node).topics.contains topic = true

/-- A node holds another one as connected. -/
def Linked (node other : Fin size) : Prop :=
  (net.overlays node).registry.Holds (sites.id other)

/-- The frames with a message that were sent so far. -/
def copies (messageId : String) : List (Transit size) :=
  (net.flight ++ net.taken).filter fun transit => transit.posting.frame.messageId? = some messageId

/-- The messages with an id that a node has put into a queue. -/
def handedTo (node : Fin size) (messageId : String) : List Message :=
  (net.handed.filter fun handover => handover.receiver = node ∧ handover.messageId = messageId).map
    (·.message)

@[simp]
theorem become_self (node : Fin size) : net.become node (net.overlays node) = net := by
  simp [become]

@[simp]
theorem hear_self (node : Fin size) (topic messageId : String) :
    net.hear node topic messageId (net.overlays node) = net := by
  simp [hear]

variable {net}

theorem act_of_performed {node : Fin size} {action : OverlayAction Value}
    {answer : Except Fault Value} {next : Overlay}
    (performed : action.run.run (net.overlays node) = (answer, next)) :
    net.act node action = (answer, net.become node next) := by
  rw [act, performed]

variable {sites} {transit : Transit size} {index : Nat}

theorem perm_flight_withdraw (here : net.flight[index]? = some transit) :
    (transit :: (net.withdraw transit index).flight).Perm net.flight := by
  rcases List.getElem?_eq_some_iff.mp here with ⟨inside, rfl⟩
  exact List.getElem_cons_eraseIdx_perm inside

/-- Taking a frame loses none of those that were sent. -/
theorem perm_withdraw (here : net.flight[index]? = some transit) :
    ((net.withdraw transit index).flight ++ (net.withdraw transit index).taken).Perm
      (net.flight ++ net.taken) := by
  have last : (net.taken ++ [transit]).Perm (transit :: net.taken) := List.perm_append_singleton ..
  have moved := (last.append_left (net.withdraw transit index).flight).trans List.perm_middle
  exact moved.trans ((perm_flight_withdraw here).append_right net.taken)

/-- A frame that somebody takes, or nobody, is among those that were taken. -/
theorem taken_deliver (here : net.flight[index]? = some transit) :
    (net.deliver sites index).taken = net.taken ++ [transit] := by
  rw [deliver, here]
  dsimp only
  split
  next => rfl
  next =>
    rw [take]
    split <;> rfl

/-- If no more than so many frames of some kind are ever taken, there is a time when
none of them is on its way. -/
theorem exists_quiet {carries : Transit size → Bool} {Kept : Net size → Prop} {limit : Nat}
    (keeps : ∀ net index, Kept net → Kept (net.deliver sites index))
    (bound : ∀ net, Kept net → (net.taken.filter carries).length ≤ limit) (start : Kept net) :
    ∃ indices : List Nat, ∀ transit ∈ (net.run sites (indices.map .deliver)).flight,
      carries transit = false := by
  -- every such frame that is taken brings their number closer to the limit
  induction left : limit - (net.taken.filter carries).length using Nat.strongRecOn
    generalizing net with
  | ind left ih =>
  cases found : net.flight.find? carries with
  | none =>
      refine ⟨[], fun transit flying => ?_⟩
      simpa using List.find?_eq_none.mp found transit flying
  | some transit =>
      have carried : carries transit = true := List.find?_some found
      rcases List.getElem?_of_mem (List.mem_of_find?_eq_some found) with ⟨index, here⟩
      have after : Kept (net.deliver sites index) := keeps net index start
      have more : ((net.deliver sites index).taken.filter carries).length =
          (net.taken.filter carries).length + 1 := by
        rw [taken_deliver here, List.filter_append, List.length_append]
        simp [carried]
      have few := bound _ after
      rcases ih _ (by omega) after rfl with ⟨indices, quiet⟩
      exact ⟨index :: indices, quiet⟩

end Net

/-- Who sent a frame, and who takes it. -/
def Sites.route (sites : Sites size) (transit : Transit size) : Fin size × Option (Fin size) :=
  (transit.sender, sites.listener transit.posting.target)

/-! ## Three nodes in a row -/

namespace Net

/-- Where the nodes of a row listen. -/
def rowAddress (node : Fin 3) : SocketAddress := .v4 Network.loopback (7000 + .ofNat node)

/-- Three nodes on one machine. -/
def row : Sites 3 where
  id node := ["left", "middle", "right"][node]
  distinct first second := by
    revert first second
    decide
  network _ := .listeningAt [7000, 7001, 7002]
  listener address := (List.finRange 3).find? fun node => rowAddress node = address
  source _ := .v4 Network.loopback
  near _ _ := True
  symmetric _ _ _ := trivial

/-- What a node says of itself. -/
def rowPeer (node : Fin 3) : Peer := .ofAddress "127.0.0.1" (7000 + .ofNat node) (row.id node) .node

/-- What is known of a node that has introduced itself. -/
def rowKnown (node : Fin 3) : Peer := { rowPeer node with connected := true }

theorem row_reaches (node other : Fin 3) :
    (row.network node).Reaches (rowKnown other) (rowAddress other) ∧
      row.listener (rowAddress other) = some other := by
  match other with
  | 0 | 1 | 2 => exact ⟨⟨by cbv, by cbv⟩, by decide⟩

end Net

end LedgerNode
