import LedgerNode.Gossip.Message
import LedgerNode.OrderedMap

namespace LedgerNode

/-!
# Topics inside one process

A hub connects subscribers that live in one process.  Each subscription is the
receiving end of a channel of its own, and for each topic the hub lists the
sending ends of those who joined it.  A publication is sent to everyone on the
list of its topic, the publisher included.

Whoever ends a subscription does not tell the hub.  He is struck off the list
when the next message cannot be sent to him.
-/

/-- A place to publish from and to receive at. -/
structure Subscription where
  topic : String
  id : String
  waiting : List Message
deriving DecidableEq

/-- Put a message behind those that wait. -/
def Subscription.put (message : Message) (subscription : Subscription) : Subscription :=
  { subscription with waiting := subscription.waiting ++ [message] }

/-- A sending end of a channel, with the id of the one who receives. -/
structure Subscriber where
  id : String
  number : Nat
deriving DecidableEq

/-- The channels of a hub have numbers, and no number is used twice. -/
structure Hub where
  /-- The number of the next channel. -/
  next : Nat
  /-- Those who joined a topic, in their order. -/
  subscribers : OrderedMap String (List Subscriber)
  /-- The subscriptions that have not ended. -/
  subscriptions : OrderedMap Nat Subscription

namespace Hub

/-- The hub without subscriptions. -/
def empty : Hub := ⟨0, ∅, ∅⟩

/-- The list of a topic. -/
def listed (hub : Hub) (topic : String) : List Subscriber :=
  (hub.subscribers.get? topic).getD []

/-- Subscribe to a topic.  The answer is the number of the subscription. -/
def join (hub : Hub) (topic id : String) : Nat × Hub :=
  (hub.next,
    { next := hub.next + 1
      subscribers := hub.subscribers.insert topic (hub.listed topic ++ [⟨id, hub.next⟩])
      subscriptions := hub.subscriptions.insert hub.next ⟨topic, id, []⟩ })

/-- Send a message through a channel.  The answer tells whether there was
anyone to receive it. -/
def send (hub : Hub) (number : Nat) (message : Message) : Bool × Hub :=
  match hub.subscriptions.get? number with
  | some subscription =>
    let subscriptions := hub.subscriptions.insert number (subscription.put message)
    (true, { hub with subscriptions })
  | none => (false, hub)

/-- Send a message to one after another, and keep those who can receive it. -/
def sendAll (hub : Hub) (message : Message) : List Subscriber → List Subscriber × Hub
  | [] => ([], hub)
  | subscriber :: rest =>
    let (taken, hub) := hub.send subscriber.number message
    let (kept, hub) := hub.sendAll message rest
    (if taken then subscriber :: kept else kept, hub)

/-- Send a message to everyone on the list of a topic, and strike off those who
have gone. -/
def deliver (hub : Hub) (topic : String) (message : Message) : Hub :=
  match hub.subscribers.get? topic with
  | some listed =>
    let (kept, hub) := hub.sendAll message listed
    { hub with subscribers := hub.subscribers.insert topic kept }
  | none => hub

def publish (hub : Hub) (number : Nat) (data : Bytes) : Hub :=
  match hub.subscriptions.get? number with
  | some publisher => hub.deliver publisher.topic ⟨publisher.id, publisher.id, data⟩
  | none => hub

/-- Whether anything can still be sent through a channel. -/
def hasSender (hub : Hub) (number : Nat) : Bool :=
  hub.subscribers.values.any fun listed =>
    listed.any fun subscriber => subscriber.number == number

/-- Take the next message that waits at a subscription.  If nothing waits, and
nothing can come any more, the subscription is closed. -/
def nextMessage (hub : Hub) (number : Nat) : Except Fault (Option Message) × Hub :=
  match hub.subscriptions.get? number with
  | some subscription =>
    match subscription.waiting with
    | message :: waiting =>
      let subscriptions := hub.subscriptions.insert number { subscription with waiting }
      (.ok (some message), { hub with subscriptions })
    | [] =>
      if hub.hasSender number then (.ok none, hub)
      else (.error (.network (.subscriptionClosed subscription.topic)), hub)
  | none => (.ok none, hub)

/-- The next message at a subscription, for those who do not ask why there is
none. -/
def take (hub : Hub) (number : Nat) : Option Message × Hub :=
  let (outcome, hub) := hub.nextMessage number
  (outcome.toOption.join, hub)

/-- End a subscription.  The answer tells whether there was one. -/
def leave (hub : Hub) (number : Nat) : Bool × Hub :=
  (hub.subscriptions.contains number,
    { hub with subscriptions := hub.subscriptions.erase number })

def topic? (hub : Hub) (number : Nat) : Option String :=
  (hub.subscriptions.get? number).map (·.topic)

end Hub

end LedgerNode
