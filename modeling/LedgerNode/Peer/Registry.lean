import LedgerNode.Store.Layout

namespace LedgerNode

/-!
# The peers of a node

A registry holds the node's own descriptor and one record for each other node
that it knows, by id.  It never lists the node itself.  It can be saved into
the store as a whole, and the next run starts from what was saved; then nobody
is connected.
-/

/-- What a node knows about itself and about others. -/
structure Registry where
  own : Peer
  peers : OrderedMap String Peer
deriving DecidableEq

namespace Registry

/-- The registry of a node that knows nobody. -/
def ofOwn (own : Peer) : Registry := ⟨own, ∅⟩

def id (registry : Registry) : String := registry.own.id

/-- Put a peer in place of what was known of it.  The answer tells whether it
was unknown.  The node itself is left out. -/
def upsert (registry : Registry) (peer : Peer) : Bool × Registry :=
  if peer.id = registry.id then (false, registry)
  else
    (!registry.peers.contains peer.id,
      { registry with peers := registry.peers.insert peer.id peer })

/-- Put several peers in place, one after another. -/
def upsertAll (registry : Registry) (peers : List Peer) : Registry :=
  peers.foldl (fun registry peer => (registry.upsert peer).2) registry

def get? (registry : Registry) (id : String) : Option Peer := registry.peers.get? id

/-- Whether a peer is known. -/
def contains (registry : Registry) (id : String) : Bool := registry.peers.contains id

/-- Note whether a peer is connected, if it is known. -/
def setConnected (registry : Registry) (id : String) (connected : Bool) : Registry :=
  { registry with peers := registry.peers.modify id fun peer => { peer with connected } }

/-- Every known peer in the order of the ids. -/
def all (registry : Registry) : List Peer := registry.peers.values

/-- The connected peers in the order of the ids. -/
def connected (registry : Registry) : List Peer := registry.all.filter (·.connected)

/-- The peers of some modes in the order of the ids. -/
def withModes (registry : Registry) (modes : List NodeMode) : List Peer :=
  registry.all.filter fun peer => modes.contains peer.mode

/-- Whether a peer can be found under a text, with or without its port. -/
def isAt (text : String) (peer : Peer) : Bool :=
  peer.address == text || peer.endpoint == text

/-- The peers that can be found under a text, in the order of the ids. -/
def findAt (registry : Registry) (text : String) : List Peer :=
  registry.all.filter (isAt text)

/-- How many peers are known. -/
def size (registry : Registry) : Nat := registry.peers.size

/-- Save the peers in place of everything that was saved before.  The answer
tells how many there are. -/
def save (registry : Registry) : StoreAction Nat := do
  let oldKeys ← RecordStore.peers.keys
  let cleared := oldKeys.foldl Batch.delete (Batch.ofStore RecordStore.peers)
  let batch := registry.all.foldl (fun batch peer => batch.put (StoreKey.peer peer) peer)
    cleared
  batch.commit
  return registry.all.length

/-- Put saved peers in place, one after another.  The answer tells how many of
them were unknown. -/
def restore (registry : Registry) : List Peer → Nat × Registry
  | [] => (0, registry)
  | peer :: rest =>
    let (isNew, registry) := registry.upsert { peer with connected := false }
    let (others, registry) := registry.restore rest
    (isNew.toNat + others, registry)

/-- Put all saved peers in place.  The answer tells how many of them were
unknown. -/
def load (registry : Registry) : StoreAction (Nat × Registry) := do
  return registry.restore (← RecordStore.peers.values)

end Registry

end LedgerNode
