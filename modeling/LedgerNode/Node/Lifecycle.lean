import LedgerNode.Config.Settings
import LedgerNode.Gossip.Channel
import LedgerNode.Gossip.Overlay
import LedgerNode.Ledger.Integrity
import LedgerNode.Node.Disk
import LedgerNode.Node.Producer
import LedgerNode.Peer.Directory

namespace LedgerNode

/-!
# The life of a node

A node is created, started and shut down.  Creating it opens the ledger and
checks it, and reads the key of the node.  Starting it brings up what its mode
asks for.  Shutting it down saves the peers that a directory knows and closes
the store; that happens once, whatever happened before.

Between start and shutdown the node takes connections of its peers, answers
requests to its directory and makes blocks up.  Everything that it does watches
one signal to stop.
-/

/-- Whether a node was told to stop.  Once the signal is given it stays given. -/
structure Signal where
  isGiven : Bool
deriving DecidableEq

namespace Signal

/-- The signal of a node that was not told to stop. -/
def quiet : Signal := ⟨false⟩

/-- Give the signal.  The answer tells whether it was the first time. -/
def give (signal : Signal) : Bool × Signal := (!signal.isGiven, ⟨true⟩)

end Signal

/-- Why a node stopped by itself. -/
inductive NodeFailure where
  | cannotJoin (topic : String) (fault : Fault)
  | productionFailed (fault : Fault)
deriving DecidableEq

/-- Why a node stopped by itself, in words. -/
def NodeFailure.message : NodeFailure → String
  | cannotJoin topic fault => s!"could not join '{topic}': {fault.message}"
  | productionFailed fault => s!"block generator failed: {fault.message}"

/-- A node. -/
structure Node where
  config : Config
  mode : NodeMode
  identity : Identity
  engine : Engine
  waiting : WaitingBlocks
  overlay : Overlay
  /-- Where the node listens, once it does. -/
  gossipAddress : Option SocketAddress
  /-- Where the directory listens, once it does. -/
  directoryAddress : Option SocketAddress
  /-- Whether the node makes blocks up. -/
  producing : Bool
  started : Bool
  stopped : Bool
  signal : Signal
  failure : Option NodeFailure

/-- An action of a node.  What it did before it failed stays done. -/
abbrev NodeAction := ExceptT Fault (StateM Node)

namespace Node

/-! ## Creating -/

/-- A node that has not been started. -/
def ofParts (config : Config) (mode : NodeMode) (identity : Identity) (engine : Engine) :
    Node where
  config
  mode
  identity
  engine
  waiting := ∅
  overlay :=
    Overlay.start
      (.ofOwn (.ofAddress config.node.address config.node.port identity.id mode))
      config.node.port
  gossipAddress := none
  directoryAddress := none
  producing := false
  started := false
  stopped := false
  signal := .quiet
  failure := none

/-- Create a node.  A new key is made from the given private key.  A fault of
the mode leaves the disk alone; a fault of the ledger leaves the key file
alone. -/
def create (config : Config) (secret : Nat) : DiskAction Node := do
  let mode ← Disk.ofExcept config.mode
  let engine ← Disk.openStore config.databaseFolder
  let (_, engine) ← Disk.onStore engine Ledger.check
  let identity ← Disk.identity config.keystoreFile secret
  return ofParts config mode identity engine

def id (node : Node) : String := node.identity.id

/-- What the node knows about its peers. -/
def registry (node : Node) : Registry := node.overlay.registry

/-! ## Actions of its parts -/

def ofExcept (outcome : Except Fault Value) : NodeAction Value := ExceptT.mk (pure outcome)

def onOverlay (action : OverlayAction Value) : NodeAction Value := do
  let (outcome, overlay) := (ExceptT.run action).run (← get).overlay
  modify fun node => { node with overlay }
  ofExcept outcome

def onStore (action : StoreAction Value) : NodeAction Value := do
  let (outcome, engine) := action.run (← get).engine
  modify fun node => { node with engine }
  ofExcept outcome

def onLedger (action : LedgerAction Value) : NodeAction Value := do
  let node ← get
  let (outcome, waiting, engine) := action.run node.waiting node.engine
  set { node with waiting, engine }
  ofExcept outcome

/-- Do something whose failure does no harm. -/
def attempt (action : NodeAction Unit) : NodeAction Unit :=
  tryCatch action fun _ => return ()

/-- Stop because of a failure.  Only the first failure is remembered. -/
def fail (failure : NodeFailure) : NodeAction Unit :=
  modify fun node =>
    { node with failure := node.failure <|> some failure, signal := node.signal.give.2 }

/-! ## Starting -/

/-- Begin to listen for peers. -/
def listen (network : Network) (chosen : UInt16) : NodeAction Unit := do
  let address ← ofExcept (network.bind (← get).config.nodeEndpoint chosen)
  modify fun node =>
    { node with
      gossipAddress := some address
      overlay := Overlay.start node.registry address.port }

def introduce (network : Network) (address : String) : NodeAction Unit := do
  match Host.splitPort? address with
  | none => throw (.config (.missingPort address))
  | some (host, port) =>
    match Numeral.ofDecimal 65535 port with
    | .error fault => throw (.config (.badPort address fault))
    | .ok port =>
      let target ← ofExcept (network.resolve host (.ofNat port))
      onOverlay (Overlay.connect network target.text)

/-- Begin to take messages about blocks. -/
def followBlocks : NodeAction Unit :=
  tryCatch (onOverlay (Overlay.join blocksTopic)) fun fault => do
    let failure := NodeFailure.cannotJoin blocksTopic fault
    fail failure
    throw (.network (.reported failure.message))

/-- Bring up an ordinary node.  One that starts from nobody else makes blocks
up, unless the configuration forbids it. -/
def participate (network : Network) : NodeAction Unit := do
  let settings := (← get).config.node
  settings.bootstrap.forM fun address => attempt (introduce network address)
  followBlocks
  modify fun node =>
    { node with producing := settings.generates && settings.bootstrap.isNone }

/-- Take over the peers that an earlier run saved. -/
def restorePeers : NodeAction Unit := do
  let registry := (← get).registry
  let (_, registry) ← onStore registry.load
  modify fun node => { node with overlay := { node.overlay with registry } }

/-- Begin to answer requests to the directory. -/
def serveDirectory (network : Network) (chosen : UInt16) : NodeAction Unit := do
  let address ← ofExcept (network.bind (← get).config.directoryEndpoint chosen)
  modify fun node => { node with directoryAddress := some address }

/-- Bring up what the mode of the node asks for.  The system chooses the given
ports where the configuration leaves the choice to it. -/
def start (network : Network) (gossipPort directoryPort : UInt16) : NodeAction Unit := do
  let node ← get
  if node.started then throw (.config .alreadyStarted)
  set { node with started := true }
  listen network gossipPort
  if node.mode.servesDirectory then
    attempt restorePeers
    if node.mode.gossips then followBlocks
    serveDirectory network directoryPort
  else participate network

/-! ## Running -/

def isRunning (node : Node) : Bool := node.gossipAddress.isSome && !node.signal.isGiven

/-- Store what the messages about blocks carry that came in. -/
def storeMessages : NodeAction Unit := do
  let messages ← onOverlay (Overlay.takeAll blocksTopic)
  let node ← get
  onLedger (Channel.handleAll node.id messages)

/-- Take a connection of a peer. -/
def receive (network : Network) (source : IpAddress) (bytes : Bytes) : NodeAction Unit := do
  if (← get).isRunning then
    attempt (onOverlay (Overlay.handleConnection network source bytes))
    storeMessages

/-- Answer a request to the directory, if there is one. -/
def answer (node : Node) (request : Bytes) : Option Bytes :=
  if node.directoryAddress.isSome && !node.signal.isGiven then
    some (Directory.serve node.registry request)
  else none

/-- Make a block up and tell others, if the node does so.  A message that
reaches nobody does no harm, but a block that cannot be stored stops the
node. -/
def produce (network : Network) (timestamp : Int64) : NodeAction Unit := do
  let node ← get
  if node.producing && node.isRunning then
    tryCatch
      (do
        let messages ← onStore (Producer.produce timestamp)
        messages.forM fun data =>
          attempt (onOverlay (Overlay.publish network blocksTopic data)))
      fun fault => fail (.productionFailed fault)

/-- Tell the node to stop.  The answer tells whether it was the first time. -/
def interrupt : NodeAction Bool :=
  modifyGet fun node =>
    let (isFirst, signal) := node.signal.give
    (isFirst, { node with signal })

/-! ## Shutting down -/

/-- Save the peers of a directory and close the store. -/
def shutdown : NodeAction Unit := do
  let node ← get
  if node.stopped then return ()
  set { node with stopped := true, signal := node.signal.give.2 }
  if node.mode.servesDirectory then
    attempt (do let _ ← onStore node.registry.save)
  modify fun node => { node with engine := node.engine.close.1 }

/-- Run an action of a node that is at work on a disk, and keep what its store
holds then. -/
def run (action : NodeAction Value) (node : Node) (disk : Disk) :
    Except Fault Value × Node × Disk :=
  let (outcome, node) := (ExceptT.run action).run node
  (outcome, node, disk.keep node.engine)

end Node

end LedgerNode
