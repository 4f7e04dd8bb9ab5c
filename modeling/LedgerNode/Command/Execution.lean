import LedgerNode.Account.Address
import LedgerNode.Command.Invocation
import LedgerNode.Node.Lifecycle
import LedgerNode.Peer.Directory

namespace LedgerNode

/-!
# Carrying commands out

A command reads and changes the disk of a machine and prints lines.  What it
did before it failed stays done, but then it prints nothing more.

A node runs until it is told to stop.  What happens to it in the meantime is
given as a list of events.
-/

/-- The machine that a command is carried out on. -/
structure Machine where
  disk : Disk
  environment : String → Option String
  network : Network
  /-- The private key of a node that has none yet. -/
  secret : Nat
  /-- The ports that the system chooses for gossip and directory. -/
  gossipPort : UInt16
  directoryPort : UInt16

/-- What happens to a running node. -/
inductive NodeEvent where
  | connection (source : IpAddress) (bytes : Bytes)
  /-- The time has come to make a block up. -/
  | tick (timestamp : Int64)
deriving DecidableEq

/-- Why a command failed. -/
inductive CommandFailure where
  | fault (cause : Fault)
  | stopped (failure : NodeFailure)
deriving DecidableEq

def CommandFailure.message : CommandFailure → String
  | fault cause => cause.message
  | stopped failure => failure.message

/-- The carrying out of a command, up to its failure. -/
abbrev CommandAction := ExceptT CommandFailure (StateM (Machine × List String))

namespace CommandAction

def print (line : String) : CommandAction Unit :=
  modify fun (machine, lines) => (machine, lines ++ [line])

/-- An outcome that does not depend on the machine. -/
def ofExcept (outcome : Except Fault Value) : CommandAction Value :=
  ExceptT.mk (pure (outcome.mapError .fault))

/-- Act on the disk of the machine. -/
def onDisk (action : DiskAction Value) : CommandAction Value := do
  let (machine, lines) ← get
  let (outcome, disk) := (ExceptT.run action).run machine.disk
  set ({ machine with disk }, lines)
  ofExcept outcome

def onStore (config : Config) (action : StoreAction Value) : CommandAction Value :=
  onDisk do
    let engine ← Disk.openStore config.databaseFolder
    let (value, _) ← Disk.onStore engine action
    return value

end CommandAction

open CommandAction

namespace NodeOverrides

/-- The configuration that a command line leaves. -/
def apply (overrides : NodeOverrides) (config : Config) : Config :=
  { config with
    node :=
      { config.node with
        address := overrides.address.getD config.node.address
        port := overrides.port.getD config.node.port
        mode := overrides.mode.getD config.node.mode
        bootstrap := overrides.seed <|> config.node.bootstrap }
    directory :=
      { address := overrides.directoryAddress.getD config.directory.address
        port := overrides.directoryPort.getD config.directory.port } }

end NodeOverrides

namespace Command

/-- Write a new configuration, by default into the home folder, and start a
ledger. -/
def runInit (configFile : Option String) : CommandAction Unit := do
  let (machine, _) ← get
  let folder ← ofExcept
    (match configFile >>= Path.parent? with
    | some folder => .ok folder
    | none => Config.homeFolder machine.environment)
  let (file, files) ← ofExcept (Config.writeNew machine.disk.files folder)
  onDisk (modify fun disk => { disk with files })
  let config ← ofExcept (Config.load files (some file) machine.environment)
  let _ ← onStore config Ledger.check
  print s!"Wrote {file}"
  print s!"Created ledger at {config.databaseFolder}"

/-- Let an event happen to a running node. -/
def runEvent (network : Network) : NodeEvent → NodeAction Unit
  | .connection source bytes => Node.receive network source bytes
  | .tick timestamp => Node.produce network timestamp

/-- Start a node, let events happen to it, and shut it down.  A node that does
not start is shut down at once. -/
def runNodeThrough (machine : Machine) (events : List NodeEvent) : NodeAction Unit :=
  tryCatch
    (do
      Node.start machine.network machine.gossipPort machine.directoryPort
      events.forM fun event => Node.attempt (runEvent machine.network event)
      Node.shutdown)
    fun fault => do
      Node.shutdown
      throw fault

/-- Run a node until it is told to stop, after the last event. -/
def runNode (config : Config) (events : List NodeEvent) : CommandAction Unit := do
  let node ← onDisk (Node.create config (← get).1.secret)
  let (machine, lines) ← get
  let (outcome, node, disk) := node.run (runNodeThrough machine events) machine.disk
  set ({ machine with disk }, lines)
  ofExcept outcome
  match node.failure with
  | some failure => throw (.stopped failure)
  | none => return ()

/-- How the ledger is, and how many records there are. -/
def statusDocument : StoreAction Json := do
  let report ← Ledger.inspect
  let blocks ← RecordStore.blocks.count
  let confirmed ← RecordStore.confirmed.count
  let pending ← RecordStore.pending.count
  let peers ← RecordStore.peers.count
  let ofTip := fun (write : Cursor → Json) => (report.tip.map write).getD .null
  return .ofMembers
    [("blocks", .ofNat blocks),
     ("cursor", (report.cursor.map Cursor.toJson).getD .null),
     ("cursor_current", .bool report.isCurrent),
     ("last_block", ofTip fun tip => .ofNat tip.height.toNat),
     ("last_hash", ofTip fun tip => .ofText tip.hash),
     ("peers", .ofNat peers),
     ("pending_transactions", .ofNat pending),
     ("transactions", .ofNat confirmed)]

/-- The blocks from one height up to another, by default up to the end of the
chain. -/
def blocksFrom (first : UInt64) : Option UInt64 → StoreAction (List Block)
  | some bound => Ledger.blocksBetween first bound
  | none => do
    let tip ← Ledger.cursor
    Ledger.blocksBetween first (tip.height + 1)

/-- Carry a command out under a configuration. -/
def run (configFile : Option String) (config : Config) (events : List NodeEvent) :
    Command → CommandAction Unit
  | init => runInit configFile
  | node overrides => runNode (overrides.apply config) events
  | status => do
    let document ← onStore config statusDocument
    print document.openedText
  | blocks first bound => do
    let blocks ← onStore config (blocksFrom first bound)
    blocks.forM fun block => print block.toJson.openedText
  | peers directory listing peer encoding => do
    let query ← ofExcept (listing.query peer)
    let target := directory.getD config.directoryEndpoint
    let response ← ofExcept (Directory.ask (← get).1.network target ⟨query, encoding⟩)
    print response.toJson.openedText
  | address publicKey multisig =>
    print (Address.ofPublicKey publicKey (if multisig then .multisig else .normal))
  | validateAddress account =>
    if Address.isValid account then print s!"Address {account} is valid"
    else throw (.fault (.noAccount account))

end Command

namespace Invocation

/-- Read the configuration and carry the command out. -/
def run (invocation : Invocation) (events : List NodeEvent) : CommandAction Unit := do
  let (machine, _) ← get
  let config ← ofExcept
    (Config.load machine.disk.files invocation.configFile machine.environment)
  invocation.command.run invocation.configFile config events

/-- What a command printed, why it failed if it did, and the machine
afterwards. -/
def outcome (invocation : Invocation) (machine : Machine) (events : List NodeEvent) :
    List String × Option CommandFailure × Machine :=
  let (result, machine, lines) :=
    (ExceptT.run (invocation.run events)).run (machine, [])
  (lines,
    match result with
    | .ok () => none
    | .error failure => some failure,
    machine)

end Invocation

end LedgerNode
