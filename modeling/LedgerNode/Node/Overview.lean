import LedgerNode.Node.Lifecycle

namespace LedgerNode

/-!
# Overviews

An overview is a document that tells what follows from a value: from a mode,
from what is known of a peer, from a configuration, or from the state of a
node.  What cannot be told is given as the fault that stands in the way.
-/

/-- The document of a fault: its kind, and one sentence about it. -/
def Fault.toJson (fault : Fault) : Json :=
  .ofMembers [("error", .ofText fault.kind), ("message", .ofText fault.message)]

namespace Json

def ofOutcome (write : Value → Json) : Except Fault Value → Json
  | .ok value => write value
  | .error fault => fault.toJson

/-- The document of a value that may be missing. -/
def ofOption (write : Value → Json) (value : Option Value) : Json :=
  (value.map write).getD .null

end Json

/-- The overview of a ledger: the height of its cursor, how many blocks wait,
and how many blocks, confirmed transactions, pending transactions and peers are
stored. -/
def Ledger.overview (waiting : WaitingBlocks) (engine : Engine) : Json :=
  let count := fun action => Json.ofOutcome .ofNat (StoreAction.run action engine).1
  let cursor := (Ledger.cursor.run engine).1.toOption
  if engine.isOpen then
    .array
      [.ofOption (fun cursor => .ofNat cursor.height.toNat) cursor, .ofNat waiting.size,
       count RecordStore.blocks.count, count RecordStore.confirmed.count,
       count RecordStore.pending.count, count RecordStore.peers.count]
  else .ofText "closed"

def NodeMode.overview (mode : NodeMode) : Json :=
  .ofMembers
    [("name", .ofText mode.name),
     ("gossips", .bool mode.gossips),
     ("directory", .bool mode.servesDirectory),
     ("json", mode.toJson)]

def Peer.overview (peer : Peer) : Json :=
  .ofMembers
    [("endpoint", .ofText peer.endpoint),
     ("store_key", .ofText (StoreKey.peer peer)),
     ("unspecified", .bool peer.hasUnspecifiedAddress),
     ("socket_addr", .ofOutcome (.ofText ·.text) peer.socketAddress)]

/-- A peer in few words. -/
def Peer.row (peer : Peer) : Json :=
  .array
    [.ofText peer.id, .ofText peer.endpoint, peer.mode.toJson, .bool peer.connected,
     peer.direction.toJson]

def Config.overview (config : Config) : Json :=
  .ofMembers
    [("file", config.toJson),
     ("config_dir", .ofText config.folder),
     ("loaded_from", .ofOption .ofText config.source),
     ("database_dir", .ofText config.databaseFolder),
     ("keystore", .ofText config.keystoreFile),
     ("node_listen", .ofText config.nodeEndpoint),
     ("dns_listen", .ofText config.directoryEndpoint),
     ("mode", .ofOutcome (.ofText ·.name) config.mode)]

namespace Node

/-- What an action on the store of a node would answer. -/
def peek (node : Node) (write : Value → Json) (action : StoreAction Value) : Json :=
  .ofOutcome write (action.run node.engine).1

def overview (node : Node) : Json :=
  .ofMembers
    [("mode", .ofText node.mode.name),
     ("id", .ofText node.id),
     ("status", node.peek Cursor.toJson Ledger.cursor)]

/-- How far the ledger of a node has come: the height of its cursor, and how
many confirmed and how many pending transactions it holds. -/
def progress (node : Node) : Json :=
  .array
    [node.peek (fun cursor => .ofNat cursor.height.toNat) Ledger.cursor,
     node.peek .ofNat RecordStore.confirmed.count,
     node.peek .ofNat RecordStore.pending.count]

end Node

end LedgerNode
