import LedgerNode.Peer.Mode

namespace LedgerNode

/-!
# Peers

A peer is described by the address at which it says it can be dialled, its id
and its mode, and by what is known of the connection to it.
-/

/-- Who introduced the connection. -/
inductive Direction where
  | inbound
  | outbound
  | unknown
deriving DecidableEq, Inhabited

namespace Direction

/-- All directions, in the order of their numbers. -/
def all : List Direction := [inbound, outbound, unknown]

def name : Direction → String
  | inbound => "inbound"
  | outbound => "outbound"
  | unknown => "unknown"

def ofName? (name : String) : Option Direction := all.find? (·.name == name)

def index : Direction → Fin 3
  | inbound => 0
  | outbound => 1
  | unknown => 2

def ofIndex : Fin 3 → Direction
  | 0 => inbound
  | 1 => outbound
  | 2 => unknown

/-- The binary form of a direction. -/
def codec : Codec Direction :=
  .via (.variant "Direction" 3 fun _ => .unit) (fun value => ofIndex value.1)
    (fun direction => ⟨direction.index, ()⟩)

def toJson (direction : Direction) : Json := .ofText direction.name

def ofJson? (document : Json) : Option Direction := document.unitVariant? >>= ofName?

end Direction

/-- What is known of a node. -/
structure Peer where
  address : String
  port : UInt16
  id : String
  mode : NodeMode
  connected : Bool
  direction : Direction
deriving DecidableEq, Inhabited

namespace Peer

/-- A peer to which there is no connection yet. -/
def ofAddress (address : String) (port : UInt16) (id : String) (mode : NodeMode) : Peer :=
  { address, port, id, mode, connected := false, direction := .unknown }

/-- The address and the port as one text. -/
def endpoint (peer : Peer) : String := s!"{peer.address}:{peer.port}"

/-- Whether the peer says only that it can be dialled at every address of its
machine. -/
def hasUnspecifiedAddress (peer : Peer) : Bool :=
  (IpAddress.ofText? peer.address).any (·.isUnspecified)

def socketAddress (peer : Peer) : Except Fault SocketAddress :=
  match SocketAddress.ofText? peer.endpoint with
  | some address => .ok address
  | none => .error (.network (.invalidPeerAddress peer.endpoint))

/-- The binary form of a peer. -/
def codec : Codec Peer :=
  .via
    (.pair .text <| .pair .u16 <| .pair .text <| .pair NodeMode.codec <| .pair .bool
      Direction.codec)
    (fun (address, port, id, mode, connected, direction) =>
      { address, port, id, mode, connected, direction })
    (fun peer =>
      (peer.address, peer.port, peer.id, peer.mode, peer.connected, peer.direction))

def toJson (peer : Peer) : Json :=
  .ofMembers
    [("address", .ofText peer.address),
     ("port", .ofNat peer.port.toNat),
     ("id", .ofText peer.id),
     ("mode", peer.mode.toJson),
     ("connected", .bool peer.connected),
     ("direction", peer.direction.toJson)]

def ofJson? (document : Json) : Option Peer := do
  match ← document.allFields?
      ["address", "port", "id", "mode", "connected", "direction"] with
  | [address, port, id, mode, connected, direction] =>
    some
      { address := ← address.text?
        port := ← port.u16?
        id := ← id.text?
        mode := ← NodeMode.ofJson? mode
        connected := ← connected.bool?
        direction := ← Direction.ofJson? direction }
  | _ => none

end Peer

end LedgerNode
