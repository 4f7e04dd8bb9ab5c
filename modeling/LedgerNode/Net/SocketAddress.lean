import LedgerNode.Net.IpAddress

namespace LedgerNode

/-!
# Socket addresses

A socket address is an internet address and a port.  A longer address stands
in brackets and may carry the number of a zone.
-/

/-- An address that can be dialled. -/
inductive SocketAddress where
  | v4 (ip : Ipv4) (port : UInt16)
  | v6 (ip : Ipv6) (zone : UInt32) (port : UInt16)
deriving DecidableEq

/-- Why a text names no socket address. -/
inductive AddressFault where
  /-- The text has not the form of an address and a port. -/
  | form
  /-- The text has no colon in front of a port. -/
  | missingPort
  /-- The part after the last colon is no port. -/
  | badPort
  /-- The part before the port is a name that no one answers for. -/
  | unknownHost
deriving DecidableEq

namespace AddressFault

/-- A few words about the fault. -/
def message : AddressFault → String
  | form => "invalid socket address syntax"
  | missingPort => "invalid socket address"
  | badPort => "invalid port value"
  | unknownHost => "failed to lookup address information: Temporary failure in name resolution"

end AddressFault

namespace SocketAddress

def portForm : Numeral.Form := ⟨10, none, true, 65535⟩

def zoneForm : Numeral.Form := ⟨10, none, true, 0xFFFFFFFF⟩

def readPort (text : List Char) : Option (UInt16 × List Char) := do
  let rest ← readCharacter ':' text
  let (port, rest) ← Numeral.read portForm rest
  some (.ofNat port, rest)

def readZone (text : List Char) : UInt32 × List Char :=
  match readCharacter '%' text >>= Numeral.read zoneForm with
  | some (zone, rest) => (.ofNat zone, rest)
  | none => (0, text)

/-- Read an address of four bytes and a port from the front. -/
def readV4 (text : List Char) : Option (SocketAddress × List Char) := do
  let (ip, rest) ← Ipv4.read text
  let (port, rest) ← readPort rest
  some (v4 ip port, rest)

/-- Read an address of eight groups in brackets and a port from the front. -/
def readV6 (text : List Char) : Option (SocketAddress × List Char) := do
  let rest ← readCharacter '[' text
  let (ip, rest) ← Ipv6.read rest
  let (zone, rest) := readZone rest
  let rest ← readCharacter ']' rest
  let (port, rest) ← readPort rest
  some (v6 ip zone port, rest)

def ofText? (text : String) : Option SocketAddress := do
  let (address, rest) ←
    match readV4 text.toList with
    | some found => some found
    | none => readV6 text.toList
  if rest.isEmpty then some address else none

def text : SocketAddress → String
  | v4 ip port => s!"{ip.text}:{port}"
  | v6 ip zone port =>
    if zone = 0 then s!"[{ip.text}]:{port}" else s!"[{ip.text}%{zone}]:{port}"

def ip : SocketAddress → IpAddress
  | v4 ip _ => .v4 ip
  | v6 ip _ _ => .v6 ip

def port : SocketAddress → UInt16
  | v4 _ port => port
  | v6 _ _ port => port

def withPort (address : SocketAddress) (port : UInt16) : SocketAddress :=
  match address with
  | v4 ip _ => v4 ip port
  | v6 ip zone _ => v6 ip zone port

/-- Whether the address has four bytes. -/
def isV4 : SocketAddress → Bool
  | v4 .. => true
  | v6 .. => false

def ofIp (ip : IpAddress) (port : UInt16) : SocketAddress :=
  match ip with
  | .v4 ip => v4 ip port
  | .v6 ip => v6 ip 0 port

end SocketAddress

end LedgerNode
