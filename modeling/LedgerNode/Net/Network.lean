import LedgerNode.Fault

namespace LedgerNode

/-!
# The network around a node

What a node can reach is not its own doing.  A network says which addresses
answer when they are dialled, at which ones the node may listen, and which
addresses belong to a name.
-/

/-- What surrounds a node. -/
structure Network where
  /-- Why an address does not answer; nothing if it does. -/
  dial : SocketAddress → Option SocketFault
  /-- Why the node may not listen at an address; nothing if it may. -/
  listen : SocketAddress → Option SocketFault
  /-- The addresses of a name. -/
  addressesOf : String → List IpAddress
  /-- What comes back over a connection after bytes were sent over it. -/
  reply : SocketAddress → Bytes → Bytes := fun _ _ => []

namespace Network

/-- The address of the machine itself. -/
def loopback : Ipv4 := ⟨127, 0, 0, 1⟩

/-- A machine without any network.  It may listen, but nothing can be
reached. -/
def isolated : Network where
  dial _ := some .unreachable
  listen _ := none
  addressesOf name := if name = "localhost" then [.v4 loopback] else []

/-- A machine whose own addresses answer where somebody listens. -/
def listeningAt (ports : List UInt16) : Network where
  dial address :=
    if address.ip = .v4 loopback ∧ address.port ∈ ports then none else some .refused
  listen address :=
    if address.ip.isUnspecified ∨ address.ip = .v4 loopback then
      if address.port ∈ ports then some .addressInUse else none
    else some .addressUnavailable
  addressesOf name := if name = "localhost" then [.v4 loopback] else []

end Network

namespace Host

/-- The form of one part of a numeric host, by its base. -/
def partForm (radix : Nat) : Numeral.Form := ⟨radix, none, true, 0xFFFFFFFF⟩

/-- The number that one part of a numeric host spells: hexadecimal after `0x`,
octal after `0`, decimal otherwise. -/
def part? (text : List Char) : Option Nat := do
  let (number, rest) ←
    match text with
    | '0' :: 'x' :: digits => Numeral.read (partForm 16) digits
    | '0' :: 'X' :: digits => Numeral.read (partForm 16) digits
    | '0' :: digits => Numeral.read (partForm 8) ('0' :: digits)
    | digits => Numeral.read (partForm 10) digits
  if rest.isEmpty then some number else none

/-- The address whose bytes are those of a number. -/
def ofNumber (number : Nat) : Ipv4 :=
  ⟨.ofNat (number / 0x1000000), .ofNat (number / 0x10000), .ofNat (number / 0x100),
    .ofNat number⟩

/-- The address of parts that each stand for one byte, but for the last one,
which stands for all bytes that are left. -/
def ofParts? : List Nat → Option Ipv4
  | [a] => if a < 0x100000000 then some (ofNumber a) else none
  | [a, b] =>
    if a < 256 ∧ b < 0x1000000 then some (ofNumber (a * 0x1000000 + b)) else none
  | [a, b, c] =>
    if a < 256 ∧ b < 256 ∧ c < 0x10000 then
      some (ofNumber (a * 0x1000000 + b * 0x10000 + c))
    else none
  | [a, b, c, d] =>
    if a < 256 ∧ b < 256 ∧ c < 256 ∧ d < 256 then
      some (ofNumber (a * 0x1000000 + b * 0x10000 + c * 0x100 + d))
    else none
  | _ => none

def literal? (host : String) : Option IpAddress :=
  match (host.splitOn ".").mapM (fun part => part? part.toList) >>= ofParts? with
  | some address => some (.v4 address)
  | none => IpAddress.ofText? host

/-- The addresses of a host, which is a literal or a name. -/
def addresses (network : Network) (host : String) : List IpAddress :=
  match literal? host with
  | some address => [address]
  | none => network.addressesOf host

/-- The texts before and after the last colon. -/
def splitPort? (text : String) : Option (String × String) :=
  let reversed := text.toList.reverse
  let port := reversed.takeWhile (· != ':')
  match reversed.drop port.length with
  | [] => none
  | _ :: host => some (String.ofList host.reverse, String.ofList port.reverse)

end Host

namespace Network

/-- The socket addresses that a host and a port in one text stand for. -/
def lookup (network : Network) (text : String) :
    Except AddressFault (List SocketAddress) :=
  match SocketAddress.ofText? text with
  | some address => .ok [address]
  | none =>
    match Host.splitPort? text with
    | none => .error .missingPort
    | some (host, port) =>
      match Numeral.ofDecimal 65535 port with
      | .error _ => .error .badPort
      | .ok port =>
        match Host.addresses network host with
        | [] => .error .unknownHost
        | addresses => .ok (addresses.map fun ip => .ofIp ip (.ofNat port))

/-- The address of four bytes that a host and a port stand for. -/
def resolve (network : Network) (host : String) (port : UInt16) :
    Except Fault SocketAddress :=
  match network.lookup s!"{host}:{port}" with
  | .error fault => .error (.network (.cannotResolve host fault))
  | .ok addresses =>
    match addresses.find? (·.isV4) with
    | some address => .ok address
    | none => .error (.network (.noIpv4For host))

/-- Listen at the first address that allows it. -/
def listenAtFirst (network : Network) : List SocketAddress → Except SocketFault SocketAddress
  | [] => .error (.address .unknownHost)
  | address :: rest =>
    match network.listen address with
    | none => .ok address
    | some fault => if rest.isEmpty then .error fault else listenAtFirst network rest

/-- Listen at an address.  Port zero leaves the choice of a port to the
system, which chooses the port `chosen`. -/
def bind (network : Network) (text : String) (chosen : UInt16) :
    Except Fault SocketAddress :=
  let outcome : Except SocketFault SocketAddress :=
    match network.lookup text with
    | .error fault => .error (.address fault)
    | .ok addresses => listenAtFirst network addresses
  match outcome with
  | .ok address => .ok (if address.port = 0 then address.withPort chosen else address)
  | .error fault => .error (.network (.cannotBind text fault))

def connect (network : Network) (address : SocketAddress) : Except Fault Unit :=
  match network.dial address with
  | none => .ok ()
  | some fault => .error (.network (.cannotConnect address.text fault))

end Network

end LedgerNode
