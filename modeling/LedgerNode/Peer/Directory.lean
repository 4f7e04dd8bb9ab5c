import LedgerNode.Net.Network
import LedgerNode.Peer.DirectoryMessage
import LedgerNode.Peer.Registry

namespace LedgerNode

/-!
# The directory

A directory answers questions from what the registry knows: who the node
itself is, which peers others may start from, which ordinary nodes there are,
and who can be found at an address.

Whoever wants to know about peers asks a directory somewhere on the network.
The request goes to the first address that the given text stands for, and the
answer is everything that comes back.
-/

namespace Directory

/-! ## Answering -/

/-- The peers that a new node can start from. -/
def seeds (registry : Registry) : List Peer := registry.withModes [.seed, .supernode]

def nodes (registry : Registry) : List Peer := registry.withModes [.node]

/-- Who can be found at an address, with or without a port.  The node itself
goes first, then the peer with the least id. -/
def resolve (registry : Registry) (address : String) : Option Peer :=
  if Registry.isAt address registry.own then some registry.own
  else (registry.findAt address).head?

def answer (registry : Registry) : DirectoryQuery → DirectoryResponse
  | .self => .peer registry.own
  | .seeds => .peers (seeds registry)
  | .nodes => .peers (nodes registry)
  | .resolve address =>
    match resolve registry address with
    | some peer => .peer peer
    | none => .notFound address

/-- The bytes that answer the request in front of the given bytes.  Bytes that
start with no request get no answer. -/
def serve (registry : Registry) (request : Bytes) : Bytes :=
  match DirectoryRequest.ofBytes? request with
  | some request => (answer registry request.query).encode request.encoding
  | none => []

/-! ## Asking -/

def ask (network : Network) (address : String) (request : DirectoryRequest) :
    Except Fault DirectoryResponse :=
  match network.lookup address with
  | .error fault => .error (.network (.invalidAddress address fault))
  | .ok [] => .error (.network (.noAddress address))
  | .ok (target :: _) =>
    match network.dial target with
    | some fault => .error (.network (.cannotConnect address fault))
    | none =>
      let body := network.reply target request.toJson.compact
      (DirectoryResponse.decode body request.encoding).mapError .decode

end Directory

end LedgerNode
