import LedgerNode.Base58
import LedgerNode.Binary.Codec
import LedgerNode.Bytes.Hex
import LedgerNode.Key.Document
import LedgerNode.Ledger.Chain
import LedgerNode.Net.SocketAddress

namespace LedgerNode

/-!
# Faults

Every operation of the node fails with a cause.  A cause holds what the
message needs and nothing else; the wording of all messages is given here.
-/

/-- What went wrong in the store or in the order of the ledger. -/
inductive StoreFault where
  /-- A key of the store is no text. -/
  | unreadableKey (fault : Utf8Fault)
  /-- A block is not the next one of the chain. -/
  | notExtending (block : Block) (tip : Cursor)
  /-- A block that was built for the tip is not the next one of the chain. -/
  | builtNotExtending (block : Block) (tip : Cursor)
  | cannotOpen (path reason : String)
deriving DecidableEq

/-- What went wrong with a key or its file. -/
inductive CryptoFault where
  | keyRejected (rejection : KeyRejection)
  /-- The file does not hold the two lines of a key pair. -/
  | missingLines (path : String)
  | badLine (subject : String) (fault : HexFault)
  | mismatchedPair (path : String)
deriving DecidableEq

/-- Why a connection or a listener could not be had. -/
inductive SocketFault where
  | unreachable
  | refused
  | addressInUse
  | addressUnavailable
  | permission
  | address (fault : AddressFault)
deriving DecidableEq

/-- What went wrong between nodes. -/
inductive NetworkFault where
  | invalidPeerAddress (endpoint : String)
  | invalidAddress (address : String) (fault : AddressFault)
  | noAddress (address : String)
  | noIpv4 (address : String)
  | cannotResolve (host : String) (fault : AddressFault)
  | noIpv4For (host : String)
  | cannotConnect (address : String) (fault : SocketFault)
  | cannotBind (address : String) (fault : SocketFault)
  /-- None of the peers that a message was sent to could be reached. -/
  | noPeerReached (attempted : Nat) (topic : String)
  | alreadyJoined (topic : String)
  | subscriptionClosed (topic : String)
  /-- A reason that somebody else put into words. -/
  | reported (reason : String)
deriving DecidableEq

/-- What went wrong with the configuration. -/
inductive ConfigFault where
  /-- The file is malformed or a field has the wrong type. -/
  | malformed (path : Option String)
  | missingPort (address : String)
  | badPort (address : String) (fault : NumberFault)
  | noHome
  | alreadyExists (path : String)
  | alreadyStarted
  /-- A lookup in a directory was not told what to look up. -/
  | lookupWithoutAddress
  /-- A query that is no lookup was told what to look up. -/
  | unexpectedAddress (query : String)
deriving DecidableEq

/-- What went wrong with a file. -/
inductive FileFault where
  | missing
  | occupied
  | notFolder
  | isFolder
  | notText
deriving DecidableEq

/-- The cause of a failed operation. -/
inductive Fault where
  | store (fault : StoreFault)
  /-- Nothing is stored under a key, or a record that is needed is missing. -/
  | notFound (subject : String)
  | storeClosed
  | integrity (defect : ChainDefect)
  | crypto (fault : CryptoFault)
  | network (fault : NetworkFault)
  | config (fault : ConfigFault)
  | invalidMode (name : String)
  | decode (fault : DecodeFault)
  | file (fault : FileFault)
  | invalidAddress (fault : Base58Fault)
  /-- A text is not the address of an account. -/
  | noAccount (address : String)
deriving DecidableEq

/-- That a block does not continue the chain at a tip. -/
def StoreFault.notExtendingMessage (subject : String) (block : Block) (tip : Cursor) : String :=
  s!"{subject} {block.height} ({block.previousHash}) does not extend tip " ++
  s!"{tip.height} ({tip.hash})"

/-- What went wrong in the store, in words. -/
def StoreFault.message : StoreFault → String
  | unreadableKey fault => s!"Non UTF-8 key in store: {fault.message}"
  | notExtending block tip => notExtendingMessage "block" block tip
  | builtNotExtending block tip => notExtendingMessage "built block" block tip
  | cannotOpen path reason => s!"Failed to open database at {path}: {reason}"

/-- What went wrong with a key, in words. -/
def CryptoFault.message : CryptoFault → String
  | keyRejected rejection => s!"Failed to create key pair from PKCS8: {rejection.message}"
  | missingLines path => s!"keystore {path} must hold a private and a public key line"
  | badLine subject fault => s!"bad {subject} in keystore: {fault.message}"
  | mismatchedPair path => s!"keystore {path}: public key does not match private key"

/-- Why a socket could not be had, in words. -/
def SocketFault.message : SocketFault → String
  | unreachable => "Network is unreachable (os error 101)"
  | refused => "Connection refused (os error 111)"
  | addressInUse => "Address already in use (os error 98)"
  | addressUnavailable => "Cannot assign requested address (os error 99)"
  | permission => "Permission denied (os error 13)"
  | address fault => fault.message

/-- What went wrong between nodes, in words. -/
def NetworkFault.message : NetworkFault → String
  | invalidPeerAddress endpoint =>
    s!"Invalid peer address {endpoint}: {AddressFault.form.message}"
  | invalidAddress address fault => s!"Invalid address {address}: {fault.message}"
  | noAddress address => s!"No address for {address}"
  | noIpv4 address => s!"No IPv4 address for {address}"
  | cannotResolve host fault => s!"Failed to resolve address '{host}': {fault.message}"
  | noIpv4For host => s!"No IPv4 address found for '{host}'"
  | cannotConnect address fault => s!"Failed to connect to {address}: {fault.message}"
  | cannotBind address fault => s!"Failed to bind to {address}: {fault.message}"
  | noPeerReached attempted topic =>
    s!"could not reach any of {attempted} peers for '{topic}'"
  | alreadyJoined topic => s!"topic '{topic}' already joined"
  | subscriptionClosed topic => s!"subscription to '{topic}' closed"
  | reported reason => reason

/-- What went wrong with the configuration, in words. -/
def ConfigFault.message : ConfigFault → String
  | malformed none => "TOML parse error"
  | malformed (some path) => s!"{path}: TOML parse error"
  | missingPort address => s!"expected host:port, got '{address}'"
  | badPort address fault => s!"bad port in '{address}': {fault.message}"
  | noHome => "HOME is not set"
  | alreadyExists path => s!"config file {path} already exists"
  | alreadyStarted => "node already started"
  | lookupWithoutAddress => "resolve needs an ADDRESS to look up"
  | unexpectedAddress query => s!"'{query}' does not take an address"

/-- What went wrong with a file, in words. -/
def FileFault.message : FileFault → String
  | missing => "No such file or directory (os error 2)"
  | occupied => "File exists (os error 17)"
  | notFolder => "Not a directory (os error 20)"
  | isFolder => "Is a directory (os error 21)"
  | notText => "stream did not contain valid UTF-8"

def ChainDefect.kind : ChainDefect → String
  | heightMismatch .. => "HeightMismatch"
  | brokenLink .. => "BrokenLink"
  | badGenesis .. => "BadGenesis"
  | orphanTransaction .. => "OrphanTransaction"
  | emptyLedger _ => "EmptyLedger"

namespace Fault

def kind : Fault → String
  | store _ => "Database"
  | notFound _ => "NotFound"
  | storeClosed => "StoreClosed"
  | integrity defect => "ChainIntegrity." ++ defect.kind
  | crypto _ => "Crypto"
  | network _ => "Network"
  | config _ => "Config"
  | invalidMode _ => "InvalidMode"
  | decode _ => "Decode"
  | file _ => "Io"
  | invalidAddress _ => "InvalidAddress"
  | noAccount _ => "InvalidAddress"

/-- One sentence about the cause. -/
def message : Fault → String
  | store fault => s!"Database error: {fault.message}"
  | notFound subject => s!"Not found: {subject}"
  | storeClosed => "Database error: store is closed"
  | integrity defect => s!"Chain integrity error: {defect.message}"
  | crypto fault => s!"Cryptographic error: {fault.message}"
  | network fault => s!"Network error: {fault.message}"
  | config fault => s!"Configuration error: {fault.message}"
  | invalidMode name =>
    s!"Invalid node mode: '{name}' (expected dns, seed, supernode or node)"
  | decode fault => s!"Decode error: {fault.message}"
  | file fault => s!"I/O error: {fault.message}"
  | invalidAddress fault => s!"Invalid address: Invalid base58 encoding: {fault.message}"
  | noAccount address => s!"Invalid address: {address}"

end Fault

end LedgerNode
