import LedgerNode.Command.Line
import LedgerNode.Net.Numeral
import LedgerNode.Peer.DirectoryMessage

namespace LedgerNode

/-!
# Commands

A command line names one command and may name the file of the configuration,
in front of the command or behind it.  The one behind counts if there are
two.
-/

/-- What can be asked of a directory by name. -/
inductive Listing where
  | self
  | seeds
  | nodes
  | resolve
deriving DecidableEq

namespace Listing

def all : List Listing := [self, seeds, nodes, resolve]

def name : Listing → String
  | self => "self"
  | seeds => "seeds"
  | nodes => "nodes"
  | resolve => "resolve"

/-- The listing with a name, in letters of any size.  No letter outside of
ASCII has a small form that occurs in a name. -/
def ofName? (text : String) : Option Listing :=
  let lowered := String.ofList (text.toList.map Char.toLower)
  all.find? (·.name == lowered)

/-- Why a text names no listing. -/
def refusalText (text : String) : String :=
  s!"Invalid query: {text}. Valid options: self, seeds, nodes, resolve"

/-- The query for a listing.  A lookup needs an address, and nothing else
takes one. -/
def query (listing : Listing) (address : Option String) : Except Fault DirectoryQuery :=
  match listing, address with
  | self, none => .ok .self
  | seeds, none => .ok .seeds
  | nodes, none => .ok .nodes
  | resolve, some address => .ok (.resolve address)
  | resolve, none => .error (.config .lookupWithoutAddress)
  | other, some _ => .error (.config (.unexpectedAddress other.name))

end Listing

/-- What a command line changes in the configuration of a node. -/
structure NodeOverrides where
  address : Option String
  port : Option UInt16
  mode : Option String
  directoryAddress : Option String
  directoryPort : Option UInt16
  seed : Option String
deriving DecidableEq

/-- What is to be done. -/
inductive Command where
  /-- Write a new configuration and start a ledger. -/
  | init
  /-- Run a node until it is told to stop. -/
  | node (overrides : NodeOverrides)
  /-- Check the ledger and tell where it ends. -/
  | status
  /-- Show the blocks from one height up to another, which is left out. -/
  | blocks (first : UInt64) (bound : Option UInt64)
  /-- Ask a directory. -/
  | peers (directory : Option String) (listing : Listing) (address : Option String)
      (encoding : Encoding)
  /-- Derive the address of an account from a public key. -/
  | address (publicKey : String) (multisig : Bool)
  /-- Check the address of an account. -/
  | validateAddress (address : String)
deriving DecidableEq

namespace Command

/-- A value that may be missing, as a document. -/
def orNull (write : Value → Json) (value : Option Value) : Json := (value.map write).getD .null

/-- The name of a command and the document of what was given to it. -/
def described : Command → String × List (String × Json)
  | init => ("init", [])
  | node overrides =>
    ("node",
     [("node_address", orNull .ofText overrides.address),
      ("node_port", orNull (.ofNat ·.toNat) overrides.port),
      ("node_mode", orNull .ofText overrides.mode),
      ("dns_address", orNull .ofText overrides.directoryAddress),
      ("dns_port", orNull (.ofNat ·.toNat) overrides.directoryPort),
      ("seed", orNull .ofText overrides.seed)])
  | status => ("status", [])
  | blocks first bound =>
    ("blocks", [("from", .ofNat first.toNat), ("to", orNull (.ofNat ·.toNat) bound)])
  | peers directory listing peer encoding =>
    ("peers",
     [("dns", orNull .ofText directory), ("query", .ofText listing.name),
      ("address", orNull .ofText peer), ("binary", .bool (encoding == .binary))])
  | address publicKey multisig =>
    ("address", [("public_key", .ofText publicKey), ("multisig", .bool multisig)])
  | validateAddress account => ("validate-address", [("address", .ofText account)])

def toJson (command : Command) : Json :=
  .ofMembers [(command.described.1, .ofMembers command.described.2)]

end Command

/-- A command and the file of the configuration. -/
structure Invocation where
  configFile : Option String
  command : Command
deriving DecidableEq

namespace Invocation

/-! ## What a command line may hold -/

def textParameter (name : String) : Parameter := ⟨name, none, true, fun _ => none⟩

/-- An option without a value. -/
def flag (name : String) : Parameter := ⟨name, none, false, fun _ => none⟩

def testedParameter (name : String) (accepts : String → Bool) : Parameter :=
  ⟨name, none, true, fun value => if accepts value then none else some .valueValidation⟩

/-- The number that a value spells, if it is not too great. -/
def number? (greatest : Nat) (text : String) : Option Nat :=
  (Numeral.ofDecimal greatest text).toOption

/-- The port that a value spells.  A zero may have a minus in front. -/
def port? (text : String) : Option UInt16 :=
  match text.toList with
  | '-' :: digits =>
    if !digits.isEmpty ∧ digits.all (· == '0') then some 0 else none
  | _ => (number? 65535 text).map .ofNat

/-- The height that a value spells. -/
def height? (text : String) : Option UInt64 := (number? (UInt64.size - 1) text).map .ofNat

def portParameter (name : String) : Parameter :=
  testedParameter name fun value => (port? value).isSome

def heightParameter (name : String) : Parameter :=
  testedParameter name fun value => (height? value).isSome

/-- The option that names the file of the configuration. -/
def configParameter : Parameter :=
  ⟨"config", none, true, fun value => if value.isEmpty then some .invalidValue else none⟩

/-- The parameters of each command, by its name. -/
def forms : List (String × List Parameter × List Parameter) :=
  [("init", [], []),
   ("node",
    [textParameter "node-address", portParameter "node-port", textParameter "node-mode",
     textParameter "dns-address", portParameter "dns-port",
     { textParameter "seed" with letter := some 's' }],
    []),
   ("status", [], []),
   ("blocks", [heightParameter "from", heightParameter "to"], []),
   ("peers", [textParameter "dns", flag "binary"],
    [testedParameter "query" fun value => (Listing.ofName? value).isSome,
     textParameter "address"]),
   ("address", [flag "multisig"], [textParameter "public-key"]),
   ("validate-address", [], [textParameter "address"])]

def commandNames : List String := forms.map (·.1)

/-- What may be in front of a command, and the commands. -/
def outerForm : LineForm := ⟨[configParameter], [], commandNames ++ ["help"]⟩

/-! ## Reading -/

/-- The command with a name and what was given to it.  Nothing if a parameter
is missing that the command needs. -/
def command? (name : String) (reading : LineReading) : Option Command :=
  let value? := reading.value?
  match name with
  | "init" => some .init
  | "node" =>
    some (.node
      { address := value? "node-address"
        port := value? "node-port" >>= port?
        mode := value? "node-mode"
        directoryAddress := value? "dns-address"
        directoryPort := value? "dns-port" >>= port?
        seed := value? "seed" })
  | "status" => some .status
  | "blocks" =>
    some (.blocks ((value? "from" >>= height?).getD 0) (value? "to" >>= height?))
  | "peers" => do
    let listing ← value? "query" >>= Listing.ofName?
    some (.peers (value? "dns") listing (value? "address")
      (if reading.has "binary" then .binary else .json))
  | "address" => do some (.address (← value? "public-key") (reading.has "multisig"))
  | "validate-address" => do some (.validateAddress (← value? "address"))
  | _ => none

/-- What becomes of a command line that asks for help. -/
def helpFault : List String → LineFault
  | [] => .displayHelp
  | [name] => if name ∈ outerForm.commands then .displayHelp else .invalidSubcommand
  | _ => .invalidSubcommand

/-- Read the part of a command line behind the name of a command. -/
def readCommand (name : String) (words : List String) :
    Except LineFault (LineReading × Command) := do
  if name = "help" then throw (helpFault words)
  let (options, positionals) := (forms.lookup name).getD ([], [])
  let form : LineForm := ⟨configParameter :: options, positionals, []⟩
  let (reading, _) ← LineReading.read form .start words
  let reading ← reading.settle
  match command? name reading with
  | some command => .ok (reading, command)
  | none => .error .missingRequiredArgument

/-- The invocation that the words of a command line spell. -/
def ofWords (words : List String) : Except LineFault Invocation := do
  let (outer, rest) ← LineReading.read outerForm .start words
  match rest with
  | none =>
    let outer ← outer.settle
    .error
      (if outer.given.isEmpty then .displayHelpOnMissingArgumentOrSubcommand
       else .missingSubcommand)
  | some (name, words) =>
    let (inner, command) ← readCommand name words
    let outer ← outer.settle
    .ok ⟨inner.value? "config" <|> outer.value? "config", command⟩

end Invocation

end LedgerNode
