import LedgerNode.Config.Toml
import LedgerNode.File.Tree
import LedgerNode.Net.Network
import LedgerNode.Peer.Mode

namespace LedgerNode

/-!
# The configuration of a node

A configuration is read from a settings document.  A field that the document
leaves out has its default, and so has every field when there is no document.
Two variables of the environment overrule the document: one sets the address
and the port to listen at, the other sets the mode.

The mode is kept as the text that was given, so that an unknown mode is
reported by whoever needs it.
-/

/-- How a node takes part in the net. -/
structure NodeSettings where
  address : String
  port : UInt16
  /-- The name of the mode, known or not. -/
  mode : String
  /-- The node to introduce oneself to. -/
  bootstrap : Option String
  generatorSeconds : UInt64
  generates : Bool
deriving DecidableEq

/-- Where the directory listens. -/
structure DirectorySettings where
  address : String
  port : UInt16
deriving DecidableEq

/-- The configuration of a node. -/
structure Config where
  /-- The folder of the key file and, unless said otherwise, of the store. -/
  folder : String
  /-- The file that the configuration was read from. -/
  source : Option String
  logLevel : String
  /-- A relative path starts from the folder of the configuration. -/
  databasePath : String
  node : NodeSettings
  directory : DirectorySettings
deriving DecidableEq

namespace NodeSettings

/-- A node that everybody can reach and that makes blocks up. -/
def default : NodeSettings where
  address := "0.0.0.0"
  port := 45050
  mode := NodeMode.node.name
  bootstrap := none
  generatorSeconds := 5
  generates := true

def ofToml? (value : Toml) : Option NodeSettings := do
  match ← value.fields?
      ["address", "port", "mode", "bootstrap", "generator_interval_secs",
       "dev_generator"] with
  | [address, port, mode, bootstrap, generatorSeconds, generates] =>
    some
      { address := ← Toml.orDefault default.address Toml.text? address
        port := ← Toml.orDefault default.port Toml.u16? port
        mode := ← Toml.orDefault default.mode Toml.text? mode
        bootstrap := ← Toml.orDefault none (fun value => value.text?.map some) bootstrap
        generatorSeconds :=
          ← Toml.orDefault default.generatorSeconds Toml.u64? generatorSeconds
        generates := ← Toml.orDefault default.generates Toml.bool? generates }
  | _ => none

end NodeSettings

namespace DirectorySettings

/-- A directory that answers the machine itself only. -/
def default : DirectorySettings := ⟨"127.0.0.1", 8080⟩

def ofToml? (value : Toml) : Option DirectorySettings := do
  match ← value.fields? ["address", "port"] with
  | [address, port] =>
    some
      { address := ← Toml.orDefault default.address Toml.text? address
        port := ← Toml.orDefault default.port Toml.u16? port }
  | _ => none

end DirectorySettings

namespace Config

/-- The name of the folder that holds everything by default. -/
def folderName : String := ".nosod"

def fileName : String := "config.toml"

/-- The name of the file of a node's key. -/
def keystoreName : String := "keystore"

/-- The configuration without any document. -/
def default : Config where
  folder := folderName
  source := none
  logLevel := "info"
  databasePath := "data"
  node := .default
  directory := .default

/-! ## Documents -/

def ofToml? (document : Toml) : Option Config := do
  match ← document.fields? ["log_level", "database_path", "node", "dns"] with
  | [logLevel, databasePath, node, directory] =>
    some
      { default with
        logLevel := ← Toml.orDefault default.logLevel Toml.text? logLevel
        databasePath := ← Toml.orDefault default.databasePath Toml.text? databasePath
        node := ← Toml.orDefault .default NodeSettings.ofToml? node
        directory := ← Toml.orDefault .default DirectorySettings.ofToml? directory }
  | _ => none

def ofText (text : String) : Except Fault Config :=
  match Toml.ofText? text >>= ofToml? with
  | some config => .ok config
  | none => .error (.config (.malformed none))

/-- The lines of the document of a new configuration. -/
def newDocumentLines : List String :=
  [s!"log_level = \"{default.logLevel}\"",
   s!"database_path = \"{default.databasePath}\"",
   "",
   "[node]",
   s!"address = \"{default.node.address}\"",
   s!"port = {default.node.port}",
   s!"mode = \"{default.node.mode}\"",
   s!"generator_interval_secs = {default.node.generatorSeconds}",
   s!"dev_generator = {default.node.generates}",
   "",
   "[dns]",
   s!"address = \"{default.directory.address}\"",
   s!"port = {default.directory.port}"]

/-- The document of a new configuration, which spells every default. -/
def newDocument : String := "\n".intercalate newDocumentLines ++ "\n"

/-- The document of the settings in a file of their own. -/
def toJson (config : Config) : Json :=
  .ofMembers
    [("log_level", .ofText config.logLevel),
     ("database_path", .ofText config.databasePath),
     ("node",
      .ofMembers
        [("address", .ofText config.node.address),
         ("port", .ofNat config.node.port.toNat),
         ("mode", .ofText config.node.mode),
         ("bootstrap", (config.node.bootstrap.map Json.ofText).getD .null),
         ("generator_interval_secs", .ofNat config.node.generatorSeconds.toNat),
         ("dev_generator", .bool config.node.generates)]),
     ("dns",
      .ofMembers
        [("address", .ofText config.directory.address),
         ("port", .ofNat config.directory.port.toNat)])]

/-! ## The environment -/

/-- The configuration of a node that listens at an address with a port. -/
def withNodeAddress (config : Config) (address : String) : Except Fault Config :=
  match Host.splitPort? address with
  | none => .error (.config (.missingPort address))
  | some (host, port) =>
    match Numeral.ofDecimal 65535 port with
    | .error fault => .error (.config (.badPort address fault))
    | .ok port =>
      .ok { config with node := { config.node with address := host, port := .ofNat port } }

/-- The configuration under the variables of an environment. -/
def withEnvironment (config : Config) (environment : String → Option String) :
    Except Fault Config := do
  let config ←
    match environment "NODE_ADDRESS" with
    | some address => config.withNodeAddress address
    | none => .ok config
  match environment "NODE_MODE" with
  | some mode => .ok { config with node := { config.node with mode } }
  | none => .ok config

/-! ## Files -/

/-- The folder of the configuration of whoever lives in a home folder. -/
def homeFolder (environment : String → Option String) : Except Fault String :=
  match environment "HOME" with
  | some home => .ok (Path.join home folderName)
  | none => .error (.config .noHome)

/-- The file to read a configuration from, which is the given one if there is
one. -/
def fileFor (given : Option String) (environment : String → Option String) :
    Except Fault String := do
  match given with
  | some file => .ok file
  | none => .ok (Path.join (← homeFolder environment) fileName)

/-- The configuration in a file that may be missing, before the environment is
looked at. -/
def ofFile (tree : FileTree) (file : String) : Except Fault Config := do
  if tree.holds file then
    match Utf8.text? (← tree.read file) with
    | none => .error (.file .notText)
    | some text =>
      match ofText text with
      | .ok config => .ok { config with source := some file }
      | .error _ => .error (.config (.malformed (some file)))
  else .ok default

/-- The configuration in the given file, or else in the one of the home
folder. -/
def load (tree : FileTree) (given : Option String) (environment : String → Option String) :
    Except Fault Config := do
  let file ← fileFor given environment
  let config ← ofFile tree file
  withEnvironment { config with folder := (Path.parent? file).getD "." } environment

/-- Write the document of a new configuration into a folder.  The answer is
its path.  A document that is there already stays. -/
def writeNew (tree : FileTree) (folder : String) : Except Fault (String × FileTree) := do
  let file := Path.join folder fileName
  if tree.holds file then .error (.config (.alreadyExists file))
  else
    let tree ← tree.makeFolder folder
    let tree ← tree.write file (Bytes.ofText newDocument)
    .ok (file, tree)

/-! ## What follows from a configuration -/

def mode (config : Config) : Except Fault NodeMode := NodeMode.ofName config.node.mode

def databaseFolder (config : Config) : String := Path.join config.folder config.databasePath

/-- The file of the node's key. -/
def keystoreFile (config : Config) : String := Path.join config.folder keystoreName

/-- Where the node listens. -/
def nodeEndpoint (config : Config) : String := s!"{config.node.address}:{config.node.port}"

/-- Where the directory listens. -/
def directoryEndpoint (config : Config) : String :=
  s!"{config.directory.address}:{config.directory.port}"

end Config

end LedgerNode
