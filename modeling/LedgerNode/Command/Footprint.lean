import LedgerNode.Bytes.Hex
import LedgerNode.Command.Execution
import LedgerNode.Store.Engine
import LedgerNode.Text.Blank

namespace LedgerNode

/-!
# What a command looks at

A command is carried out on a machine that holds everything the command looks
at.  Which files these are depends on the configuration, which is a file
itself.  A store is a file in its folder.  Each entry of the store is a line of
this file, the key and the value in hexadecimal digits with a blank between
them.
-/

/-! ## Images of stores -/

namespace StoreImage

def line (entry : Bytes × Bytes) : String :=
  Hex.lower entry.1 ++ " " ++ Hex.lower entry.2 ++ "\n"

def text (contents : Contents) : String := String.join (contents.entries.map line)

def entry? (line : List Char) : Option (Bytes × Bytes) :=
  match Text.splitOn (· == ' ') line with
  | [key, value] => do
    let key ← (Hex.decodeLower (String.ofList key)).toOption
    let value ← (Hex.decodeLower (String.ofList value)).toOption
    some (key, value)
  | _ => none

def contents? (image : String) : Option Contents := do
  let lines := Text.splitOn (· == '\n') image.toList
  let entries ← (lines.filter (!·.isEmpty)).mapM entry?
  some (.ofList entries)

end StoreImage

/-! ## What a command reads -/

namespace Invocation

/-- The name of the file of a store in its folder. -/
def imageName : String := "ledger"

/-- The files that may hold the configuration: the one that is read, and the
one that a new configuration would be written to. -/
def configFiles (invocation : Invocation) (environment : String → Option String) :
    List String :=
  match Config.fileFor invocation.configFile environment with
  | .error _ => []
  | .ok file => [file, Path.join ((Path.parent? file).getD ".") Config.fileName]

/-- The configuration that the command works under, as far as it is known. -/
def config (invocation : Invocation) (files : FileTree)
    (environment : String → Option String) : Config :=
  match Config.load files invocation.configFile environment, invocation.command with
  | .ok config, .init => { Config.default with folder := config.folder }
  | .ok config, .node overrides => overrides.apply config
  | .ok config, _ => config
  | .error _, _ => .default

def storeFolder (invocation : Invocation) (files : FileTree)
    (environment : String → Option String) : String :=
  (invocation.config files environment).databaseFolder

/-- The file of the key that the command works with. -/
def keystoreFile (invocation : Invocation) (files : FileTree)
    (environment : String → Option String) : String :=
  (invocation.config files environment).keystoreFile

/-- Whether the command is a node that runs until it is told to stop. -/
def runsNode (invocation : Invocation) : Bool :=
  match invocation.command with
  | .node _ => true
  | _ => false

end Invocation

/-- The event that a line spells.  A number is the time to make a block up;
everything else is what a peer on the same machine sends. -/
def NodeEvent.ofLine (line : String) : NodeEvent :=
  match Numeral.ofDecimal 0x7FFFFFFFFFFFFFFF line with
  | .ok timestamp => .tick (.ofNat timestamp)
  | .error _ => .connection (.v4 Network.loopback) (Bytes.ofText line)

end LedgerNode
