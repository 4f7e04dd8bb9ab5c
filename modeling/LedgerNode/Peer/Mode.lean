import LedgerNode.Fault
import LedgerNode.Json.Record

namespace LedgerNode

/-!
# Modes of a node

The mode decides which services a node offers: taking part in gossip, and
answering questions about its peers.
-/

/-- The part that a node plays for as long as it runs. -/
inductive NodeMode where
  | dns
  | seed
  | supernode
  | node
deriving DecidableEq, Inhabited

namespace NodeMode

/-- All modes, in the order of their numbers. -/
def all : List NodeMode := [dns, seed, supernode, node]

def name : NodeMode → String
  | dns => "dns"
  | seed => "seed"
  | supernode => "supernode"
  | node => "node"

/-- Whether the node passes blocks and transactions on. -/
def gossips (mode : NodeMode) : Bool := mode != dns

/-- Whether the node answers questions about its peers. -/
def servesDirectory (mode : NodeMode) : Bool := mode != node

def ofName? (name : String) : Option NodeMode := all.find? (·.name == name)

def ofName (name : String) : Except Fault NodeMode :=
  match ofName? name with
  | some mode => .ok mode
  | none => .error (.invalidMode name)

def index : NodeMode → Fin 4
  | dns => ⟨0, by decide⟩
  | seed => ⟨1, by decide⟩
  | supernode => ⟨2, by decide⟩
  | node => ⟨3, by decide⟩

def ofIndex : Fin 4 → NodeMode
  | 0 => dns
  | 1 => seed
  | 2 => supernode
  | 3 => node

/-- The binary form of a mode. -/
def codec : Codec NodeMode :=
  .via (.variant "NodeMode" 4 fun _ => .unit) (fun value => ofIndex value.1)
    (fun mode => ⟨mode.index, ()⟩)

def toJson (mode : NodeMode) : Json := .ofText mode.name

def ofJson? (document : Json) : Option NodeMode := document.unitVariant? >>= ofName?

end NodeMode

end LedgerNode
