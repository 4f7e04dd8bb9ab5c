import LedgerNode.Json.Reader
import LedgerNode.Json.Writer
import LedgerNode.Peer.Descriptor

namespace LedgerNode

/-!
# Frames

Nodes send each other frames, each as one document.  A connection carries any
number of them, with or without blanks between.  Reading a connection stops at
the first place where no frame can be read; the frames before it count.
-/

/-- What one node sends to another. -/
inductive Frame where
  /-- The sender introduces itself, and may tell the address at which it sees
  the receiver. -/
  | hello (peer : Peer) (observedAddress : Option String)
  | publish (topic messageId origin sender : String) (data : Bytes)
deriving DecidableEq

namespace Frame

def toJson : Frame → Json
  | hello peer observedAddress =>
    .ofMembers
      [("Hello", .ofMembers
        [("peer", peer.toJson),
         ("observed_address", (observedAddress.map Json.ofText).getD .null)])]
  | publish topic messageId origin sender data =>
    .ofMembers
      [("Publish", .ofMembers
        [("topic", .ofText topic),
         ("message_id", .ofText messageId),
         ("origin", .ofText origin),
         ("sender", .ofText sender),
         ("data", .array (data.map fun byte => .ofNat byte.toNat))])]

/-- The address in a field that may be empty or missing. -/
def observedAddress? : Option Json → Option (Option String)
  | none => some none
  | some .null => some none
  | some document => document.text?.map some

/-- The introduction that a document describes. -/
def helloOfJson? (document : Json) : Option Frame := do
  match ← document.fields? [("peer", .required), ("observed_address", .optional)] with
  | [some peer, observed] => some (hello (← Peer.ofJson? peer) (← observedAddress? observed))
  | _ => none

/-- The message that a document describes. -/
def publishOfJson? (document : Json) : Option Frame := do
  match ← document.allFields? ["topic", "message_id", "origin", "sender", "data"] with
  | [topic, messageId, origin, sender, data] =>
    some (publish (← topic.text?) (← messageId.text?) (← origin.text?) (← sender.text?)
      (← data.list? Json.u8?))
  | _ => none

def ofJson? (document : Json) : Option Frame := do
  match ← document.variant? with
  | ("Hello", some content) => helloOfJson? content
  | ("Publish", some content) => publishOfJson? content
  | _ => none

def encode (frame : Frame) : Bytes := frame.toJson.compact

/-- Read a frame from the front of a byte string. -/
def read? (bytes : Bytes) : Option (Frame × Bytes) := do
  let (document, rest) ← Json.read bytes
  some (← ofJson? document, rest)

/-- The frames of a connection, and whether it ended properly behind the last
of them. -/
def readAll (bytes : Bytes) : List Frame × Bool :=
  if (Json.skipBlanks bytes).isEmpty then ([], true)
  else match read? bytes with
    | none => ([], false)
    | some (frame, rest) =>
      if rest.length < bytes.length then
        let (frames, complete) := readAll rest
        (frame :: frames, complete)
      else ([frame], false)
termination_by bytes.length

end Frame

end LedgerNode
