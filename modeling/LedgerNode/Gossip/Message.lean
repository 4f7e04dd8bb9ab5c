import LedgerNode.Fault

namespace LedgerNode

/-!
# Messages on a topic

A message is carried from its origin to everyone who listens to its topic.  It
may pass through other nodes on the way; the listener learns who handed it
over.
-/

/-- A message as a listener receives it. -/
structure Message where
  /-- The id of the node that published the message. -/
  origin : String
  /-- The id of the node that handed the message over. -/
  receivedFrom : String
  data : Bytes
deriving DecidableEq

/-- The topic of blocks and transactions. -/
def blocksTopic : String := "blocks"

/-- A place to publish at, which may refuse everything it is given. -/
structure Outlet where
  topic : String
  refusal : Option Fault

namespace Outlet

/-- Publish some bytes.  What is taken appears as it was given. -/
def publish (outlet : Outlet) (data : Bytes) : Except Fault Bytes :=
  match outlet.refusal with
  | none => .ok data
  | some fault => .error fault

end Outlet

end LedgerNode
