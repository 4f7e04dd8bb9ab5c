import LedgerNode.Gossip.Channel
import LedgerNode.Ledger.Integrity

namespace LedgerNode

/-!
# Outcomes as documents

What became of a block, of a message or of the whole ledger can be told as a
document, for whoever watches a node from outside.
-/

namespace Ledger

/-- The document that tells how the ledger was found. -/
def StartOutcome.toJson (outcome : StartOutcome) : Json :=
  .ofMembers [(outcome.name, outcome.cursor.toJson)]

/-- The document of a cursor that may be missing. -/
def cursorToJson (cursor : Option Cursor) : Json := (cursor.map Cursor.toJson).getD .null

/-- The document that tells the end of the chain and the cursor. -/
def Report.toJson (report : Report) : Json :=
  .ofMembers
    [("tip", cursorToJson report.tip),
     ("cursor", cursorToJson report.cursor),
     ("current", .bool report.isCurrent)]

/-- The document that tells what became of a block. -/
def Acceptance.toJson : Acceptance → Json
  | extended tip => .ofMembers [("Extended", tip.toJson)]
  | held => .ofText "Held"
  | duplicate => .ofText "Duplicate"
  | conflicting existing => .ofMembers [("Conflicting", .ofText existing)]
  | rejected => .ofText "Rejected"

end Ledger

/-- The document that tells what became of a message. -/
def Delivery.toJson : Delivery → Json
  | selfOriginated => .ofText "SelfOriginated"
  | undecodable => .ofText "Undecodable"
  | block height acceptance =>
    .ofMembers [("Block", .array [.ofNat height.toNat, acceptance.toJson])]
  | transactions stored => .ofMembers [("Transactions", .ofNat stored)]

end LedgerNode
