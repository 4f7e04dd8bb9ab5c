import LedgerNode.Json

namespace LedgerNode

namespace Json

/-!
# Writing documents

The compact form has no blanks and is what travels between nodes.  The open
form puts each item and each member on a line of its own, two blanks deeper
than the line that opens the container, and is meant for readers.
-/

mutual

/-- A document without blanks. -/
def compact : Json → Bytes
  | .null => Bytes.ofText "null"
  | .bool value => Bytes.ofText (if value then "true" else "false")
  | .number spelling => spelling
  | .string spelling => 0x22 :: spelling ++ [0x22]
  | .array items => 0x5B :: compactItems items ++ [0x5D]
  | .object members => 0x7B :: compactMembers members ++ [0x7D]

/-- Items with a comma between them. -/
def compactItems : List Json → Bytes
  | [] => []
  | [item] => compact item
  | item :: rest => compact item ++ 0x2C :: compactItems rest

/-- Members with a comma between them. -/
def compactMembers : List (Bytes × Json) → Bytes
  | [] => []
  | [(name, value)] => 0x22 :: name ++ 0x22 :: 0x3A :: compact value
  | (name, value) :: rest =>
    0x22 :: name ++ 0x22 :: 0x3A :: (compact value ++ 0x2C :: compactMembers rest)

end

def newLine (depth : Nat) : Bytes := 0x0A :: List.replicate (2 * depth) 0x20

mutual

/-- A document over several lines, inside containers of the given depth. -/
def opened (depth : Nat) : Json → Bytes
  | .array [] => [0x5B, 0x5D]
  | .array items => 0x5B :: openedItems (depth + 1) items ++ newLine depth ++ [0x5D]
  | .object [] => [0x7B, 0x7D]
  | .object members => 0x7B :: openedMembers (depth + 1) members ++ newLine depth ++ [0x7D]
  | .null => compact .null
  | .bool value => compact (.bool value)
  | .number spelling => spelling
  | .string spelling => compact (.string spelling)

/-- Items, each on a line of its own. -/
def openedItems (depth : Nat) : List Json → Bytes
  | [] => []
  | [item] => newLine depth ++ opened depth item
  | item :: rest => newLine depth ++ opened depth item ++ 0x2C :: openedItems depth rest

/-- Members, each on a line of its own. -/
def openedMembers (depth : Nat) : List (Bytes × Json) → Bytes
  | [] => []
  | [(name, value)] =>
    newLine depth ++ 0x22 :: name ++ [0x22, 0x3A, 0x20] ++ opened depth value
  | (name, value) :: rest =>
    newLine depth ++ 0x22 :: name ++ [0x22, 0x3A, 0x20] ++ opened depth value ++
      0x2C :: openedMembers depth rest

end

def compactText (document : Json) : String := (Utf8.text? document.compact).getD ""

/-- The text of a document over several lines. -/
def openedText (document : Json) : String := (Utf8.text? (document.opened 0)).getD ""

end Json

end LedgerNode
