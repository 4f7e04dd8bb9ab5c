import LedgerNode.Json

namespace LedgerNode

namespace Json

/-!
# Reading documents

A reader takes a document from the front of a byte string and returns the
bytes behind it.  Blanks may stand before every token.  Objects, arrays and
strings end themselves; a number ends where the next byte cannot continue it.

Nesting is bounded by the number of bytes alone.  The readers of containers
call one another, and each round of calls uses up at least one byte, so the
number of bytes bounds the depth of the calls too.
-/

/-- A blank between tokens. -/
def isBlank (byte : UInt8) : Bool :=
  byte == 0x20 || byte == 0x0A || byte == 0x09 || byte == 0x0D

def skipBlanks (bytes : Bytes) : Bytes := bytes.dropWhile isBlank

def isDigit (byte : UInt8) : Bool := 0x30 ≤ byte && byte ≤ 0x39

/-- Read the spelling of a string up to its closing quote.  Escapes are
checked for their form only. -/
def readString : Bytes → Option (Bytes × Bytes)
  | [] => none
  | 0x22 :: rest => some ([], rest)
  | 0x5C :: 0x75 :: a :: b :: c :: d :: rest => do
    let _ ← ofHexDigits? a b c d
    let (spelling, rest) ← readString rest
    some (0x5C :: 0x75 :: a :: b :: c :: d :: spelling, rest)
  | 0x5C :: letter :: rest => do
    let _ ← simpleEscape? letter
    let (spelling, rest) ← readString rest
    some (0x5C :: letter :: spelling, rest)
  | byte :: rest =>
    if byte < 0x20 then none
    else do
      let (spelling, rest) ← readString rest
      some (byte :: spelling, rest)

def readDigits (bytes : Bytes) : Option (Bytes × Bytes) :=
  let digits := bytes.takeWhile isDigit
  if digits.isEmpty then none else some (digits, bytes.dropWhile isDigit)

/-- Read the part of a number before the point.  A leading zero stands alone. -/
def readWhole : Bytes → Option (Bytes × Bytes)
  | 0x30 :: rest =>
    match rest with
    | next :: _ => if isDigit next then none else some ([0x30], rest)
    | [] => some ([0x30], rest)
  | bytes => readDigits bytes

def readFraction : Bytes → Option (Bytes × Bytes)
  | 0x2E :: rest => (readDigits rest).map fun (digits, rest) => (0x2E :: digits, rest)
  | bytes => some ([], bytes)

/-- Read the minus in front of a number, if there is one. -/
def readMinus : Bytes → Bytes × Bytes
  | 0x2D :: rest => ([0x2D], rest)
  | bytes => ([], bytes)

def readSign : Bytes → Bytes × Bytes
  | 0x2B :: rest => ([0x2B], rest)
  | 0x2D :: rest => ([0x2D], rest)
  | bytes => ([], bytes)

def readExponent : Bytes → Option (Bytes × Bytes)
  | letter :: rest =>
    if letter = 0x65 ∨ letter = 0x45 then do
      let (sign, rest) := readSign rest
      let (digits, rest) ← readDigits rest
      some (letter :: (sign ++ digits), rest)
    else some ([], letter :: rest)
  | [] => some ([], [])

def readNumber (bytes : Bytes) : Option (Bytes × Bytes) := do
  let (sign, rest) := readMinus bytes
  let (whole, rest) ← readWhole rest
  let (fraction, rest) ← readFraction rest
  let (exponent, rest) ← readExponent rest
  some (sign ++ whole ++ fraction ++ exponent, rest)

def readWord (word : String) (document : Json) (bytes : Bytes) : Option (Json × Bytes) :=
  let word := Bytes.ofText word
  if word.isPrefixOf bytes then some (document, bytes.drop word.length) else none

/-- Read the name of a member and the colon behind it. -/
def readName (bytes : Bytes) : Option (Bytes × Bytes) :=
  match skipBlanks bytes with
  | 0x22 :: rest => do
    let (name, rest) ← readString rest
    match skipBlanks rest with
    | 0x3A :: rest => some (name, rest)
    | _ => none
  | _ => none

mutual

/-- Read a document with at most `fuel` nested calls. -/
def readValue : (fuel : Nat) → Bytes → Option (Json × Bytes)
  | 0, _ => none
  | fuel + 1, bytes =>
    match skipBlanks bytes with
    | [] => none
    | 0x6E :: rest => readWord "null" .null (0x6E :: rest)
    | 0x74 :: rest => readWord "true" (.bool true) (0x74 :: rest)
    | 0x66 :: rest => readWord "false" (.bool false) (0x66 :: rest)
    | 0x22 :: rest =>
      (readString rest).map fun (spelling, rest) => (.string spelling, rest)
    | 0x5B :: rest =>
      match skipBlanks rest with
      | 0x5D :: rest => some (.array [], rest)
      | rest => (readItems fuel rest).map fun (items, rest) => (.array items, rest)
    | 0x7B :: rest =>
      match skipBlanks rest with
      | 0x7D :: rest => some (.object [], rest)
      | rest => (readMembers fuel rest).map fun (members, rest) => (.object members, rest)
    | rest => (readNumber rest).map fun (spelling, rest) => (.number spelling, rest)

/-- Read the items of an array, at least one, and its closing bracket. -/
def readItems : (fuel : Nat) → Bytes → Option (List Json × Bytes)
  | 0, _ => none
  | fuel + 1, bytes => do
    let (item, rest) ← readValue fuel bytes
    match skipBlanks rest with
    | 0x2C :: rest =>
      let (items, rest) ← readItems fuel rest
      some (item :: items, rest)
    | 0x5D :: rest => some ([item], rest)
    | _ => none

/-- Read the members of an object, at least one, and its closing brace. -/
def readMembers : (fuel : Nat) → Bytes → Option (List (Bytes × Json) × Bytes)
  | 0, _ => none
  | fuel + 1, bytes => do
    let (name, rest) ← readName bytes
    let (value, rest) ← readValue fuel rest
    match skipBlanks rest with
    | 0x2C :: rest =>
      let (members, rest) ← readMembers fuel rest
      some ((name, value) :: members, rest)
    | 0x7D :: rest => some ([(name, value)], rest)
    | _ => none

end

/-- Read a document from the front of a byte string. -/
def read (bytes : Bytes) : Option (Json × Bytes) :=
  readValue (2 * bytes.length + 1) bytes

/-- Read a document that must take all of the bytes, blanks aside. -/
def readWholeText (bytes : Bytes) : Option Json := do
  let (document, rest) ← read bytes
  if (skipBlanks rest).isEmpty then some document else none

end Json

end LedgerNode
