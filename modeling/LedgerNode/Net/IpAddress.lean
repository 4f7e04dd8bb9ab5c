import LedgerNode.Net.Numeral

namespace LedgerNode

/-!
# Internet addresses

An address of four bytes is written as decimal numbers between dots, without
leading zeros.  An address of eight groups is written in hexadecimal between
colons; one run of zero groups may be left out, and the last two groups may
have the form of the shorter kind.

Each reader takes as much as it can from the front of a text and returns what
is left.  A text is an address when nothing is left.
-/

/-- An address of four bytes. -/
structure Ipv4 where
  first : UInt8
  second : UInt8
  third : UInt8
  fourth : UInt8
deriving DecidableEq

/-- An address of eight groups of sixteen bits. -/
structure Ipv6 where
  groups : List UInt16
  eight : groups.length = 8
deriving DecidableEq

/-- An address of either kind. -/
inductive IpAddress where
  | v4 (address : Ipv4)
  | v6 (address : Ipv6)
deriving DecidableEq

/-! ## Addresses of four bytes -/

namespace Ipv4

def byteForm : Numeral.Form := ⟨10, some 3, false, 255⟩

/-- Read an address from the front. -/
def read (text : List Char) : Option (Ipv4 × List Char) := do
  let (first, rest) ← Numeral.read byteForm text
  let rest ← readCharacter '.' rest
  let (second, rest) ← Numeral.read byteForm rest
  let rest ← readCharacter '.' rest
  let (third, rest) ← Numeral.read byteForm rest
  let rest ← readCharacter '.' rest
  let (fourth, rest) ← Numeral.read byteForm rest
  some (⟨.ofNat first, .ofNat second, .ofNat third, .ofNat fourth⟩, rest)

def text (address : Ipv4) : String :=
  s!"{address.first}.{address.second}.{address.third}.{address.fourth}"

/-- The address that stands for every address of the machine. -/
def unspecified : Ipv4 := ⟨0, 0, 0, 0⟩

end Ipv4

/-! ## Addresses of eight groups -/

namespace Ipv6

def groupForm : Numeral.Form := ⟨16, some 4, true, 65535⟩

/-- Read a colon, unless nothing stands in front of it. -/
def readSeparator (isFirst : Bool) (text : List Char) : Option (List Char) :=
  if isFirst then some text else readCharacter ':' text

/-- Read up to `room` groups between colons.  The answer tells whether the
last two were given as four bytes; then no group may follow. -/
def readGroups (isFirst : Bool) :
    (room : Nat) → List Char → List UInt16 × Bool × List Char
  | 0, text => ([], false, text)
  | room + 1, text =>
    let embedded :=
      if room = 0 then none else readSeparator isFirst text >>= Ipv4.read
    match embedded with
    | some (⟨a, b, c, d⟩, rest) =>
      ([.ofNat (256 * a.toNat + b.toNat), .ofNat (256 * c.toNat + d.toNat)], true, rest)
    | none =>
      match readSeparator isFirst text >>= Numeral.read groupForm with
      | none => ([], false, text)
      | some (group, rest) =>
        let (groups, asBytes, rest) := readGroups false room rest
        (.ofNat group :: groups, asBytes, rest)

/-- The address with the given groups at its ends and zeros between them. -/
def ofEnds? (front back : List UInt16) : Option Ipv6 :=
  let groups := front ++ List.replicate (8 - front.length - back.length) 0 ++ back
  if eight : groups.length = 8 then some ⟨groups, eight⟩ else none

/-- Read an address from the front. -/
def read (text : List Char) : Option (Ipv6 × List Char) := do
  let (front, asBytes, rest) := readGroups true 8 text
  if front.length = 8 then
    return (← ofEnds? front [], rest)
  else if asBytes then none
  else
    let rest ← readCharacter ':' rest
    let rest ← readCharacter ':' rest
    let (back, _, rest) := readGroups true (7 - front.length) rest
    return (← ofEnds? front back, rest)

/-- Groups in hexadecimal between colons. -/
def joinGroups (groups : List UInt16) : String :=
  ":".intercalate (groups.map fun group => String.ofList (Nat.toDigits 16 group.toNat))

/-- The longest run of zero groups, the first of them if there are several:
its start and its length. -/
def longestZeroRun (groups : List UInt16) : Nat × Nat :=
  let runs := (List.range groups.length).map fun start =>
    (start, ((groups.drop start).takeWhile (· == 0)).length)
  runs.foldl (fun best run => if best.2 < run.2 then run else best) (0, 0)

/-- The four bytes of an address that stands for a shorter one. -/
def mapped? (address : Ipv6) : Option Ipv4 :=
  match address.groups with
  | [0, 0, 0, 0, 0, 0xFFFF, high, low] =>
    some ⟨.ofNat (high.toNat / 256), .ofNat (high.toNat % 256),
      .ofNat (low.toNat / 256), .ofNat (low.toNat % 256)⟩
  | _ => none

/-- The address as a text.  The longest run of at least two zero groups is
left out. -/
def text (address : Ipv6) : String :=
  match address.mapped? with
  | some shorter => "::ffff:" ++ shorter.text
  | none =>
    let (start, length) := longestZeroRun address.groups
    if length ≤ 1 then joinGroups address.groups
    else joinGroups (address.groups.take start) ++ "::" ++
      joinGroups (address.groups.drop (start + length))

/-- The address that stands for every address of the machine. -/
def unspecified : Ipv6 := ⟨List.replicate 8 0, rfl⟩

end Ipv6

/-! ## Addresses of either kind -/

namespace IpAddress

def ofText? (text : String) : Option IpAddress :=
  match Ipv4.read text.toList with
  | some (address, rest) => if rest.isEmpty then some (v4 address) else none
  | none =>
    match Ipv6.read text.toList with
    | some (address, rest) => if rest.isEmpty then some (v6 address) else none
    | none => none

def text : IpAddress → String
  | v4 address => address.text
  | v6 address => address.text

/-- Whether the address stands for every address of the machine. -/
def isUnspecified : IpAddress → Bool
  | v4 address => address == .unspecified
  | v6 address => address == .unspecified

end IpAddress

end LedgerNode
