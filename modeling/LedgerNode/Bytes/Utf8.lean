import LedgerNode.Bytes

namespace LedgerNode

/-!
# Reading text from bytes

A byte string is read as text only when the whole of it is valid UTF-8.  A
refusal names the first place where it is not: how many bytes before it form
complete characters, and how many bytes the offending sequence has.  The
length is absent when the bytes end inside a character that could still have
been completed.
-/

/-- The first place where a byte string stops being valid UTF-8. -/
structure Utf8Fault where
  validUpTo : Nat
  length : Option Nat
deriving DecidableEq

namespace Utf8Fault

/-- One sentence about the fault. -/
def message (fault : Utf8Fault) : String :=
  match fault.length with
  | some length =>
    s!"invalid utf-8 sequence of {length} bytes from index {fault.validUpTo}"
  | none => s!"incomplete utf-8 byte sequence from index {fault.validUpTo}"

end Utf8Fault

namespace Utf8

def isContinuation (byte : UInt8) : Bool := 0x80 ≤ byte && byte ≤ 0xBF

/-- Whether `second` may follow the leading byte `first` of a character of
three bytes.  Overlong forms and surrogates are excluded here. -/
def mayFollowOfThree (first second : UInt8) : Bool :=
  (first == 0xE0 && 0xA0 ≤ second && second ≤ 0xBF) ||
  (0xE1 ≤ first && first ≤ 0xEC && isContinuation second) ||
  (first == 0xED && 0x80 ≤ second && second ≤ 0x9F) ||
  (0xEE ≤ first && first ≤ 0xEF && isContinuation second)

/-- Whether `second` may follow the leading byte `first` of a character of
four bytes.  Overlong forms and numbers above `10FFFF` are excluded here. -/
def mayFollowOfFour (first second : UInt8) : Bool :=
  (first == 0xF0 && 0x90 ≤ second && second ≤ 0xBF) ||
  (0xF1 ≤ first && first ≤ 0xF3 && isContinuation second) ||
  (first == 0xF4 && 0x80 ≤ second && second ≤ 0x8F)

/-- The first fault of the bytes that stand at position `position`, if there
is one. -/
def firstFault : (position : Nat) → Bytes → Option Utf8Fault
  | _, [] => none
  | position, first :: rest =>
    if first < 0x80 then firstFault (position + 1) rest
    else if 0xC2 ≤ first && first ≤ 0xDF then
      match rest with
      | [] => some ⟨position, none⟩
      | second :: rest =>
        if isContinuation second then firstFault (position + 2) rest
        else some ⟨position, some 1⟩
    else if 0xE0 ≤ first && first ≤ 0xEF then
      match rest with
      | [] => some ⟨position, none⟩
      | second :: rest =>
        if !mayFollowOfThree first second then some ⟨position, some 1⟩
        else match rest with
          | [] => some ⟨position, none⟩
          | third :: rest =>
            if isContinuation third then firstFault (position + 3) rest
            else some ⟨position, some 2⟩
    else if 0xF0 ≤ first && first ≤ 0xF4 then
      match rest with
      | [] => some ⟨position, none⟩
      | second :: rest =>
        if !mayFollowOfFour first second then some ⟨position, some 1⟩
        else match rest with
          | [] => some ⟨position, none⟩
          | third :: rest =>
            if !isContinuation third then some ⟨position, some 2⟩
            else match rest with
              | [] => some ⟨position, none⟩
              | fourth :: rest =>
                if isContinuation fourth then firstFault (position + 4) rest
                else some ⟨position, some 3⟩
    else some ⟨position, some 1⟩

/-- The text that the bytes spell, if they are valid UTF-8. -/
def text? (bytes : Bytes) : Option String := String.fromUTF8? ⟨bytes.toArray⟩

/-- The text that the bytes spell, or the first place where they spell none. -/
def decode (bytes : Bytes) : Except Utf8Fault String :=
  match text? bytes with
  | some text => .ok text
  | none => .error ((firstFault 0 bytes).getD ⟨0, none⟩)

end Utf8

end LedgerNode
