import LedgerNode.Digest.Padding

namespace LedgerNode

/-!
# RIPEMD-160

The digest folds the blocks of the padded message into a state of five words.
Each block runs through two lines of eighty steps, which use its sixteen words
in different orders and with different rotations, and the outcomes of the two
lines are added crosswise.  Numbers are written least significant byte first.
-/

namespace Ripemd160

open Digest (rotateLeft)

/-- The state between steps. -/
structure State where
  a : UInt32
  b : UInt32
  c : UInt32
  d : UInt32
  e : UInt32
deriving DecidableEq

/-- The state before the first block. -/
def initial : State := ⟨0x67452301, 0xefcdab89, 0x98badcfe, 0x10325476, 0xc3d2e1f0⟩

/-- How a group of sixteen steps combines three words. -/
inductive Mixing where
  | parity
  | choice
  | orNot
  | reversedChoice
  | reversedOrNot

/-- The combination of three words. -/
def Mixing.apply (mixing : Mixing) (x y z : UInt32) : UInt32 :=
  match mixing with
  | parity => x ^^^ y ^^^ z
  | choice => (x &&& y) ||| (~~~x &&& z)
  | orNot => (x ||| ~~~y) ^^^ z
  | reversedChoice => (x &&& z) ||| (y &&& ~~~z)
  | reversedOrNot => x ^^^ (y ||| ~~~z)

/-- Sixteen steps: how they combine words, their constant, and for each step
the word of the block that it uses and its rotation. -/
structure Group where
  mixing : Mixing
  constant : UInt32
  order : List Nat
  rotations : List UInt32

def firstLine : List Group :=
  [⟨.parity, 0x00000000,
    [0, 1, 2, 3, 4, 5, 6, 7, 8, 9, 10, 11, 12, 13, 14, 15],
    [11, 14, 15, 12, 5, 8, 7, 9, 11, 13, 14, 15, 6, 7, 9, 8]⟩,
   ⟨.choice, 0x5a827999,
    [7, 4, 13, 1, 10, 6, 15, 3, 12, 0, 9, 5, 2, 14, 11, 8],
    [7, 6, 8, 13, 11, 9, 7, 15, 7, 12, 15, 9, 11, 7, 13, 12]⟩,
   ⟨.orNot, 0x6ed9eba1,
    [3, 10, 14, 4, 9, 15, 8, 1, 2, 7, 0, 6, 13, 11, 5, 12],
    [11, 13, 6, 7, 14, 9, 13, 15, 14, 8, 13, 6, 5, 12, 7, 5]⟩,
   ⟨.reversedChoice, 0x8f1bbcdc,
    [1, 9, 11, 10, 0, 8, 12, 4, 13, 3, 7, 15, 14, 5, 6, 2],
    [11, 12, 14, 15, 14, 15, 9, 8, 9, 14, 5, 6, 8, 6, 5, 12]⟩,
   ⟨.reversedOrNot, 0xa953fd4e,
    [4, 0, 5, 9, 7, 12, 2, 10, 14, 1, 3, 8, 11, 6, 15, 13],
    [9, 15, 5, 11, 6, 8, 13, 12, 5, 12, 13, 14, 11, 8, 5, 6]⟩]

def secondLine : List Group :=
  [⟨.reversedOrNot, 0x50a28be6,
    [5, 14, 7, 0, 9, 2, 11, 4, 13, 6, 15, 8, 1, 10, 3, 12],
    [8, 9, 9, 11, 13, 15, 15, 5, 7, 7, 8, 11, 14, 14, 12, 6]⟩,
   ⟨.reversedChoice, 0x5c4dd124,
    [6, 11, 3, 7, 0, 13, 5, 10, 14, 15, 8, 12, 4, 9, 1, 2],
    [9, 13, 15, 7, 12, 8, 9, 11, 7, 7, 12, 7, 6, 15, 13, 11]⟩,
   ⟨.orNot, 0x6d703ef3,
    [15, 5, 1, 3, 7, 14, 6, 9, 11, 8, 12, 2, 10, 0, 4, 13],
    [9, 7, 15, 11, 8, 6, 6, 14, 12, 13, 5, 14, 13, 13, 7, 5]⟩,
   ⟨.choice, 0x7a6d76e9,
    [8, 6, 4, 1, 3, 11, 15, 0, 5, 12, 2, 13, 9, 7, 10, 14],
    [15, 5, 8, 11, 14, 14, 6, 14, 6, 9, 12, 9, 12, 5, 15, 8]⟩,
   ⟨.parity, 0x00000000,
    [12, 15, 10, 4, 1, 5, 8, 7, 6, 2, 13, 14, 0, 3, 9, 11],
    [8, 5, 12, 9, 12, 5, 14, 6, 8, 13, 6, 5, 15, 13, 11, 11]⟩]

/-- One step with a word of the block and a rotation. -/
def step (group : Group) (words : List UInt32) (state : State) (input : Nat × UInt32) :
    State :=
  let ⟨a, b, c, d, e⟩ := state
  let mixed := a + group.mixing.apply b c d + words.getD input.1 0 + group.constant
  ⟨e, rotateLeft mixed input.2 + e, b, rotateLeft c 10, d⟩

/-- The state after a line of steps. -/
def runLine (line : List Group) (words : List UInt32) (state : State) : State :=
  line.foldl (fun state group =>
    (group.order.zip group.rotations).foldl (step group words) state) state

/-- The state after a block. -/
def absorb (state : State) (block : Bytes) : State :=
  let words := Digest.words Bytes.toNatLittleEndian block
  let first := runLine firstLine words state
  let second := runLine secondLine words state
  ⟨state.b + first.c + second.d, state.c + first.d + second.e,
   state.d + first.e + second.a, state.e + first.a + second.b,
   state.a + first.b + second.c⟩

def State.bytes (state : State) : Bytes :=
  [state.a, state.b, state.c, state.d, state.e].flatMap fun word =>
    Bytes.littleEndian 4 word.toNat

def digest (message : Bytes) : Bytes :=
  ((Digest.pieces 64 (Digest.pad (Bytes.littleEndian 8) message)).foldl absorb initial).bytes

end Ripemd160

end LedgerNode
