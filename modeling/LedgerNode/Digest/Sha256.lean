import LedgerNode.Digest.Padding

namespace LedgerNode

/-!
# SHA-256

The digest folds the blocks of the padded message into a state of eight words.
Each block is stretched into a schedule of sixty-four words, and each word of
the schedule takes the state one round further.  Numbers are written most
significant byte first.
-/

namespace Sha256

open Digest (rotateRight)

/-- The state between rounds. -/
structure State where
  a : UInt32
  b : UInt32
  c : UInt32
  d : UInt32
  e : UInt32
  f : UInt32
  g : UInt32
  h : UInt32
deriving DecidableEq

/-- The state before the first block. -/
def initial : State :=
  ⟨0x6a09e667, 0xbb67ae85, 0x3c6ef372, 0xa54ff53a,
   0x510e527f, 0x9b05688c, 0x1f83d9ab, 0x5be0cd19⟩

/-- One constant for each round. -/
def constants : List UInt32 :=
  [0x428a2f98, 0x71374491, 0xb5c0fbcf, 0xe9b5dba5, 0x3956c25b, 0x59f111f1, 0x923f82a4, 0xab1c5ed5,
   0xd807aa98, 0x12835b01, 0x243185be, 0x550c7dc3, 0x72be5d74, 0x80deb1fe, 0x9bdc06a7, 0xc19bf174,
   0xe49b69c1, 0xefbe4786, 0x0fc19dc6, 0x240ca1cc, 0x2de92c6f, 0x4a7484aa, 0x5cb0a9dc, 0x76f988da,
   0x983e5152, 0xa831c66d, 0xb00327c8, 0xbf597fc7, 0xc6e00bf3, 0xd5a79147, 0x06ca6351, 0x14292967,
   0x27b70a85, 0x2e1b2138, 0x4d2c6dfc, 0x53380d13, 0x650a7354, 0x766a0abb, 0x81c2c92e, 0x92722c85,
   0xa2bfe8a1, 0xa81a664b, 0xc24b8b70, 0xc76c51a3, 0xd192e819, 0xd6990624, 0xf40e3585, 0x106aa070,
   0x19a4c116, 0x1e376c08, 0x2748774c, 0x34b0bcb5, 0x391c0cb3, 0x4ed8aa4a, 0x5b9cca4f, 0x682e6ff3,
   0x748f82ee, 0x78a5636f, 0x84c87814, 0x8cc70208, 0x90befffa, 0xa4506ceb, 0xbef9a3f7, 0xc67178f2]

/-- The word that follows the words of a schedule, which are given newest
first. -/
def nextWord (newest : List UInt32) : UInt32 :=
  let near := newest.getD 1 0
  let far := newest.getD 14 0
  (rotateRight near 17 ^^^ rotateRight near 19 ^^^ (near >>> 10)) + newest.getD 6 0 +
    (rotateRight far 7 ^^^ rotateRight far 18 ^^^ (far >>> 3)) + newest.getD 15 0

/-- Add `count` words to a schedule that is given newest first. -/
def extend : (count : Nat) → List UInt32 → List UInt32
  | 0, newest => newest
  | count + 1, newest => extend count (nextWord newest :: newest)

/-- The sixty-four words of a block, oldest first. -/
def schedule (block : Bytes) : List UInt32 :=
  (extend 48 (Digest.words Bytes.toNatBigEndian block).reverse).reverse

/-- One round with its constant and its word of the schedule. -/
def round (state : State) (input : UInt32 × UInt32) : State :=
  let ⟨a, b, c, d, e, f, g, h⟩ := state
  let mixed := h + (rotateRight e 6 ^^^ rotateRight e 11 ^^^ rotateRight e 25) +
    ((e &&& f) ^^^ (~~~e &&& g)) + input.1 + input.2
  let carried := (rotateRight a 2 ^^^ rotateRight a 13 ^^^ rotateRight a 22) +
    ((a &&& b) ^^^ (a &&& c) ^^^ (b &&& c))
  ⟨mixed + carried, a, b, c, d + mixed, e, f, g⟩

/-- Add two states word by word. -/
def State.add (first second : State) : State :=
  ⟨first.a + second.a, first.b + second.b, first.c + second.c, first.d + second.d,
   first.e + second.e, first.f + second.f, first.g + second.g, first.h + second.h⟩

/-- The state after a block. -/
def absorb (state : State) (block : Bytes) : State :=
  state.add ((constants.zip (schedule block)).foldl round state)

/-- The words of a state in order. -/
def State.words (state : State) : List UInt32 :=
  [state.a, state.b, state.c, state.d, state.e, state.f, state.g, state.h]

def State.bytes (state : State) : Bytes :=
  state.words.flatMap fun word => Bytes.bigEndian 4 word.toNat

def digest (message : Bytes) : Bytes :=
  ((Digest.pieces 64 (Digest.pad (Bytes.bigEndian 8) message)).foldl absorb initial).bytes

end Sha256

end LedgerNode
