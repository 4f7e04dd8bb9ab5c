import LedgerNode.Base58
import LedgerNode.Bytes.Hex
import LedgerNode.Digest.Ripemd160
import LedgerNode.Digest.Sha256

namespace LedgerNode

/-!
# Account addresses

An address is a letter for its kind, the digest of a public key in base 58, and
a checksum.  The checksum is the sum of the values of the digest's symbols,
again in base 58.  The writer takes as many symbols as the sum needs; the test
for validity takes the last two symbols for the checksum in every case.
-/

/-- What an address belongs to. -/
inductive AccountKind where
  | normal
  | multisig
deriving DecidableEq

namespace AccountKind

/-- The letter in front of an address. -/
def letter : AccountKind → Char
  | normal => 'N'
  | multisig => 'M'

def ofLetter? (letter : Char) : Option AccountKind :=
  if letter = 'N' then some normal else if letter = 'M' then some multisig else none

end AccountKind

namespace Address

/-- The sum of the values of the symbols; a character without a value spoils
it. -/
def symbolSum? (characters : List Char) : Option Nat :=
  (characters.mapM Base58.value?).map fun values => values.foldl (· + ·) 0

/-- The digest of a public key that an address shows. -/
def keyDigest (publicKey : String) : Bytes :=
  Ripemd160.digest (Bytes.ofText (Hex.upper (Sha256.digest (Bytes.ofText publicKey))))

/-- An address for the symbols between its letter and its checksum. -/
def assemble (kind : AccountKind) (body : List Char) : List Char :=
  kind.letter :: body ++ ((symbolSum? body).map Base58.numeral).getD []

def ofPublicKey (publicKey : String) (kind : AccountKind) : String :=
  String.ofList (assemble kind (Base58.encode (keyDigest publicKey)).toList)

/-- The fewest characters an address has. -/
def leastLength : Nat := 21

/-- How many characters at the end are taken for the checksum. -/
def checksumLength : Nat := 2

/-- Whether a text is an address with the checksum of its body. -/
def isValid (text : String) : Bool :=
  let characters := text.toList
  if characters.length < leastLength || characters.any (128 ≤ ·.toNat) then false
  else match characters with
    | [] => false
    | letter :: rest =>
      match AccountKind.ofLetter? letter with
      | none => false
      | some kind =>
        let body := rest.take (rest.length - checksumLength)
        (symbolSum? body).isSome && assemble kind body == characters

end Address

end LedgerNode
