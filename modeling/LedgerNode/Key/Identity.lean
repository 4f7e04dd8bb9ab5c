import LedgerNode.Base58
import LedgerNode.Digest.Sha256
import LedgerNode.Fault
import LedgerNode.Key.Document
import LedgerNode.Text.Blank

namespace LedgerNode

/-!
# The identity of a node

A node is known by its id, which is the digest of its public key in base 58.
The key is kept in a file of two lines, the key document and the public key,
both in small hexadecimal digits.  Blanks around the lines, blank lines and
further lines do not count.  The two lines must belong together, so that a
damaged file cannot give the node another id.
-/

/-- The key of a node. -/
structure Identity where
  document : Bytes
  publicKey : Bytes
deriving DecidableEq

namespace Identity

def idOf (publicKey : Bytes) : String := Base58.encode (Sha256.digest publicKey)

def id (identity : Identity) : String := idOf identity.publicKey

/-- The identity with a given private key. -/
def ofSecret (secret : Nat) : Identity :=
  ⟨KeyDocument.ofSecret secret, Curve.publicKey secret⟩

def publicKeyOf (document : Bytes) : Except Fault Bytes :=
  (KeyDocument.publicKey document).mapError fun rejection =>
    .crypto (.keyRejected rejection)

/-- The lines of a text that are not blank, without the blanks around them. -/
def significantLines (text : String) : List String :=
  let lines := (Text.splitOn (· == '\n') text.toList).map Text.trim
  (lines.filter (!·.isEmpty)).map String.ofList

def readLine (subject line : String) : Except Fault Bytes :=
  (Hex.decodeLower line).mapError fun fault => .crypto (.badLine subject fault)

/-- The identity that the text of a file spells.  The path occurs in refusals
only. -/
def ofText (path text : String) : Except Fault Identity :=
  match significantLines text with
  | documentLine :: publicLine :: _ => do
    let document ← readLine "private key" documentLine
    let publicKey ← readLine "public key" publicLine
    if (← publicKeyOf document) = publicKey then .ok ⟨document, publicKey⟩
    else .error (.crypto (.mismatchedPair path))
  | _ => .error (.crypto (.missingLines path))

/-- The identity in a file with the given content, if the file exists. -/
def ofFile (path : String) : Option Bytes → Except Fault Identity
  | none => .error (.file .missing)
  | some content =>
    match Utf8.text? content with
    | none => .error (.file .notText)
    | some text => ofText path text

def text (identity : Identity) : String :=
  Hex.lower identity.document ++ "\n" ++ Hex.lower identity.publicKey ++ "\n"

/-- The identity in a file, or a new one with a given private key if there is
no file. -/
def ofFileOrSecret (path : String) (content : Option Bytes) (secret : Nat) :
    Except Fault Identity :=
  match content with
  | some content => ofFile path (some content)
  | none => .ok (ofSecret secret)

end Identity

end LedgerNode
