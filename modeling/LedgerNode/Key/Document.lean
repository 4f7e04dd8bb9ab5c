import LedgerNode.Key.Curve
import LedgerNode.Key.Der

namespace LedgerNode

/-!
# Key documents

A key document holds a private key of the curve together with its public key.
It names the algorithm and the curve, and contains a second document with the
key itself.  A document is accepted only if the public key belongs to the
private one.
-/

/-! ## Refusals -/

/-- Why a document is not a usable private key. -/
inductive KeyRejection where
  | invalidEncoding
  | versionNotSupported
  | wrongAlgorithm
  | invalidComponent
  /-- The public key of the document does not belong to its private key. -/
  | inconsistentComponents
deriving DecidableEq

namespace KeyRejection

/-- The name of the reason. -/
def message : KeyRejection → String
  | invalidEncoding => "InvalidEncoding"
  | versionNotSupported => "VersionNotSupported"
  | wrongAlgorithm => "WrongAlgorithm"
  | invalidComponent => "InvalidComponent"
  | inconsistentComponents => "InconsistentComponents"

end KeyRejection

namespace KeyDocument

/-! ## Reading -/

def curveName : Bytes :=
  [0x06, 0x08, 0x2A, 0x86, 0x48, 0xCE, 0x3D, 0x03, 0x01, 0x07]

/-- The elements that name the algorithm and the curve. -/
def algorithm : Bytes :=
  [0x06, 0x07, 0x2A, 0x86, 0x48, 0xCE, 0x3D, 0x02, 0x01] ++ curveName

/-- The content of an element, or the refusal of its form. -/
def orInvalid (outcome : Option Value) : Except KeyRejection Value :=
  match outcome with
  | some value => .ok value
  | none => .error .invalidEncoding

/-- Nothing may follow the last element. -/
def expectEnd (rest : Bytes) : Except KeyRejection Unit :=
  if rest.isEmpty then .ok () else .error .invalidEncoding

/-- Read the elements of the outer document.  The answer is the inner one. -/
def readOuter (content : Bytes) : Except KeyRejection Bytes := do
  let (version, rest) ← orInvalid (Der.readSmallInteger content)
  if 1 < version then throw .versionNotSupported
  let (named, rest) ← orInvalid (Der.read Der.sequenceTag rest)
  if named ≠ algorithm then throw .wrongAlgorithm
  if version ≠ 0 then throw .versionNotSupported
  let (inner, rest) ← orInvalid (Der.read Der.octetStringTag rest)
  if Der.isNext (Der.contextTag 0) rest then
    let (_, rest) ← orInvalid (Der.read (Der.contextTag 0) rest)
    expectEnd rest
  else expectEnd rest
  return inner

/-- Read the public key that ends the inner document. -/
def readPublicKey (bytes : Bytes) : Except KeyRejection Bytes := do
  let (content, rest) ← orInvalid (Der.read (Der.contextTag 1) bytes)
  let (publicKey, inside) ← orInvalid (Der.readBitString content)
  expectEnd inside
  expectEnd rest
  return publicKey

/-- Read the elements of the inner document: the private and the public key. -/
def readInner (content : Bytes) : Except KeyRejection (Bytes × Bytes) := do
  let (version, rest) ← orInvalid (Der.readSmallInteger content)
  if version ≠ 1 then throw .versionNotSupported
  let (secret, rest) ← orInvalid (Der.read Der.octetStringTag rest)
  if Der.isNext (Der.contextTag 0) rest then
    let (named, rest) ← orInvalid (Der.read (Der.contextTag 0) rest)
    if named ≠ curveName then throw .wrongAlgorithm
    return (secret, ← readPublicKey rest)
  else return (secret, ← readPublicKey rest)

/-- The content of a document that is one sequence. -/
def readSequence (bytes : Bytes) : Except KeyRejection (Bytes × Bytes) :=
  orInvalid (Der.read Der.sequenceTag bytes)

def readSecret (bytes : Bytes) : Except KeyRejection Nat :=
  let secret := Bytes.toNatBigEndian bytes
  if bytes.length = 32 ∧ 0 < secret ∧ secret < Curve.order then .ok secret
  else .error .invalidComponent

def publicKey (document : Bytes) : Except KeyRejection Bytes := do
  let (outer, rest) ← readSequence document
  let innerDocument ← readOuter outer
  expectEnd rest
  let (inner, rest) ← readSequence innerDocument
  let (secretBytes, publicKey) ← readInner inner
  expectEnd rest
  let secret ← readSecret secretBytes
  if publicKey = Curve.publicKey secret then return publicKey
  else throw .inconsistentComponents

/-! ## Writing -/

/-- The inner document of a private key. -/
def writeInner (secret : Nat) : Bytes :=
  Der.write Der.sequenceTag
    (Der.write Der.integerTag [1] ++
      Der.write Der.octetStringTag (Bytes.bigEndian 32 secret) ++
      Der.write (Der.contextTag 1)
        (Der.write Der.bitStringTag (0 :: Curve.publicKey secret)))

/-- The document of a private key. -/
def ofSecret (secret : Nat) : Bytes :=
  Der.write Der.sequenceTag
    (Der.write Der.integerTag [0] ++ Der.write Der.sequenceTag algorithm ++
      Der.write Der.octetStringTag (writeInner secret))

end KeyDocument

end LedgerNode
