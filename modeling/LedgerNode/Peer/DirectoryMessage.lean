import LedgerNode.Json.Reader
import LedgerNode.Json.Writer
import LedgerNode.Peer.Descriptor

namespace LedgerNode

/-!
# Questions to a directory, and its answers

A question is always a document.  It names the form in which it wants to be
answered; the answer means the same in both forms.
-/

/-- What a directory can be asked for. -/
inductive DirectoryQuery where
  | self
  | seeds
  | nodes
  | resolve (address : String)
deriving DecidableEq

/-- The form of an answer. -/
inductive Encoding where
  | json
  | binary
deriving DecidableEq, Inhabited

/-- A question with the form of its answer. -/
structure DirectoryRequest where
  query : DirectoryQuery
  encoding : Encoding
deriving DecidableEq

/-- An answer of a directory. -/
inductive DirectoryResponse where
  | peer (peer : Peer)
  | peers (peers : List Peer)
  | notFound (address : String)
  | error (message : String)
deriving DecidableEq

namespace DirectoryQuery

def toJson : DirectoryQuery → Json
  | self => .ofText "self"
  | seeds => .ofText "seeds"
  | nodes => .ofText "nodes"
  | resolve address => .ofMembers [("resolve", .ofMembers [("address", .ofText address)])]

def ofJson? (document : Json) : Option DirectoryQuery := do
  let (name, content) ← document.variant?
  if name = "resolve" then
    match ← (← content).allFields? ["address"] with
    | [address] => some (resolve (← address.text?))
    | _ => none
  else
    match ← document.unitVariant? with
    | "self" => some self
    | "seeds" => some seeds
    | "nodes" => some nodes
    | _ => none

end DirectoryQuery

namespace Encoding

def name : Encoding → String
  | json => "json"
  | binary => "binary"

def ofName? (name : String) : Option Encoding := [json, binary].find? (·.name == name)

/-- The document of a form. -/
def toJson (encoding : Encoding) : Json := .ofText encoding.name

/-- The form that a document names. -/
def ofJson? (document : Json) : Option Encoding := document.unitVariant? >>= ofName?

end Encoding

namespace DirectoryRequest

def toJson (request : DirectoryRequest) : Json :=
  .ofMembers [("query", request.query.toJson), ("encoding", request.encoding.toJson)]

/-- The request that a document describes.  Documents are wanted unless it
says otherwise. -/
def ofJson? (document : Json) : Option DirectoryRequest := do
  match ← document.fields? [("query", .required), ("encoding", .defaulted)] with
  | [some query, encoding] =>
    some
      { query := ← DirectoryQuery.ofJson? query
        encoding := ← (encoding.map Encoding.ofJson?).getD (some .json) }
  | _ => none

def ofBytes? (bytes : Bytes) : Option DirectoryRequest := do
  let (document, _) ← Json.read bytes
  ofJson? document

end DirectoryRequest

namespace DirectoryResponse

/-- The content of an answer by its number. -/
def Content : Fin 4 → Type
  | 0 => Peer
  | 1 => List Peer
  | 2 => String
  | 3 => String

/-- The binary form of the content. -/
def contentCodec : (index : Fin 4) → Codec (Content index)
  | 0 => Peer.codec
  | 1 => .list Peer.codec
  | 2 => .text
  | 3 => .text

/-- The answer around a content. -/
def ofContent : (index : Fin 4) × Content index → DirectoryResponse
  | ⟨0, content⟩ => peer content
  | ⟨1, content⟩ => peers content
  | ⟨2, content⟩ => notFound content
  | ⟨3, content⟩ => error content

/-- The content of an answer, with its number. -/
def toContent : DirectoryResponse → (index : Fin 4) × Content index
  | peer content => ⟨0, content⟩
  | peers content => ⟨1, content⟩
  | notFound content => ⟨2, content⟩
  | error content => ⟨3, content⟩

/-- The binary form of an answer. -/
def codec : Codec DirectoryResponse :=
  .via (.variant "DirectoryResponse" 4 contentCodec) ofContent toContent

/-- The document of an answer. -/
def toJson : DirectoryResponse → Json
  | peer content => .ofMembers [("peer", content.toJson)]
  | peers content => .ofMembers [("peers", .array (content.map Peer.toJson))]
  | notFound content => .ofMembers [("notfound", .ofText content)]
  | error content => .ofMembers [("error", .ofText content)]

/-- The answer that a document describes. -/
def ofJson? (document : Json) : Option DirectoryResponse := do
  match ← document.variant? with
  | ("peer", some content) => return peer (← Peer.ofJson? content)
  | ("peers", some content) => return peers (← content.list? Peer.ofJson?)
  | ("notfound", some content) => return notFound (← content.text?)
  | ("error", some content) => return error (← content.text?)
  | _ => none

/-- The bytes of an answer in a form. -/
def encode (response : DirectoryResponse) : Encoding → Bytes
  | .json => response.toJson.compact
  | .binary => codec.encode response

def decode (bytes : Bytes) : Encoding → Except DecodeFault DirectoryResponse
  | .json =>
    match Json.readWholeText bytes >>= ofJson? with
    | some response => .ok response
    | none => .error (.malformedDocument "directory response")
  | .binary => codec.decodeExact bytes

end DirectoryResponse

end LedgerNode
