import LedgerNode.Proofs.Json.Record
import LedgerNode.Proofs.Peer.Format

namespace LedgerNode

/-!
# Answers of directories mean the same in both forms

The document of an answer names the kind of the answer and the fields of its
peers, and its binary form numbers the kinds and leaves the names out.  Either is
read back to the answer.  What stands behind it is refused, but for blanks behind
a document.
-/

open Json

/-! ## Peers as documents -/

namespace NodeMode

@[simp]
theorem ofJson?_toJson (mode : NodeMode) : ofJson? mode.toJson = some mode := by
  rw [ofJson?, toJson, unitVariant?_ofText]
  cases mode <;> rfl

end NodeMode

namespace Direction

@[simp]
theorem ofJson?_toJson (direction : Direction) : ofJson? direction.toJson = some direction := by
  rw [ofJson?, toJson, unitVariant?_ofText]
  cases direction <;> rfl

end Direction

namespace Peer

@[simp]
theorem ofJson?_toJson (peer : Peer) : ofJson? peer.toJson = some peer := by
  have fields : peer.toJson.allFields?
      ["address", "port", "id", "mode", "connected", "direction"] =
        some [.ofText peer.address, .ofNat peer.port.toNat, .ofText peer.id, peer.mode.toJson,
          .bool peer.connected, peer.direction.toJson] :=
    allFields?_ofMembers (by simp)
  rw [ofJson?, fields]
  simp [bool?]

theorem legible_toJson (peer : Peer) : peer.toJson.Legible := by
  refine legible_ofMembers fun member found => ?_
  simp only [List.mem_cons, List.not_mem_nil, or_false] at found
  rcases found with rfl | rfl | rfl | rfl | rfl | rfl
  · exact legible_ofText _
  · exact legible_ofNat _
  · exact legible_ofText _
  · exact legible_ofText _
  · exact legible_bool _
  · exact legible_ofText _

end Peer

namespace DirectoryResponse

/-! ## Answers as documents -/

theorem ofJson?_toJson (response : DirectoryResponse) :
    ofJson? response.toJson = some response := by
  cases response with
  | peer content => simp [ofJson?, toJson]
  | peers content => simp [ofJson?, toJson, list?_array_map Peer.ofJson?_toJson]
  | notFound address => simp [ofJson?, toJson]
  | error message => simp [ofJson?, toJson]

/-- The document of an answer has one member, and what it holds is legible. -/
theorem exists_member (response : DirectoryResponse) : ∃ name content,
    response.toJson = .ofMembers [(name, content)] ∧ content.Legible := by
  cases response with
  | peer content => exact ⟨_, _, rfl, content.legible_toJson⟩
  | peers content =>
      refine ⟨_, _, rfl, legible_array fun item member => ?_⟩
      rcases List.mem_map.mp member with ⟨peer, _, rfl⟩
      exact peer.legible_toJson
  | notFound address => exact ⟨_, _, rfl, legible_ofText address⟩
  | error message => exact ⟨_, _, rfl, legible_ofText message⟩

theorem decode_append_json (response : DirectoryResponse) (rest : Bytes) :
    decode (response.encode .json ++ rest) .json =
      if Blank rest then .ok response
      else .error (.malformedDocument "directory response") := by
  rcases response.exists_member with ⟨name, content, shape, legible⟩
  have taken : Json.read (response.encode .json ++ rest) = some (response.toJson, rest) := by
    rw [encode, shape]
    exact read_append (legible_ofMembers (List.forall_mem_singleton.mpr legible)) nofun rest
  rw [decode, readWholeText, taken]
  by_cases blank : Blank rest
  · simp [skipBlanks_eq_nil_iff, blank, ofJson?_toJson]
  · simp [skipBlanks_eq_nil_iff, blank]

theorem decode_append_binary {response : DirectoryResponse} (fits : response.Fits)
    (rest : Bytes) :
    decode (response.encode .binary ++ rest) .binary =
      if rest = [] then .ok response else .error (.trailing rest.length) := by
  have delimiting := codec_delimits.selfDelimiting
  rw [decode, encode]
  split
  next nothing =>
    rw [nothing, List.append_nil]
    exact delimiting.whole response fits
  next more => exact (delimiting.followed response rest fits more).2

/-- An answer is read back from its document, behind which nothing may stand but blanks.
If it fits into a machine, it is read back from its binary form too, behind which nothing
may stand at all, so that both forms mean the same. -/
theorem forms_agree (response : DirectoryResponse) :
    (∀ rest, decode (response.encode .json ++ rest) .json =
      if Blank rest then .ok response
      else .error (.malformedDocument "directory response")) ∧
    (response.Fits →
      (∀ encoding, decode (response.encode encoding) encoding = .ok response) ∧
      decode (response.encode .json) .json = decode (response.encode .binary) .binary ∧
      ∀ rest, decode (response.encode .binary ++ rest) .binary =
        if rest = [] then .ok response else .error (.trailing rest.length)) := by
  refine ⟨response.decode_append_json, fun fits => ?_⟩
  have json : decode (response.encode .json) .json = .ok response := by
    have read := response.decode_append_json []
    rwa [List.append_nil, if_pos blank_nil] at read
  have binary : decode (response.encode .binary) .binary = .ok response := by
    have read := decode_append_binary fits []
    rwa [List.append_nil, if_pos rfl] at read
  refine ⟨fun encoding => ?_, json.trans binary.symm, decode_append_binary fits⟩
  cases encoding with
  | json => exact json
  | binary => exact binary

/-- Two peers whose texts need escapes and more than one byte a character. -/
def escapedPeers : DirectoryResponse :=
  .peers
    [{ address := "\"quoted\"", port := 65535, id := "a\\b\n\t\x01", mode := .supernode,
       connected := true, direction := .outbound },
     { address := "", port := 0, id := "€", mode := .dns, connected := false,
       direction := .unknown }]

theorem forms_agree_escaped :
    escapedPeers.Fits ∧
    (∀ encoding, decode (escapedPeers.encode encoding) encoding = .ok escapedPeers) ∧
    decode (escapedPeers.encode .binary ++ [0x20]) .binary = .error (.trailing 1) ∧
    decode (escapedPeers.encode .json ++ [0x20]) .json = .ok escapedPeers ∧
    decode (escapedPeers.encode .json ++ [0x20, 0x78]) .json =
      .error (.malformedDocument "directory response") := by
  have fits : escapedPeers.Fits := by
    refine ⟨by decide, fun peer member => ?_⟩
    rcases List.mem_pair.mp member with rfl | rfl <;> exact ⟨by decide, by decide⟩
  have ⟨document, inMachine⟩ := forms_agree escapedPeers
  have ⟨whole, _, binary⟩ := inMachine fits
  exact ⟨fits, whole, binary [0x20], document [0x20], document [0x20, 0x78]⟩

end DirectoryResponse

end LedgerNode
