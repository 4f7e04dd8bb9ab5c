import LedgerNode.Node.Disk
import LedgerNode.Proofs.Action
import LedgerNode.Proofs.Bytes.Hex
import LedgerNode.Proofs.Key.Document
import LedgerNode.Proofs.OrderedMap
import LedgerNode.Proofs.Text.Lines

namespace LedgerNode

/-!
# Which files hold an identity

A file holds the identity of a node if and only if its first two rows are a key
document and the public key that the document yields, both in small hexadecimal digits.
Every other text is refused, and the refusal speaks of the key.

Small digits are no blanks, and neither a document nor a public key is empty.  So the
two lines that are written are still the first two rows when blanks are put around them,
and the id of a node is the same whenever it starts.
-/

/-- A byte string that is not empty is written on a row of its own. -/
theorem Hex.solid_lower {bytes : Bytes} (nonempty : bytes ≠ []) :
    Text.Solid (lower bytes).toList := by
  have visible : ∀ number < 16, Text.isBlank (lowerDigit number) = false := by decide
  rw [lower, String.toList_ofList]
  constructor
  · intro nothing
    cases bytes with
    | nil => exact nonempty rfl
    | cons byte rest => cases nothing
  · intro character member
    rcases List.mem_flatMap.mp member with ⟨byte, -, digit⟩
    have bound := byte.toNat_lt
    rcases List.mem_cons.mp digit with rfl | digit
    · exact visible _ (by omega)
    · rw [List.mem_singleton.mp digit]
      exact visible _ (by omega)

theorem FileTree.read_write {tree later : FileTree} {path : String} {content : Bytes}
    (written : tree.write path content = .ok later) : later.read path = .ok content := by
  have inserted : (Path.names path).isEmpty = false ∧
      tree.insert (Path.normal path) (.file content) = later := by
    rw [write, entry?] at written
    split at written
    next => cases written
    next vacant =>
        rw [Except.ok.injEq] at written
        refine ⟨Bool.eq_false_iff.mpr fun root => ?_, written⟩
        rw [if_pos root] at vacant
        exact vacant rfl
  rw [read, entry?, inserted.1, ← inserted.2, if_neg Bool.false_ne_true,
    OrderedMap.get?_insert_self]

namespace Identity

variable {path text : String} {identity : Identity}

/-! ## Reading -/

theorem readLine_eq_ok_iff {subject line : String} {bytes : Bytes} :
    readLine subject line = .ok bytes ↔ line = Hex.lower bytes :=
  Except.mapError_eq_ok_iff.trans Hex.decodeLower_eq_ok_iff

theorem publicKeyOf_eq_ok_iff {document key : Bytes} :
    publicKeyOf document = .ok key ↔ KeyDocument.publicKey document = .ok key :=
  Except.mapError_eq_ok_iff

theorem significantLines_eq_iff {lines : List String} :
    significantLines text = lines ↔ Text.Shows text.toList (lines.map String.toList) := by
  have found : significantLines text = (Text.rows text.toList).map String.ofList := rfl
  rw [found, ← Text.rows_eq_iff]
  constructor
  · rintro rfl
    rw [List.map_map]
    exact (List.map_id'' (fun _ => String.toList_ofList) _).symm
  · intro same
    rw [same, List.map_map]
    exact List.map_id'' (fun _ => String.ofList_toList) _

/-- The identity is a key document with the public key that it yields. -/
def Accepted (identity : Identity) : Prop :=
  KeyDocument.publicKey identity.document = .ok identity.publicKey

/-- The first two rows of the text spell the identity.  What is on further rows does
not count. -/
def Spelled (text : String) (identity : Identity) : Prop :=
  ∃ others, Text.Shows text.toList
    ((Hex.lower identity.document :: Hex.lower identity.publicKey :: others).map String.toList)

theorem spelled_iff : Spelled text identity ↔ ∃ others,
    significantLines text =
      Hex.lower identity.document :: Hex.lower identity.publicKey :: others :=
  exists_congr fun _ => significantLines_eq_iff.symm

theorem ofText_eq_ok_iff :
    ofText path text = .ok identity ↔ Spelled text identity ∧ identity.Accepted := by
  rw [spelled_iff, ofText]
  constructor
  · intro read
    split at read
    next documentLine publicLine others rows =>
        rcases Except.bind_eq_ok_iff.mp read with ⟨document, first, read⟩
        rcases Except.bind_eq_ok_iff.mp read with ⟨key, second, read⟩
        rcases Except.bind_eq_ok_iff.mp read with ⟨yielded, accepted, read⟩
        rw [readLine_eq_ok_iff] at first second
        rw [publicKeyOf_eq_ok_iff] at accepted
        split at read
        next same =>
            cases read
            exact ⟨⟨others, by rw [rows, first, second]⟩, same ▸ accepted⟩
        next => cases read
    next => cases read
  · rintro ⟨⟨others, rows⟩, accepted⟩
    rw [rows]
    refine Except.bind_eq_ok_iff.mpr ⟨_, readLine_eq_ok_iff.mpr rfl, ?_⟩
    refine Except.bind_eq_ok_iff.mpr ⟨_, readLine_eq_ok_iff.mpr rfl, ?_⟩
    refine Except.bind_eq_ok_iff.mpr ⟨_, publicKeyOf_eq_ok_iff.mpr accepted, ?_⟩
    exact if_pos rfl

/-- What is refused because of the key is refused for a fault of the key. -/
theorem exists_of_mapError {Reason Value : Type} {outcome : Except Reason Value}
    {change : Reason → CryptoFault} {fault : Fault}
    (refused : outcome.mapError (fun reason => .crypto (change reason)) = .error fault) :
    ∃ reason, fault = .crypto reason := by
  rcases Except.mapError_eq_error_iff.mp refused with ⟨reason, -, rfl⟩
  exact ⟨change reason, rfl⟩

/-- A text that is refused is refused for what it says of the key. -/
theorem exists_of_ofText_eq_error {fault : Fault} (refused : ofText path text = .error fault) :
    ∃ reason, fault = .crypto reason := by
  rw [ofText] at refused
  split at refused
  next documentLine publicLine _ _ =>
      rcases Except.bind_eq_error_iff.mp refused with first | ⟨document, -, refused⟩
      · exact exists_of_mapError first
      rcases Except.bind_eq_error_iff.mp refused with second | ⟨key, -, refused⟩
      · exact exists_of_mapError second
      rcases Except.bind_eq_error_iff.mp refused with rejected | ⟨yielded, -, refused⟩
      · exact exists_of_mapError rejected
      split at refused
      next => cases refused
      next => exact ⟨_, (Except.error.inj refused).symm⟩
  next => exact ⟨_, (Except.error.inj refused).symm⟩

theorem accepted_of_ofFile {content : Option Bytes}
    (loaded : ofFile path content = .ok identity) : identity.Accepted := by
  cases content with
  | none => cases loaded
  | some content =>
      rw [ofFile] at loaded
      split at loaded
      next => cases loaded
      next => exact (ofText_eq_ok_iff.mp loaded).2

theorem ofFile_ofText : ofFile path (some (Bytes.ofText text)) = ofText path text := by
  rw [ofFile, Utf8.text?_ofText]

/-! ## Writing -/

theorem Accepted.document_ne_nil (accepted : identity.Accepted) : identity.document ≠ [] := by
  intro nothing
  rw [Accepted, nothing] at accepted
  have refused : KeyDocument.publicKey [] = .error .invalidEncoding := rfl
  cases refused.symm.trans accepted

theorem Accepted.publicKey_ne_nil (accepted : identity.Accepted) : identity.publicKey ≠ [] := by
  rcases KeyDocument.exists_secret accepted with ⟨secret, same⟩
  rw [same]
  exact Curve.publicKey_ne_nil secret

/-- The two lines stay the first two rows, whatever blanks are put around them. -/
theorem Accepted.ofText_eq_ok (accepted : identity.Accepted)
    (adorns : Text.Adorns text.toList (Hex.lower identity.document).toList
      (Hex.lower identity.publicKey).toList) : ofText path text = .ok identity := by
  rcases adorns.exists_rows (Hex.solid_lower accepted.document_ne_nil)
    (Hex.solid_lower accepted.publicKey_ne_nil) with ⟨others, rows⟩
  refine ofText_eq_ok_iff.mpr ⟨spelled_iff.mpr ⟨others.map String.ofList, ?_⟩, accepted⟩
  rw [show significantLines text = (Text.rows text.toList).map String.ofList from rfl, rows,
    List.map_cons, List.map_cons, String.ofList_toList, String.ofList_toList]

theorem adorns_text (identity : Identity) :
    Text.Adorns identity.text.toList (Hex.lower identity.document).toList
      (Hex.lower identity.publicKey).toList := by
  have blank : Text.Blank ['\n'] := List.forall_mem_singleton.mpr rfl
  refine ⟨[], ['\n'], ['\n'], [], ?_, List.forall_mem_nil _, blank, List.mem_singleton_self _,
    blank, .inl rfl⟩
  simp [text]

end Identity

/-! ## The file on the disk -/

namespace Disk

variable {disk later : Disk} {path : String} {secret : Nat} {content : Bytes}
  {identity : Identity}

/-- What is there is read, and its content alone decides on the identity. -/
theorem run_identity_of_holds (held : disk.files.holds path = true) :
    (Disk.identity path secret).run.run disk =
      (disk.files.read path >>= fun content => Identity.ofFile path (some content), disk) := by
  rw [Disk.identity, Action.run_get_bind]
  dsimp only
  rw [if_pos held]
  cases disk.files.read path with
  | error fault => rfl
  | ok content => rfl

theorem run_identity_of_read (read : disk.files.read path = .ok content) :
    (Disk.identity path secret).run.run disk = (Identity.ofFile path (some content), disk) := by
  have held : disk.files.holds path = true := by
    rw [FileTree.read] at read
    rw [FileTree.holds]
    cases found : disk.files.entry? path with
    | none =>
        rw [found] at read
        cases read
    | some entry => rfl
  rw [run_identity_of_holds held, read]
  rfl

theorem of_run_onFiles {change : FileTree → Except Fault FileTree}
    (performed : (onFiles change).run.run disk = (.ok (), later)) :
    change disk.files = .ok later.files := by
  rw [onFiles, Action.run_get_bind] at performed
  rcases Action.of_run_bind performed with ⟨files, middle, changed, performed⟩
  cases performed
  exact (Prod.ext_iff.mp changed).1

/-- If nothing is there, the new identity is written. -/
theorem run_identity_of_missing (missing : ¬ disk.files.holds path = true)
    (performed : (Disk.identity path secret).run.run disk = (.ok identity, later)) :
    identity = .ofSecret secret ∧
      later.files.read path = .ok (Bytes.ofText identity.text) := by
  rw [Disk.identity, Action.run_get_bind] at performed
  dsimp only at performed
  rw [if_neg missing] at performed
  rcases Action.of_run_bind performed with ⟨_, middle, -, performed⟩
  rcases Action.of_run_bind performed with ⟨_, final, writes, performed⟩
  cases performed
  have written := of_run_onFiles writes
  exact ⟨rfl, FileTree.read_write written⟩

/-- The identity that a node has got is the one that it gets again, whichever private
key is at hand then. -/
theorem run_identity_again (positive : 0 < secret) (below : secret < Curve.order)
    (performed : (Disk.identity path secret).run.run disk = (.ok identity, later)) (next : Nat) :
    (Disk.identity path next).run.run later = (.ok identity, later) := by
  by_cases held : disk.files.holds path = true
  · rw [run_identity_of_holds held] at performed
    rcases Prod.mk.inj performed with ⟨outcome, rfl⟩
    rw [run_identity_of_holds held, outcome]
  · rcases run_identity_of_missing held performed with ⟨rfl, read⟩
    have accepted : (Identity.ofSecret secret).Accepted :=
      KeyDocument.publicKey_ofSecret positive below
    rw [run_identity_of_read read, Identity.ofFile_ofText,
      accepted.ofText_eq_ok (Identity.adorns_text _)]

end Disk

namespace Identity

/-- A text is accepted for an identity if and only if its first two rows spell the
identity and the key is the one that the document yields; the id is the digest of that
key.  Every other text is refused for what it says of the key.  The text that is
written for an accepted identity gives this identity again, also when blanks, blank
lines and other ends of lines are put around its two lines.  So an identity that was
made stays the one in its file. -/
theorem texts_accepted_exactly (path : String) :
    (∀ text identity, ofFile path (some (Bytes.ofText text)) = .ok identity ↔
      Spelled text identity ∧ identity.Accepted) ∧
    (∀ text identity, ofFile path (some (Bytes.ofText text)) = .ok identity →
      ∃ key, KeyDocument.publicKey identity.document = .ok key ∧ identity.publicKey = key ∧
        identity.id = Base58.encode (Sha256.digest key)) ∧
    (∀ text, (∀ identity, Spelled text identity → ¬ identity.Accepted) →
      ∃ reason, ofFile path (some (Bytes.ofText text)) = .error (.crypto reason)) ∧
    (∀ identity : Identity, identity.Accepted →
      ofFile path (some (Bytes.ofText identity.text)) = .ok identity ∧
      ∀ text : String, Text.Adorns text.toList (Hex.lower identity.document).toList
          (Hex.lower identity.publicKey).toList →
        ofFile path (some (Bytes.ofText text)) = .ok identity) ∧
    (∀ (disk : Disk) text, disk.files.read path = .ok (Bytes.ofText text) → ∀ secret,
      (Disk.identity path secret).run.run disk =
        (ofFile path (some (Bytes.ofText text)), disk)) ∧
    ∀ (disk later : Disk) secret identity, 0 < secret → secret < Curve.order →
      (Disk.identity path secret).run.run disk = (.ok identity, later) →
      identity.Accepted ∧
        ∀ next, (Disk.identity path next).run.run later = (.ok identity, later) := by
  refine ⟨?accepted, ?id, ?refused, ?written, ?read, ?again⟩
  case accepted =>
    intro text identity
    rw [ofFile_ofText, ofText_eq_ok_iff]
  case id =>
    intro text identity loaded
    rw [ofFile_ofText, ofText_eq_ok_iff] at loaded
    exact ⟨_, loaded.2, rfl, rfl⟩
  case refused =>
    intro text none
    rw [ofFile_ofText]
    cases outcome : ofText path text with
    | ok identity =>
        have spelled := ofText_eq_ok_iff.mp outcome
        exact absurd spelled.2 (none identity spelled.1)
    | error fault =>
        rcases exists_of_ofText_eq_error outcome with ⟨reason, rfl⟩
        exact ⟨reason, rfl⟩
  case written =>
    intro identity accepted
    constructor
    · rw [ofFile_ofText, accepted.ofText_eq_ok (adorns_text identity)]
    · intro text adorns
      rw [ofFile_ofText, accepted.ofText_eq_ok adorns]
  case read =>
    intro disk text read secret
    exact Disk.run_identity_of_read read
  case again =>
    intro disk later secret identity positive below performed
    refine ⟨?_, Disk.run_identity_again positive below performed⟩
    by_cases held : disk.files.holds path = true
    · rw [Disk.run_identity_of_holds held] at performed
      rcases Except.bind_eq_ok_iff.mp (Prod.mk.inj performed).1 with ⟨_, -, loaded⟩
      exact accepted_of_ofFile loaded
    · rcases Disk.run_identity_of_missing held performed with ⟨rfl, -⟩
      exact KeyDocument.publicKey_ofSecret positive below

/-- The text of an identity as another program could have left it. -/
def retouched (identity : Identity) : String :=
  "\r\n\t" ++ Hex.lower identity.document ++ "\u3000\r\n\r\n " ++
    Hex.lower identity.publicKey ++ " \r\nremark"

theorem texts_accepted_exactly_one :
    (Identity.ofSecret 1).Accepted ∧
    ofFile "key" (some (Bytes.ofText (ofSecret 1).retouched)) = .ok (ofSecret 1) ∧
    (∃ key, KeyDocument.publicKey (ofSecret 1).document = .ok key ∧
      (ofSecret 1).id = Base58.encode (Sha256.digest key)) ∧
    (∃ reason, ofFile "key" (some (Bytes.ofText "remark")) = .error (.crypto reason)) ∧
    ∃ later, (Disk.identity "key" 1).run.run Disk.empty = (.ok (ofSecret 1), later) ∧
      (Disk.identity "key" 2).run.run later = (.ok (ofSecret 1), later) := by
  rcases texts_accepted_exactly "key" with ⟨-, id, refused, written, -, again⟩
  have accepted : (ofSecret 1).Accepted := KeyDocument.publicKey_ofSecret (by decide) (by decide)
  have adorns : Text.Adorns (ofSecret 1).retouched.toList (Hex.lower (ofSecret 1).document).toList
      (Hex.lower (ofSecret 1).publicKey).toList := by
    refine ⟨['\r', '\n', '\t'], ['\u3000', '\r', '\n', '\r', '\n', ' '], [' ', '\r'],
      '\n' :: "remark".toList, ?_, ?_, ?_, ?_, ?_, .inr ⟨_, rfl⟩⟩
    · simp [retouched]
    · exact List.all_eq_true.mp rfl
    · exact List.all_eq_true.mp rfl
    · decide
    · exact List.all_eq_true.mp rfl
  have loaded := (written _ accepted).2 _ adorns
  rcases id _ _ loaded with ⟨key, yielded, -, same⟩
  refine ⟨accepted, loaded, ⟨key, yielded, same⟩, refused _ ?_, ?_⟩
  · intro identity spelled
    rcases spelled_iff.mp spelled with ⟨others, rows⟩
    have single : significantLines "remark" = ["remark"] := by decide
    have lengths := congrArg List.length (single.symm.trans rows)
    rw [List.length_singleton, List.length_cons, List.length_cons] at lengths
    omega
  · have folder : Path.parent? "key" = some "" := by
      simp [Path.parent?, Path.trimBack]
    have made : ((Disk.identity "key" 1).run.run Disk.empty).1 = .ok (ofSecret 1) := by
      rw [Disk.identity, Action.run_get_bind]
      dsimp only
      rw [if_neg (by decide), folder]
      rfl
    have performed : (Disk.identity "key" 1).run.run Disk.empty =
      (.ok (ofSecret 1), ((Disk.identity "key" 1).run.run Disk.empty).2) := Prod.ext made rfl
    exact ⟨_, performed, (again _ _ _ _ (by decide) (by decide) performed).2 2⟩

end Identity

end LedgerNode
