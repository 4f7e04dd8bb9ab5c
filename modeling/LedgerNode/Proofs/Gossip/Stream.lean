import LedgerNode.Proofs.Gossip.Run
import LedgerNode.Proofs.Peer.Document

namespace LedgerNode

/-!
# Frames of a connection

A frame is written as one document, which ends itself.  So the frames of a
connection need nothing between them, and blanks do no harm.  A connection that
breaks off inside a frame, or goes on with something else, ends with a fault.  The
frames before that count as if they had come alone.
-/

open Json

namespace Frame

/-! ## Frames as documents -/

theorem observedAddress?_getD (observedAddress : Option String) :
    observedAddress? (some ((observedAddress.map ofText).getD .null)) = some observedAddress := by
  cases observedAddress with
  | none => rfl
  | some address =>
      have text := text?_ofText address
      exact congrArg (Option.map some) text

theorem ofJson?_toJson (frame : Frame) : ofJson? frame.toJson = some frame := by
  cases frame with
  | hello peer observedAddress =>
      have fields := fields?_ofRows
        [("peer", .required, peer.toJson),
         ("observed_address", .optional, (observedAddress.map ofText).getD .null)] (by simp)
      simp only [List.map_cons, List.map_nil] at fields
      simp [ofJson?, toJson, helloOfJson?, fields, observedAddress?_getD]
  | publish topic messageId origin sender data =>
      have fields : (ofMembers
          [("topic", ofText topic), ("message_id", ofText messageId), ("origin", ofText origin),
           ("sender", ofText sender),
           ("data", .array (data.map fun byte => ofNat byte.toNat))]).allFields?
            ["topic", "message_id", "origin", "sender", "data"] =
          some [ofText topic, ofText messageId, ofText origin, ofText sender,
            .array (data.map fun byte => ofNat byte.toNat)] :=
        allFields?_ofMembers (by simp)
      simp [ofJson?, toJson, publishOfJson?, fields, list?_array_map u8?_ofNat]

theorem legible_toJson (frame : Frame) : frame.toJson.Legible := by
  cases frame with
  | hello peer observedAddress =>
      refine legible_ofMembers (List.forall_mem_singleton.mpr ?_)
      refine legible_ofMembers fun member found => ?_
      rcases List.mem_pair.mp found with rfl | rfl
      · exact peer.legible_toJson
      · cases observedAddress with
        | none => exact legible_null
        | some address => exact legible_ofText address
  | publish topic messageId origin sender data =>
      refine legible_ofMembers (List.forall_mem_singleton.mpr ?_)
      refine legible_ofMembers fun member found => ?_
      simp only [List.mem_cons, List.not_mem_nil, or_false] at found
      rcases found with rfl | rfl | rfl | rfl | rfl
      · exact legible_ofText topic
      · exact legible_ofText messageId
      · exact legible_ofText origin
      · exact legible_ofText sender
      · refine legible_array fun item member => ?_
        rcases List.mem_map.mp member with ⟨byte, _, rfl⟩
        exact legible_ofNat byte.toNat

variable {frame : Frame} {text tail rest : Bytes}

theorem closed_of_ofJson? {document : Json} (described : ofJson? document = some frame) :
    document.Closed := by
  rintro spelling rfl
  cases described

/-! ## Texts of frames -/

/-- A way to write a frame, perhaps with blanks and with members that nobody reads. -/
def HasText (frame : Frame) (text : Bytes) : Prop :=
  ∃ document, (Phrase.value document).Spelled text ∧ ofJson? document = some frame

theorem hasText_encode (frame : Frame) : frame.HasText frame.encode :=
  ⟨frame.toJson, frame.legible_toJson, frame.ofJson?_toJson⟩

theorem HasText.blank_append {blanks : Bytes} (written : frame.HasText text)
    (blank : Blank blanks) : frame.HasText (blanks ++ text) := by
  rcases written with ⟨document, spelled, described⟩
  exact ⟨document, spelled.blank_append blank, described⟩

theorem HasText.not_blank (written : frame.HasText text) (rest : Bytes) :
    ¬Blank (text ++ rest) := by
  rcases written with ⟨document, spelled, _⟩
  rcases spelled.exists_visible rest with ⟨byte, behind, visible, _⟩
  rw [← skipBlanks_eq_nil_iff, visible]
  exact List.cons_ne_nil byte behind

theorem HasText.read?_append (written : frame.HasText text) (rest : Bytes) :
    read? (text ++ rest) = some (frame, rest) := by
  rcases written with ⟨document, spelled, described⟩
  rw [read?, read_append spelled (closed_of_ofJson? described)]
  simp [described]

theorem hasText_of_read? (taken : read? tail = some (frame, rest)) :
    ∃ text, tail = text ++ rest ∧ frame.HasText text := by
  unfold read? at taken
  rcases Option.bind_eq_some_iff.mp taken with ⟨⟨document, behind⟩, read, remainder⟩
  rcases Option.bind_eq_some_iff.mp remainder with ⟨found, described, same⟩
  cases same
  rcases spelled_of_read read with ⟨text, joined, spelled⟩
  exact ⟨text, joined, document, spelled, described⟩

/-! ## Frames one after another -/

theorem readAll_of_blank (blank : Blank tail) : readAll tail = ([], true) := by
  rw [readAll, if_pos (isEmpty_skipBlanks_iff.mpr blank)]

/-- The frame in front is taken, and reading goes on behind it. -/
theorem readAll_append (written : frame.HasText text) (rest : Bytes) :
    readAll (text ++ rest) = (frame :: (readAll rest).1, (readAll rest).2) := by
  have begun := mt isEmpty_skipBlanks_iff.mp (written.not_blank rest)
  have some_byte : text ≠ [] := by
    rintro rfl
    exact written.not_blank [] blank_nil
  rw [readAll, if_neg begun, written.read?_append]
  simp [some_byte]

/-- Frames are taken from the front of a connection in their order. -/
theorem readAll_flatMap {pieces : List (Bytes × Frame)}
    (written : ∀ piece ∈ pieces, piece.2.HasText piece.1) (tail : Bytes) :
    readAll (pieces.flatMap Prod.fst ++ tail) =
      (pieces.map Prod.snd ++ (readAll tail).1, (readAll tail).2) := by
  induction pieces with
  | nil => rfl
  | cons piece pieces ih =>
      have ⟨first, others⟩ := List.forall_mem_cons.mp written
      rw [List.flatMap_cons, List.append_assoc, readAll_append first, ih others]
      rfl

/-- What stands where a frame should and is none: a frame that has been cut off, or
something that does not begin with a frame. -/
inductive Interrupted : Bytes → Prop where
  | cut {frame : Frame} {front missing : Bytes} (written : frame.HasText (front ++ missing))
      (begun : ¬Blank front) (short : missing ≠ []) : Interrupted front
  | foreign {tail : Bytes} (begun : ¬Blank tail)
      (noFrame : ∀ frame text, text <+: tail → ¬HasText frame text) : Interrupted tail

theorem Interrupted.begun (interrupted : Interrupted tail) : ¬Blank tail := by
  cases interrupted with
  | cut _ begun _ => exact begun
  | foreign begun _ => exact begun

theorem Interrupted.read?_eq_none (interrupted : Interrupted tail) : read? tail = none := by
  rw [Option.eq_none_iff_forall_not_mem]
  rintro ⟨found, rest⟩ taken
  rcases hasText_of_read? taken with ⟨text, rfl, written⟩
  cases interrupted with
  | @cut frame front missing whole begun short =>
      rcases whole with ⟨document, spelled, described⟩
      rcases written with ⟨part, partSpelled, partDescribed⟩
      have read := read_append partSpelled (closed_of_ofJson? partDescribed) rest
      exact read_ne_of_cut spelled (closed_of_ofJson? described) short
        (closed_of_ofJson? partDescribed) rest read
  | foreign _ noFrame => exact noFrame found text (List.prefix_append text rest) written

/-- A connection is interrupted where something stands and no frame can be read. -/
theorem interrupted_of_read?_eq_none (begun : ¬Blank tail) (refused : read? tail = none) :
    Interrupted tail := by
  refine .foreign begun ?_
  rintro frame text ⟨rest, rfl⟩ written
  rw [written.read?_append rest] at refused
  cases refused

theorem readAll_of_interrupted (interrupted : Interrupted tail) :
    readAll tail = ([], false) := by
  have begun := mt isEmpty_skipBlanks_iff.mp interrupted.begun
  rw [readAll, if_neg begun, interrupted.read?_eq_none]

theorem exists_brace (frame : Frame) : ∃ behind, frame.encode = 0x7B :: behind := by
  cases frame <;> exact ⟨_, by rw [encode, toJson, ofMembers, compact]; rfl⟩

/-- A frame as it is sent is interrupted wherever it is cut. -/
theorem interrupted_of_encode {blanks front missing : Bytes} (blank : Blank blanks)
    (cut : frame.encode = front ++ missing) (begun : front ≠ []) (short : missing ≠ []) :
    Interrupted (blanks ++ front) := by
  have written := frame.hasText_encode.blank_append blank
  rw [cut, ← List.append_assoc] at written
  refine .cut written (fun nothing => ?_) short
  rcases frame.exists_brace with ⟨behind, brace⟩
  rw [cut] at brace
  cases front with
  | nil => exact begun rfl
  | cons byte front =>
      cases (List.cons.inj brace).1
      cases (blank_append.mp nothing).2 0x7B List.mem_cons_self

end Frame

namespace Overlay

variable (network : Network) (source : IpAddress)

theorem run_forM_handleFrame (frames : List Frame) (overlay : Overlay) :
    (frames.forM fun frame => (tryCatch (handleFrame network source frame) fun _ => return () :
      OverlayAction Unit)).run.run overlay =
    (.ok (), overlay.run (frames.map fun frame => ⟨network, .frame source frame⟩)) := by
  induction frames generalizing overlay with
  | nil => rfl
  | cons frame frames ih =>
      have taken : (tryCatch (handleFrame network source frame) fun _ => return () :
          OverlayAction Unit).run.run overlay =
          (.ok (), overlay.step ⟨network, .frame source frame⟩) := by
        rcases ran : (handleFrame network source frame).run.run overlay with ⟨outcome, next⟩
        have reached : overlay.step ⟨network, .frame source frame⟩ = next := congrArg Prod.snd ran
        rw [reached]
        cases outcome with
        | ok answer => exact Action.run_tryCatch ran _
        | error fault => exact Action.run_tryCatch_error ran _
      exact (Action.run_bind taken _).trans (ih _)

theorem run_handleConnection {bytes : Bytes} {frames : List Frame} {complete : Bool}
    (read : Frame.readAll bytes = (frames, complete)) (overlay : Overlay) :
    (handleConnection network source bytes).run.run overlay =
      (if complete then .ok () else .error (.decode (.malformedDocument "frame")),
        overlay.run (frames.map fun frame => ⟨network, .frame source frame⟩)) := by
  rw [handleConnection, read]
  refine (Action.run_bind (run_forM_handleFrame network source frames overlay) _).trans ?_
  cases complete <;> rfl

/-- The bytes of a connection that carries frames, each behind blanks or none. -/
def carrying (pieces : List (Bytes × Frame)) : Bytes :=
  pieces.flatMap fun piece => piece.1 ++ piece.2.encode

/-- Frames come out of a connection as they were sent, with or without blanks between them.
The connection ends properly behind the last one, and with a fault if it breaks off inside
another one or goes on with something else.  Either way the node has taken the frames that
were complete, one after another, and nothing more. -/
theorem connection_readBack (overlay : Overlay) {pieces : List (Bytes × Frame)}
    (blank : ∀ piece ∈ pieces, Blank piece.1) :
    let frames := pieces.map Prod.snd
    let taken := overlay.run (frames.map fun frame => ⟨network, .frame source frame⟩)
    (∀ tail, Blank tail → Frame.readAll (carrying pieces ++ tail) = (frames, true) ∧
      (handleConnection network source (carrying pieces ++ tail)).run.run overlay =
        (.ok (), taken)) ∧
    (∀ tail, Frame.Interrupted tail →
      Frame.readAll (carrying pieces ++ tail) = (frames, false) ∧
      (handleConnection network source (carrying pieces ++ tail)).run.run overlay =
        (.error (.decode (.malformedDocument "frame")), taken)) ∧
    (∀ between frame front missing, Blank between → Frame.encode frame = front ++ missing →
      front ≠ [] → missing ≠ [] → Frame.Interrupted (between ++ front)) := by
  intro frames taken
  have read (tail : Bytes) : Frame.readAll (carrying pieces ++ tail) =
      (frames ++ (Frame.readAll tail).1, (Frame.readAll tail).2) := by
    have written : ∀ text ∈ pieces.map fun piece => (piece.1 ++ piece.2.encode, piece.2),
        text.2.HasText text.1 := by
      intro text member
      rcases List.mem_map.mp member with ⟨piece, found, rfl⟩
      exact piece.2.hasText_encode.blank_append (blank piece found)
    have taken := Frame.readAll_flatMap written tail
    rw [List.flatMap_map, List.map_map] at taken
    exact taken
  refine ⟨fun tail ended => ?_, fun tail interrupted => ?_, ?_⟩
  · have whole : Frame.readAll (carrying pieces ++ tail) = (frames, true) := by
      rw [read, Frame.readAll_of_blank ended, List.append_nil]
    exact ⟨whole, run_handleConnection network source whole overlay⟩
  · have part : Frame.readAll (carrying pieces ++ tail) = (frames, false) := by
      rw [read, Frame.readAll_of_interrupted interrupted, List.append_nil]
    exact ⟨part, run_handleConnection network source part overlay⟩
  · exact fun _ _ _ _ between cut begun short => Frame.interrupted_of_encode between cut begun short

/-- An introduction and, behind a blank and a new line, a message. -/
def exchanged : List (Bytes × Frame) :=
  [([], .hello (.ofAddress "127.0.0.1" 7001 "\"first\"\n" .node) (some "€")),
   ([0x20, 0x0A], .publish "blocks" "id" "origin" "\"first\"\n" [0, 255])]

theorem connection_readBack_exchanged :
    let network := Network.isolated
    let source := IpAddress.v4 Network.loopback
    let overlay := start (.ofOwn (.ofAddress "127.0.0.1" 7000 "me" .node)) 7000
    let frames := exchanged.map Prod.snd
    let taken := overlay.run (frames.map fun frame => ⟨network, .frame source frame⟩)
    (∀ piece ∈ exchanged, Blank piece.1) ∧
    Frame.readAll (carrying exchanged ++ [0x09]) = (frames, true) ∧
    (handleConnection network source (carrying exchanged ++ [0x09])).run.run overlay =
      (.ok (), taken) ∧
    Frame.Interrupted [0x20, 0x7B, 0x22, 0x48] ∧
    (handleConnection network source (carrying exchanged ++ [0x20, 0x7B, 0x22, 0x48])).run.run
      overlay = (.error (.decode (.malformedDocument "frame")), taken) ∧
    Frame.Interrupted [0x5B, 0x5D] ∧
    (handleConnection network source (carrying exchanged ++ [0x5B, 0x5D])).run.run overlay =
      (.error (.decode (.malformedDocument "frame")), taken) := by
  intro network source overlay frames taken
  have blank : ∀ piece ∈ exchanged, Blank piece.1 := by decide
  have ⟨ended, interrupted, cuts⟩ := connection_readBack network source overlay blank
  have cut : Frame.Interrupted [0x20, 0x7B, 0x22, 0x48] := by
    let frame := Frame.hello (.ofAddress "" 0 "" .node) none
    have split : frame.encode = [0x7B, 0x22, 0x48] ++ frame.encode.drop 3 := by decide
    exact cuts [0x20] frame [0x7B, 0x22, 0x48] _ (by decide) split (by decide) (by decide)
  have foreign : Frame.Interrupted [0x5B, 0x5D] :=
    Frame.interrupted_of_read?_eq_none (by decide) (by decide)
  exact ⟨blank, (ended [0x09] (by decide)).1, (ended [0x09] (by decide)).2, cut,
    (interrupted _ cut).2, foreign, (interrupted _ foreign).2⟩

end Overlay

end LedgerNode
