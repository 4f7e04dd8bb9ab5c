import LedgerNode.Proofs.Gossip.Run

namespace LedgerNode

/-!
# The window of seen messages over a whole run

An id is recorded when a message comes that the node does not remember, or when the
node publishes a message under an id that it does not remember.  What the node
remembers at any time are the ids that were recorded last, as many as there is room
for.  So whether a message is taken or dropped can be told from the history alone.

Two recordings of one id are far apart: in between as many others were recorded as
drove the first one out, and these are all different.
-/

namespace Overlay

/-- The id of the message that an event is about. -/
def Event.messageId? (overlay : Overlay) : Event → Option String
  | .frame _ content => content.messageId?
  | .publish _ data => some (overlay.nextId data)
  | _ => none

/-- The recorded ids, newest first, after a message with an id came or was
published.  An id that is among the last ones is not recorded again. -/
def recorded (past : List String) : Option String → List String
  | none => past
  | some id => if id ∈ past.take seenCapacity then past else id :: past

/-- All ids that were recorded in a run, newest first. -/
def recordings (overlay : Overlay) (past : List String) : List Happening → List String
  | [] => past
  | happening :: rest =>
    (overlay.step happening).recordings
      (recorded past (happening.event.messageId? overlay)) rest

/-! ## What the node remembers -/

/-- The window holds what was recorded last, before and after another message. -/
theorem ids_record {window : SeenWindow} {past : List String}
    (shows : window.ids = past.take seenCapacity) (id : String) :
    (window.record id).2.ids = (recorded past (some id)).take seenCapacity := by
  by_cases known : id ∈ window.ids
  · have recent : id ∈ past.take seenCapacity := shows ▸ known
    rw [SeenWindow.record_of_mem known, recorded, if_pos recent, shows]
  · have old : id ∉ past.take seenCapacity := shows ▸ known
    rw [SeenWindow.record_of_fresh known, recorded, if_neg old]
    -- the oldest id falls out of the window either way
    change (id :: window.ids).take (4095 + 1) = (id :: past).take (4095 + 1)
    rw [shows, List.take_succ_cons, List.take_succ_cons, seenCapacity, List.take_take]
    rfl

/-- A message is dropped if its id is remembered, and processed otherwise. -/
theorem seen_handlePublish (network : Network) (overlay : Overlay)
    (topic messageId origin sender : String) (data : Bytes) :
    ((handlePublish network topic messageId origin sender data).run.run overlay).2.seen.ids =
      (overlay.seen.record messageId).2.ids := by
  by_cases known : messageId ∈ overlay.seen.ids
  · rw [run_handlePublish_of_seen known, SeenWindow.record_of_mem known]
  · rw [(handlePublish_processed known network topic origin sender data).remembered,
      SeenWindow.record_of_fresh known]
    rfl

/-- Only messages enter the window. -/
theorem step_window {overlay : Overlay} {past : List String}
    (shows : overlay.seen.ids = past.take seenCapacity) (happening : Happening) :
    (overlay.step happening).seen.ids =
      (recorded past (happening.event.messageId? overlay)).take seenCapacity := by
  rcases happening with ⟨network, event⟩
  cases event with
  | frame source content =>
      cases content with
      | hello peer observedAddress =>
          have same := (acquaints_handleHello overlay network peer observedAddress source).seen
          exact (congrArg SeenWindow.ids same).trans shows
      | publish topic id origin sender data =>
          exact (seen_handlePublish network overlay topic id origin sender data).trans
            (ids_record shows id)
  | connect address =>
      have same := (dials_connect network overlay address).seen
      exact (congrArg SeenWindow.ids same).trans shows
  | publish topic data =>
      have sent := congrArg (·.seen.ids) (publish_spread network overlay topic data)
      exact sent.trans (ids_record shows _)
  | join topic =>
      rcases topics_join overlay topic with ⟨topics, same⟩
      exact (congrArg (·.seen.ids) same).trans shows
  | leave topic => exact shows
  | takeAll topic =>
      rcases topics_takeAll overlay topic with ⟨topics, same⟩
      exact (congrArg (·.seen.ids) same).trans shows

/-- The window of a node shows the last recordings of its whole run. -/
theorem run_window {overlay : Overlay} {past : List String}
    (shows : overlay.seen.ids = past.take seenCapacity) (happenings : List Happening) :
    (overlay.run happenings).seen.ids =
      (overlay.recordings past happenings).take seenCapacity := by
  induction happenings generalizing overlay past with
  | nil => exact shows
  | cons happening rest ih => exact ih (step_window shows happening)

/-! ## How far recordings of one id are apart -/

theorem recordings_append (overlay : Overlay) (past : List String)
    (first second : List Happening) :
    overlay.recordings past (first ++ second) =
      (overlay.run first).recordings (overlay.recordings past first) second := by
  induction first generalizing overlay past with
  | nil => rfl
  | cons happening rest ih => exact ih _ _

theorem suffix_recorded (past : List String) (met : Option String) :
    past <:+ recorded past met := by
  cases met with
  | none => exact List.suffix_refl _
  | some id =>
      rw [recorded]
      split
      · exact List.suffix_refl _
      · exact List.suffix_cons _ _

/-- Nothing is struck from the recordings. -/
theorem suffix_recordings (overlay : Overlay) (past : List String)
    (happenings : List Happening) : past <:+ overlay.recordings past happenings := by
  induction happenings generalizing overlay past with
  | nil => exact List.suffix_refl _
  | cons happening rest ih => exact (suffix_recorded _ _).trans (ih _ _)

/-- An id that was recorded and is no longer among the last ones has been driven out
by so many others. -/
theorem apart_of_not_recent {id : String} {others earlier : List String}
    (old : id ∉ (others ++ id :: earlier).take seenCapacity) :
    seenCapacity ≤ others.length ∧ id ∉ others.take seenCapacity ∧
      (others ++ id :: earlier).take seenCapacity = others.take seenCapacity := by
  have long : seenCapacity ≤ others.length := by
    by_contra short
    apply old
    rw [List.take_append, List.take_of_length_le (by omega)]
    apply List.mem_append_right
    have room : seenCapacity - others.length = seenCapacity - others.length - 1 + 1 := by omega
    rw [room, List.take_succ_cons]
    exact List.mem_cons_self
  have front : (others ++ id :: earlier).take seenCapacity = others.take seenCapacity :=
    List.take_append_of_le_length long
  exact ⟨long, front ▸ old, front⟩

/-! ## Duplicates -/

/-- A message that comes, and what surrounds the node at that time. -/
structure Arrival where
  network : Network
  source : IpAddress
  topic : String
  messageId : String
  origin : String
  sender : String
  data : Bytes

namespace Arrival

variable {overlay : Overlay} {arrival : Arrival}

def happening (arrival : Arrival) : Happening :=
  ⟨arrival.network, .frame arrival.source
    (.publish arrival.topic arrival.messageId arrival.origin arrival.sender arrival.data)⟩

/-- The message is put on its topic and passed on. -/
def ProcessedBy (arrival : Arrival) (overlay : Overlay) : Prop :=
  Processed arrival.network overlay (overlay.step arrival.happening) arrival.topic
    arrival.messageId ⟨arrival.origin, arrival.sender, arrival.data⟩

theorem step_of_seen (seen : arrival.messageId ∈ overlay.seen.ids) :
    overlay.step arrival.happening = overlay :=
  congrArg Prod.snd (run_handlePublish_of_seen seen)

theorem processedBy_iff : arrival.ProcessedBy overlay ↔ arrival.messageId ∉ overlay.seen.ids := by
  constructor
  · intro processed seen
    -- otherwise the id would stand twice in the window
    have remembered := processed.remembered
    rw [step_of_seen seen] at remembered
    have twice : overlay.seen.ids = arrival.messageId :: overlay.seen.ids.take 4095 := remembered
    have again : arrival.messageId ∈ overlay.seen.ids.take 4095 := by
      rw [twice]
      exact List.mem_cons_self
    have distinct := overlay.seen.distinct
    rw [twice] at distinct
    exact (List.nodup_cons.mp distinct).1 again
  · intro fresh
    exact handlePublish_processed fresh arrival.network arrival.topic arrival.origin
      arrival.sender arrival.data

end Arrival

/-- In every run, a message that comes is processed exactly if its id is not among the
ids recorded last, and otherwise nothing changes.  The node remembers these ids, never
more of them than it has room for, and none twice.  Between two messages with one id
that are both processed, at least as many ids are recorded as there is room for, and
the last of them are all different and other than this one. -/
theorem duplicates_within_window (registry : Registry) (port : UInt16)
    (happenings : List Happening) :
    let overlay := (start registry port).run happenings
    let past := (start registry port).recordings [] happenings
    overlay.seen.ids = past.take seenCapacity ∧
      overlay.seen.ids.length ≤ seenCapacity ∧ overlay.seen.ids.Nodup ∧
      (∀ arrival : Arrival,
        (arrival.ProcessedBy overlay ↔ arrival.messageId ∉ past.take seenCapacity) ∧
          (arrival.messageId ∈ past.take seenCapacity →
            overlay.step arrival.happening = overlay)) ∧
      ∀ (first second : Arrival) (between : List Happening),
        first.messageId = second.messageId → first.ProcessedBy overlay →
        second.ProcessedBy (overlay.run (first.happening :: between)) →
        ∃ others, (start registry port).recordings []
            (happenings ++ first.happening :: between) = others ++ first.messageId :: past ∧
          seenCapacity ≤ others.length ∧ (others.take seenCapacity).Nodup ∧
          first.messageId ∉ others.take seenCapacity := by
  intro overlay past
  have begins : (start registry port).seen.ids = [].take seenCapacity := rfl
  have window : overlay.seen.ids = past.take seenCapacity := run_window begins happenings
  refine ⟨window, overlay.seen.bounded, overlay.seen.distinct, ?_, ?_⟩
  · intro arrival
    rw [← window]
    exact ⟨Arrival.processedBy_iff, Arrival.step_of_seen⟩
  · intro first second between same one two
    have fresh : first.messageId ∉ past.take seenCapacity :=
      window ▸ Arrival.processedBy_iff.mp one
    have grown : (start registry port).recordings [] (happenings ++ first.happening :: between) =
        (overlay.step first.happening).recordings (first.messageId :: past) between := by
      rw [recordings_append]
      change (overlay.step first.happening).recordings
        (recorded past (some first.messageId)) between = _
      rw [recorded, if_neg fresh]
    rcases suffix_recordings (overlay.step first.happening) (first.messageId :: past) between with
      ⟨others, split⟩
    have later : (overlay.run (first.happening :: between)).seen.ids =
        (others ++ first.messageId :: past).take seenCapacity := by
      have shown := run_window begins (happenings ++ first.happening :: between)
      rw [run_append, grown, ← split] at shown
      exact shown
    have old : first.messageId ∉ (others ++ first.messageId :: past).take seenCapacity := by
      rw [← later, same]
      exact Arrival.processedBy_iff.mp two
    rcases apart_of_not_recent old with ⟨long, absent, front⟩
    refine ⟨others, grown.trans split.symm, long, ?_, absent⟩
    rw [← front, ← later]
    exact SeenWindow.distinct _

end Overlay

end LedgerNode
