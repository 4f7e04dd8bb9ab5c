import Mathlib.Data.List.Forall2
import LedgerNode.Proofs.Gossip.Endpoints

namespace LedgerNode

/-!
# Whom a frame reaches, and what the registry learns from it

A node that sends a frame to its peers goes through the list of those that it
holds as connected, and changes the registry that this list was taken from.  The
change never touches a peer that is still to be tried, because everybody is
tried once and is noted under the own id.

So it can be said afterwards who was tried, who got the frame, and what is known
of whom.  A message that reached nobody leaves nobody connected, and until
somebody introduces itself or passes a message on there is nobody whom the next
message could fail to reach.
-/

namespace Registry

theorem get?_disconnect (registry : Registry) (peers : List Peer) (id : String) :
    (registry.disconnect peers).get? id = (registry.get? id).map fun row =>
      if id ∈ peers.map (·.id) then { row with connected := false } else row := by
  induction peers generalizing registry with
  | nil => simp [disconnect]
  | cons peer rest ih =>
      have after : (registry.disconnect (peer :: rest)).get? id =
          ((registry.setConnected peer.id false).disconnect rest).get? id := rfl
      rw [after, ih, get?_setConnected]
      by_cases same : id = peer.id
      · subst same
        rw [if_pos rfl, Option.map_map]
        apply Option.map_congr
        intro row _
        simp
      · rw [if_neg same]
        apply Option.map_congr
        intro row _
        simp [same]

end Registry

namespace Overlay

variable {network : Network} {overlay next : Overlay} {frame : Frame} {targets : List Peer}

/-! ## One frame for many -/

/-- Whether a frame that was meant for some peers did not reach this one. -/
def Missed (network : Network) (targets : List Peer) (peer : Peer) : Prop :=
  peer ∈ targets ∧ network.answers peer = false

instance (network : Network) (targets : List Peer) (peer : Peer) :
    Decidable (Missed network targets peer) := inferInstanceAs (Decidable (_ ∧ _))

/-- A frame was sent to some peers. -/
structure SentTo (network : Network) (frame : Frame) (targets : List Peer)
    (overlay next : Overlay) : Prop where
  /-- Nobody was tried twice. -/
  once : (targets.map (·.id)).Nodup
  /-- Each of those that answer got one frame, and nothing else was sent. -/
  sent : ∃ postings, next.sent = overlay.sent ++ postings ∧
    List.Forall₂ (fun posting peer => posting.frame = frame ∧ network.Reaches peer posting.target)
      postings (targets.filter network.answers)
  own : next.registry.own = overlay.registry.own

theorem reaches_of_answers {peer : Peer} (answers : network.answers peer = true) :
    ∃ target, network.Reaches peer target := by
  rw [Network.answers] at answers
  split at answers
  next target located =>
    have free : network.dial target = none := Option.isNone_iff_eq_none.mp answers
    exact ⟨target, located, by rw [Network.connect, free]⟩
  next => cases answers

/-- One posting for each peer that is reached. -/
theorem forall₂_postings {peers : List Peer}
    (reached : ∀ peer ∈ peers, ∃ target, network.Reaches peer target) (frame : Frame) :
    List.Forall₂ (fun posting peer => posting.frame = frame ∧ network.Reaches peer posting.target)
      (postings frame peers) peers := by
  induction peers with
  | nil => exact .nil
  | cons peer rest ih =>
      rcases List.forall_mem_cons.mp reached with ⟨⟨target, here⟩, others⟩
      have first : postings frame (peer :: rest) = ⟨target, frame⟩ :: postings frame rest := by
        simp [postings, here.1, Except.toOption]
      rw [first]
      exact .cons ⟨rfl, here⟩ (ih others)

theorem sentTo_spread (distinct : (targets.map (·.id)).Nodup) (network : Network)
    (overlay : Overlay) (frame : Frame) :
    SentTo network frame targets overlay (overlay.spread network frame targets) where
  once := distinct
  sent := by
    refine ⟨_, rfl, forall₂_postings ?_ frame⟩
    intro peer member
    exact reaches_of_answers (List.mem_filter.mp member).2
  own := Registry.own_disconnect _

/-- Steps before the sending that send nothing do not count. -/
theorem SentTo.since {earlier : Overlay} (sentTo : SentTo network frame targets overlay next)
    (sent : overlay.sent = earlier.sent) (own : overlay.registry.own = earlier.registry.own) :
    SentTo network frame targets earlier next where
  once := sentTo.once
  sent := sent ▸ sentTo.sent
  own := sentTo.own.trans own

theorem keyed_mem_missed (keyed : overlay.registry.Keyed)
    (connected : ∀ peer ∈ targets, peer ∈ overlay.registry.connected) {id : String} {row : Peer}
    (found : overlay.registry.get? id = some row) :
    id ∈ (targets.filter (!network.answers ·)).map (·.id) ↔ Missed network targets row := by
  have named : row.id = id := keyed id row found
  constructor
  · intro member
    rcases List.mem_map.mp member with ⟨peer, kept, same⟩
    rcases List.mem_filter.mp kept with ⟨target, alone⟩
    -- the peer that was tried is the one that is found under its id
    have here := (keyed.mem_connected_iff.mp (connected peer target)).1
    rw [same, found] at here
    cases here
    exact ⟨target, by simpa using alone⟩
  · rintro ⟨target, alone⟩
    exact List.mem_map.mpr ⟨row, List.mem_filter.mpr ⟨target, by simp [alone]⟩, named⟩

/-- Those that were tried in vain count as disconnected, and of everybody else the same is
known as before. -/
theorem get?_spread (keyed : overlay.registry.Keyed)
    (connected : ∀ peer ∈ targets, peer ∈ overlay.registry.connected) (network : Network)
    (frame : Frame) (id : String) :
    (overlay.spread network frame targets).registry.get? id =
      (overlay.registry.get? id).map fun row =>
        if Missed network targets row then { row with connected := false } else row := by
  rw [spread, Registry.get?_disconnect]
  apply Option.map_congr
  intro row found
  simp only [keyed_mem_missed keyed connected found]

/-! ## Messages of the node's own -/

/-- What publishing a message comes to. -/
structure Published (network : Network) (overlay : Overlay) (topic : String) (data : Bytes)
    (outcome : Except Fault Unit) (next : Overlay) : Prop where
  /-- Every connected peer was tried. -/
  sent : SentTo network
    (.publish topic (overlay.nextId data) overlay.registry.id overlay.registry.id data)
    overlay.registry.connected overlay next
  /-- Those that were tried in vain count as disconnected, and nothing else is changed. -/
  rows : ∀ id, next.registry.get? id = (overlay.registry.get? id).map fun row =>
    if Missed network overlay.registry.connected row then { row with connected := false }
    else row
  fails_iff : outcome ≠ .ok () ↔ overlay.registry.connected ≠ [] ∧
    ∀ peer ∈ overlay.registry.connected, network.answers peer = false
  fault : ∀ fault, outcome = .error fault →
    fault = .network (.noPeerReached overlay.registry.connected.length topic)

/-- Whether a frame comes in. -/
def Event.Incoming : Event → Prop
  | .frame _ _ => True
  | _ => False

/-- Until a frame comes in, a message that is published is sent to nobody and is not lost. -/
def Unheard (overlay : Overlay) : Prop :=
  ∀ happenings : List Happening, (∀ happening ∈ happenings, ¬happening.event.Incoming) →
    ∀ network topic data,
      (overlay.run happenings).registry.connected = [] ∧
      ∃ next, (publish network topic data).run.run (overlay.run happenings) = (.ok (), next) ∧
        next.sent = (overlay.run happenings).sent ∧
        next.registry = (overlay.run happenings).registry

theorem others_nil (overlay : Overlay) : overlay.others [] = overlay.registry.connected := by
  simp [others]

theorem count_answers_eq_zero_iff {peers : List Peer} :
    (peers.map network.answers).count true = 0 ↔
      ∀ peer ∈ peers, network.answers peer = false := by
  rw [List.count_eq_zero, List.mem_map]
  constructor
  · intro none peer member
    exact Bool.eq_false_iff.mpr fun answers => none ⟨peer, member, answers⟩
  · rintro none ⟨peer, member, answers⟩
    rw [none peer member] at answers
    cases answers

theorem published_publish (keyed : overlay.registry.Keyed) (network : Network) (topic : String)
    (data : Bytes) :
    Published network overlay topic data
      ((publish network topic data).run.run overlay).1
      ((publish network topic data).run.run overlay).2 := by
  have some_iff : 0 < overlay.registry.connected.length ↔ overlay.registry.connected ≠ [] :=
    List.length_pos_iff
  rw [run_publish_spread, others_nil]
  refine ⟨?_, ?_, ?_, ?_⟩
  · exact (sentTo_spread keyed.nodup_connected network (overlay.counting data) _).since rfl rfl
  · have counted : (overlay.counting data).registry.Keyed := keyed
    exact get?_spread counted (fun _ member => member) network _
  · dsimp only
    split
    next lost =>
      exact iff_of_true nofun ⟨some_iff.mp lost.1, count_answers_eq_zero_iff.mp lost.2⟩
    next kept =>
      refine iff_of_false (fun failed => failed rfl) fun lost => kept ?_
      exact ⟨some_iff.mpr lost.1, count_answers_eq_zero_iff.mpr lost.2⟩
  · intro fault failed
    dsimp only at failed
    split at failed
    next => exact (Except.error.inj failed).symm
    next => cases failed

/-! ## When nobody is connected -/

theorem disconnect_of_nobody {registry : Registry} : registry.disconnect [] = registry := rfl

/-- A message that is published then goes to nobody. -/
theorem publish_of_nobody (nobody : overlay.registry.connected = []) (network : Network)
    (topic : String) (data : Bytes) :
    (publish network topic data).run.run overlay = (.ok (), overlay.counting data) := by
  rw [run_publish_spread, others_nil, nobody, if_neg (fun lost => Nat.lt_irrefl 0 lost.1)]
  simp [spread, postings, disconnect_of_nobody]

theorem registry_step_of_nobody (nobody : overlay.registry.connected = [])
    {happening : Happening} (own : ¬happening.event.Incoming) :
    (overlay.step happening).registry = overlay.registry := by
  rcases happening with ⟨network, event⟩
  cases event with
  | frame source content => exact absurd trivial own
  | connect address => exact (dials_connect network overlay address).registry
  | publish topic data =>
      exact congrArg (fun ran => ran.2.registry) (publish_of_nobody nobody network topic data)
  | join topic =>
      rcases topics_join overlay topic with ⟨topics, same⟩
      exact congrArg (·.registry) same
  | leave topic => rfl
  | takeAll topic =>
      rcases topics_takeAll overlay topic with ⟨topics, same⟩
      exact congrArg (·.registry) same

theorem registry_run_of_nobody (nobody : overlay.registry.connected = [])
    {happenings : List Happening} (own : ∀ happening ∈ happenings, ¬happening.event.Incoming) :
    (overlay.run happenings).registry = overlay.registry := by
  induction happenings generalizing overlay with
  | nil => rfl
  | cons happening rest ih =>
      rcases List.forall_mem_cons.mp own with ⟨first, others⟩
      have same := registry_step_of_nobody nobody first
      have later : ((overlay.step happening).run rest).registry =
          (overlay.step happening).registry := ih (same ▸ nobody) others
      exact later.trans same

theorem unheard_of_nobody (nobody : overlay.registry.connected = []) : overlay.Unheard := by
  intro happenings own network topic data
  have alone : (overlay.run happenings).registry.connected = [] := by
    rw [registry_run_of_nobody nobody own, nobody]
  exact ⟨alone, _, publish_of_nobody alone network topic data, rfl, rfl⟩

/-- A message that was lost leaves nobody connected. -/
theorem Published.nobody {topic : String} {data : Bytes} {outcome : Except Fault Unit}
    (published : Published network overlay topic data outcome next)
    (keyed : overlay.registry.Keyed) (lost : outcome ≠ .ok ()) :
    next.registry.connected = [] := by
  have missed := (published.fails_iff.mp lost).2
  apply List.eq_nil_iff_forall_not_mem.mpr
  intro peer member
  rcases (Registry.mem_connected _).mp member with ⟨id, found, connected⟩
  rw [published.rows] at found
  rcases Option.map_eq_some_iff.mp found with ⟨row, here, noted⟩
  split at noted
  next =>
    subst noted
    cases connected
  next kept =>
    subst noted
    have tried : row ∈ overlay.registry.connected := by
      rw [keyed.mem_connected_iff, keyed id row here]
      exact ⟨here, connected⟩
    exact kept ⟨tried, missed row tried⟩

/-! ## Messages that are passed on -/

/-- Those to whom a message is passed on: the connected peers, the sender among them, but
for the sender and the origin. -/
def audience (overlay : Overlay) (sender origin : String) : List Peer :=
  (overlay.registry.setConnected sender true).connected.filter
    fun peer => !([sender, origin].contains peer.id)

theorem mem_audience {sender origin : String} {peer : Peer} :
    peer ∈ overlay.audience sender origin ↔
      peer ∈ (overlay.registry.setConnected sender true).connected ∧ peer.id ≠ sender ∧
        peer.id ≠ origin := by
  rw [audience, List.mem_filter]
  simp

/-- What taking a new message comes to. -/
structure Relayed (network : Network) (overlay : Overlay)
    (topic messageId origin sender : String) (data : Bytes)
    (outcome : Except Fault Unit) (next : Overlay) : Prop where
  succeeds : outcome = .ok ()
  /-- The message was passed on as it was, but for the sender, which is the node itself. -/
  sent : SentTo network (.publish topic messageId origin overlay.registry.id data)
    (overlay.audience sender origin) overlay next
  /-- The sender counts as connected if it is known, those that were tried in vain count as
  disconnected, and nothing else is changed. -/
  rows : ∀ id, next.registry.get? id = (overlay.registry.get? id).map fun row =>
    if id = sender then { row with connected := true }
    else if Missed network (overlay.audience sender origin) row then
      { row with connected := false }
    else row

theorem relayed_handlePublish (keyed : overlay.registry.Keyed) {messageId : String}
    (fresh : messageId ∉ overlay.seen.ids) (network : Network) (topic origin sender : String)
    (data : Bytes) :
    Relayed network overlay topic messageId origin sender data
      ((handlePublish network topic messageId origin sender data).run.run overlay).1
      ((handlePublish network topic messageId origin sender data).run.run overlay).2 := by
  let heard := overlay.hearing topic messageId ⟨origin, sender, data⟩ fresh
  have marked : heard.registry.Keyed := keyed.setConnected sender true
  have connected : ∀ peer ∈ overlay.audience sender origin, peer ∈ heard.registry.connected :=
    fun peer member => (mem_audience.mp member).1
  have distinct : ((overlay.audience sender origin).map (·.id)).Nodup :=
    marked.nodup_connected.sublist (List.filter_sublist.map _)
  rw [run_handlePublish_spread fresh]
  refine ⟨rfl, ?_, ?_⟩
  · exact (sentTo_spread distinct network heard _).since rfl rfl
  · intro id
    have rows := get?_spread marked connected network
      (.publish topic messageId origin overlay.registry.id data) id
    refine rows.trans ?_
    change ((overlay.registry.setConnected sender true).get? id).map _ = _
    rw [Registry.get?_setConnected]
    by_cases same : id = sender
    · subst same
      rw [if_pos rfl, Option.map_map]
      apply Option.map_congr
      intro row found
      have spared : ¬Missed network (overlay.audience id origin)
          { row with connected := true } := by
        rintro ⟨tried, -⟩
        exact (mem_audience.mp tried).2.1 (keyed id row found)
      simp [spared]
    · rw [if_neg same]
      apply Option.map_congr
      intro row _
      rw [if_neg same]

/-- Whatever peers a node holds as connected and whichever of them answer: a message of its
own goes to all of them, and a message that it hears for the first time to all but the one
it came from and the one who published it.  Just those that do not answer count as
disconnected then.  Only a message of its own can be lost, which means that somebody was
tried and nobody was reached, and the next one is not lost unless a frame has come in. -/
theorem frames_reach_connected (network : Network) (overlay : Overlay)
    (keyed : overlay.registry.Keyed) :
    (∀ topic data,
      let result := (publish network topic data).run.run overlay
      Published network overlay topic data result.1 result.2 ∧
        (result.1 ≠ .ok () → result.2.Unheard)) ∧
    (∀ topic messageId origin sender data, messageId ∉ overlay.seen.ids →
      let result := (handlePublish network topic messageId origin sender data).run.run overlay
      Relayed network overlay topic messageId origin sender data result.1 result.2) := by
  constructor
  · intro topic data
    have published := published_publish keyed network topic data
    exact ⟨published, fun lost => unheard_of_nobody (published.nobody keyed lost)⟩
  · intro topic messageId origin sender data fresh
    exact relayed_handlePublish keyed fresh network topic origin sender data

/-- A node that knows three others.  The first one can be reached and is not connected.  The
second one does not answer, and the endpoint of the third one is no address. -/
def surrounded : Overlay :=
  start ((Registry.ofOwn (.ofAddress "127.0.0.1" 7000 "me" .node)).upsertAll
    [.ofAddress "127.0.0.1" 7001 "first" .node,
     { Peer.ofAddress "127.0.0.1" 7002 "second" .node with connected := true },
     { Peer.ofAddress "nowhere" 7003 "third" .seed with connected := true }]) 7000

theorem keyed_surrounded : surrounded.registry.Keyed :=
  ((Registry.proper_ofOwn _).upsertAll _).keyed

/-- The node cannot publish anything there.  A message from the first one that the third one
has published is tried on the second one alone, which is disconnected then. -/
theorem frames_reach_connected_surrounded :
    let network := Network.listeningAt [7001]
    let published := (publish network "blocks" [1]).run.run surrounded
    let relayed := (handlePublish network "blocks" "id" "third" "first" [1]).run.run surrounded
    surrounded.registry.Keyed ∧ "id" ∉ surrounded.seen.ids ∧
      Published network surrounded "blocks" [1] published.1 published.2 ∧
      published.1 ≠ .ok () ∧ published.2.Unheard ∧
      Relayed network surrounded "blocks" "id" "third" "first" [1] relayed.1 relayed.2 ∧
      (relayed.2.registry.get? "first").map (·.connected) = some true ∧
      (relayed.2.registry.get? "second").map (·.connected) = some false ∧
      (relayed.2.registry.get? "third").map (·.connected) = some true := by
  intro network published relayed
  have fresh : "id" ∉ surrounded.seen.ids := List.not_mem_nil
  have reaches := frames_reach_connected network surrounded keyed_surrounded
  have lost : published.1 ≠ .ok () :=
    (reaches.1 "blocks" [1]).1.fails_iff.mpr ⟨by decide, by decide⟩
  have passed : Relayed network surrounded "blocks" "id" "third" "first" [1] relayed.1 relayed.2 :=
    reaches.2 "blocks" "id" "third" "first" [1] fresh
  refine ⟨keyed_surrounded, fresh, (reaches.1 "blocks" [1]).1, lost,
    (reaches.1 "blocks" [1]).2 lost, passed, ?_, ?_, ?_⟩
  · rw [passed.rows "first"]
    rfl
  · rw [passed.rows "second"]
    rfl
  · rw [passed.rows "third"]
    rfl

end Overlay

end LedgerNode
