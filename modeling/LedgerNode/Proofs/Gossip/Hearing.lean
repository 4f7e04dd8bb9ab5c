import Mathlib.Data.List.Perm.Subperm
import LedgerNode.Proofs.Gossip.Net

namespace LedgerNode

/-!
# Hearing of a message

A node hears of a message once: when it publishes it, or when the first frame
with it arrives.  Then it has seen the message, and one frame goes to each
connected peer but some.  No connection is lost by that.

A net whose nodes find each other stays like that for as long as fewer messages
are published than a node remembers.
-/

variable {size : Nat}

/-! ## Registries that find the nodes of a net -/

/-- A registry of a node that is connected to nodes near it only, and reaches each of
them that it knows where this one listens. -/
structure Registry.Finds (registry : Registry) (sites : Sites size) (node : Fin size) : Prop where
  own : registry.id = sites.id node
  proper : registry.Proper
  members : ∀ id, registry.Holds id → ∃ other, sites.near node other ∧ sites.id other = id
  located : ∀ other peer, sites.near node other → registry.get? (sites.id other) = some peer →
    ∃ target, (sites.network node).Reaches peer target ∧ sites.listener target = some other

namespace Registry

variable {registry : Registry} {sites : Sites size} {node : Fin size}

/-- A connected peer is another node of the net, and can be reached. -/
theorem Finds.connected (finds : registry.Finds sites node) {peer : Peer}
    (connected : peer ∈ registry.connected) :
    ∃ other target, sites.near node other ∧ other ≠ node ∧ sites.id other = peer.id ∧
      (sites.network node).Reaches peer target ∧ sites.listener target = some other := by
  rcases registry.mem_connected.mp connected with ⟨id, found, flag⟩
  have same := finds.proper.keyed id peer found
  rcases finds.members id ⟨peer, found, flag⟩ with ⟨other, near, named⟩
  rw [← named] at found
  rcases finds.located other peer near found with ⟨target, reached, listens⟩
  refine ⟨other, target, near, ?_, named.trans same.symm, reached, listens⟩
  intro here
  have foreign := finds.proper.foreign
  rw [finds.own, ← here, found] at foreign
  cases foreign

/-- It stays so when a connection to a node nearby is noted. -/
theorem Finds.setConnected (finds : registry.Finds sites node) {sender : Fin size}
    (near : sites.near node sender) :
    (registry.setConnected (sites.id sender) true).Finds sites node where
  own := finds.own
  proper := finds.proper.setConnected _ _
  members := by
    intro id holds
    by_cases same : id = sites.id sender
    · exact ⟨sender, near, same.symm⟩
    · rw [Holds, get?_setConnected, if_neg same] at holds
      exact finds.members id holds
  located := by
    intro other peer close found
    rcases get?_of_setConnected found with ⟨known, _, here, rfl⟩
    exact finds.located other known close here

end Registry

variable {sites : Sites size} {net : Net size} {node : Fin size}

/-! ## A node that hears of a message -/

/-- What a node has become that heard of a message: it has put some messages into the
queue of the topic, and has sent some frames. -/
structure Overlay.Hears (sites : Sites size) (node : Fin size) (overlay next : Overlay)
    (topic id origin : String) (data : Bytes) (except : List String) (added : List Message)
    (outgoing : List Posting) : Prop where
  seen : next.seen.ids = id :: overlay.seen.ids
  finds : next.registry.Finds sites node
  kept : ∀ other, overlay.registry.Holds other → next.registry.Holds other
  listening : ∀ topic, next.topics.contains topic = overlay.topics.contains topic
  queued : next.queue topic = overlay.queue topic ++ added
  sent : next.sent = overlay.sent ++ outgoing
  carried : ∀ posting ∈ outgoing, posting.frame = .publish topic id origin (sites.id node) data ∧
    ∃ other, sites.listener posting.target = some other ∧ sites.near node other ∧
      other ≠ node ∧ sites.id other ∉ except
  single : (outgoing.map fun posting => sites.listener posting.target).Nodup
  reached : ∀ other, overlay.registry.Holds (sites.id other) → sites.id other ∉ except →
    ∃ posting ∈ outgoing, sites.listener posting.target = some other

namespace Registry.Finds

variable {overlay : Overlay} {frame : Frame} {except : List String}

theorem others (finds : overlay.registry.Finds sites node) {peer : Peer}
    (member : peer ∈ overlay.others except) :
    ∃ other target, sites.near node other ∧ other ≠ node ∧ sites.id other ∉ except ∧
      sites.id other = peer.id ∧ (sites.network node).Reaches peer target ∧
      sites.listener target = some other := by
  rcases List.mem_filter.mp member with ⟨connected, kept⟩
  rcases finds.connected connected with ⟨other, target, near, foreign, named, reached, listens⟩
  exact ⟨other, target, near, foreign, by simpa [named] using kept, named, reached, listens⟩

theorem reaches_others (finds : overlay.registry.Finds sites node) :
    ∀ peer ∈ overlay.others except, ∃ target, (sites.network node).Reaches peer target := by
  intro peer member
  rcases finds.others member with ⟨_, target, _, _, _, _, reached, _⟩
  exact ⟨target, reached⟩

theorem mem_postings (finds : overlay.registry.Finds sites node) {posting : Posting}
    (member : posting ∈ Overlay.postings frame (overlay.others except)) :
    posting.frame = frame ∧ ∃ other, sites.listener posting.target = some other ∧
      sites.near node other ∧ other ≠ node ∧ sites.id other ∉ except := by
  rcases List.mem_filterMap.mp member with ⟨peer, inside, posted⟩
  rcases finds.others inside with ⟨other, target, near, foreign, kept, _, reached, listens⟩
  rw [reached.1] at posted
  cases posted
  exact ⟨rfl, other, listens, near, foreign, kept⟩

/-- One frame at most goes to each node. -/
theorem nodup_postings (finds : overlay.registry.Finds sites node) :
    ((Overlay.postings frame (overlay.others except)).map
      fun posting => sites.listener posting.target).Nodup := by
  have distinct : (overlay.others except).Pairwise fun first second => first.id ≠ second.id :=
    (List.pairwise_map.mp finds.proper.nodup_connected).sublist List.filter_sublist
  rw [List.Nodup, List.pairwise_map, Overlay.postings, List.pairwise_filterMap]
  apply distinct.imp_of_mem
  intro first second here there different one posted two sent same
  rcases finds.others here with ⟨other, target, _, _, _, named, reached, listens⟩
  rcases finds.others there with ⟨another, place, _, _, _, called, found, answers⟩
  rw [reached.1] at posted
  rw [found.1] at sent
  cases posted
  cases sent
  apply different
  rw [← named, ← called]
  rw [listens, answers] at same
  rw [Option.some.inj same]

theorem exists_posting (finds : overlay.registry.Finds sites node) {other : Fin size}
    (holds : overlay.registry.Holds (sites.id other)) (kept : sites.id other ∉ except) :
    ∃ posting ∈ Overlay.postings frame (overlay.others except),
      sites.listener posting.target = some other := by
  rcases finds.members _ holds with ⟨_, near, same⟩
  cases sites.distinct same
  rcases holds with ⟨peer, found, connected⟩
  rcases finds.located other peer near found with ⟨target, reached, listens⟩
  have named := finds.proper.keyed _ _ found
  have inside : peer ∈ overlay.others except :=
    List.mem_filter.mpr ⟨overlay.registry.mem_connected.mpr ⟨_, found, connected⟩,
      by simpa [named] using kept⟩
  refine ⟨⟨target, frame⟩, List.mem_filterMap.mpr ⟨peer, inside, ?_⟩, listens⟩
  rw [reached.1]
  rfl

end Registry.Finds

namespace Overlay

variable {overlay : Overlay} {topic id : String} {data : Bytes}

/-- A node that passes a message on to its peers has heard of it, if it has noted
the message before. -/
theorem Hears.of_flood (overlay : Overlay) {middle : Overlay} {origin : String}
    {added : List Message} {except : List String} (seen : middle.seen.ids = id :: overlay.seen.ids)
    (finds : middle.registry.Finds sites node)
    (kept : ∀ other, overlay.registry.Holds other → middle.registry.Holds other)
    (listening : ∀ topic, middle.topics.contains topic = overlay.topics.contains topic)
    (queued : middle.queue topic = overlay.queue topic ++ added)
    (silent : middle.sent = overlay.sent) :
    ∃ outgoing, Hears sites node overlay
      (middle.flood (.publish topic id origin (sites.id node) data) except)
      topic id origin data except added outgoing := by
  refine ⟨_, seen, finds, kept, listening, queued, congrArg (· ++ _) silent, ?_, ?_, ?_⟩
  · intro posting member
    exact finds.mem_postings member
  · exact finds.nodup_postings
  · intro other holds outside
    exact finds.exists_posting (kept _ holds) outside

/-- Publishing succeeds, and the node has heard of its message. -/
theorem publish_hears (finds : overlay.registry.Finds sites node)
    (fresh : overlay.nextId data ∉ overlay.seen.ids)
    (room : overlay.seen.ids.length < seenCapacity) (topic : String) :
    ∃ next outgoing,
      (publish (sites.network node) topic data).run.run overlay = (.ok (), next) ∧
      Hears sites node overlay next topic (overlay.nextId data) (sites.id node) data [] []
        outgoing := by
  have middle : (overlay.publishing _ fresh).registry.Finds sites node := finds
  have performed := run_publish topic fresh middle.reaches_others
  rw [finds.own] at performed
  rcases Hears.of_flood overlay (SeenWindow.ids_push fresh room) middle (fun _ holds => holds)
    (fun _ => rfl) (List.append_nil _).symm rfl with ⟨outgoing, hears⟩
  exact ⟨_, outgoing, performed, hears⟩

/-- Taking a new message succeeds, and the node has heard of it. -/
theorem handlePublish_hears (finds : overlay.registry.Finds sites node)
    (fresh : id ∉ overlay.seen.ids) (room : overlay.seen.ids.length < seenCapacity)
    {sender : Fin size} (near : sites.near node sender) (topic origin : String) (data : Bytes) :
    ∃ next outgoing,
      (handlePublish (sites.network node) topic id origin (sites.id sender) data).run.run
        overlay = (.ok (), next) ∧
      Hears sites node overlay next topic id origin data [sites.id sender, origin]
        (if overlay.topics.contains topic then [⟨origin, sites.id sender, data⟩] else [])
        outgoing := by
  have middle : (overlay.hearing topic id ⟨origin, sites.id sender, data⟩ fresh).registry.Finds
      sites node := finds.setConnected near
  have performed := run_handlePublish_of_fresh fresh middle.reaches_others
  rw [finds.own] at performed
  rcases Hears.of_flood overlay (SeenWindow.ids_push fresh room) middle
    (fun _ holds => holds.setConnected _) (contains_hearing fresh) (queue_hearing fresh) rfl with
    ⟨outgoing, hears⟩
  exact ⟨_, outgoing, performed, hears⟩

end Overlay

/-! ## Calm nets -/

namespace Net

/-- A frame that brings a published message from its sender to a node nearby. -/
def Genuine (sites : Sites size) (published : List String) (transit : Transit size) : Prop :=
  ∃ topic id origin data,
    transit.posting.frame = .publish topic id origin (sites.id transit.sender) data ∧
      id ∈ published ∧
      ∀ receiver, sites.listener transit.posting.target = some receiver →
        sites.near transit.sender receiver

theorem Genuine.mono {published longer : List String} {transit : Transit size}
    (genuine : Genuine sites published transit) (inside : published ⊆ longer) :
    Genuine sites longer transit := by
  rcases genuine with ⟨topic, id, origin, data, brought, known, near⟩
  exact ⟨topic, id, origin, data, brought, inside known, near⟩

/-- A net whose nodes find each other, and in which nobody knows of a message that
was not published. -/
structure Calm (sites : Sites size) (net : Net size) : Prop where
  finds : ∀ node, (net.overlays node).registry.Finds sites node
  known : ∀ node, ∀ id ∈ (net.overlays node).seen.ids, id ∈ net.published
  genuine : ∀ transit ∈ net.flight ++ net.taken, Genuine sites net.published transit
  attributed : ∀ handover ∈ net.handed, handover.messageId ∈ net.published

/-- What one move makes of a calm net. -/
inductive Next (sites : Sites size) (net : Net size) : Net size → Prop where
  | idle : Next sites net net
  /-- A frame is taken by nobody, or by a node that has seen its message. -/
  | ignored {transit : Transit size} {index : Nat}
      (here : net.flight[index]? = some transit)
      (seen : ∀ receiver, sites.listener transit.posting.target = some receiver →
        ∀ id, transit.posting.frame.messageId? = some id →
          id ∈ (net.overlays receiver).seen.ids) :
      Next sites net (net.withdraw transit index)
  /-- A frame brings a new message. -/
  | heard {transit : Transit size} {index : Nat} {receiver : Fin size}
      {topic id origin : String} {data : Bytes} {next : Overlay} {outgoing : List Posting}
      (here : net.flight[index]? = some transit)
      (brought : transit.posting.frame =
        .publish topic id origin (sites.id transit.sender) data)
      (listens : sites.listener transit.posting.target = some receiver)
      (fresh : id ∉ (net.overlays receiver).seen.ids)
      (hears : Overlay.Hears sites receiver (net.overlays receiver) next topic id origin data
        [sites.id transit.sender, origin]
        (if (net.overlays receiver).topics.contains topic then
          [⟨origin, sites.id transit.sender, data⟩] else [])
        outgoing) :
      Next sites net ((net.withdraw transit index).hear receiver topic id next)
  | published {node : Fin size} {topic : String} {data : Bytes} {next : Overlay}
      {outgoing : List Posting}
      (fresh : (net.overlays node).nextId data ∉ net.published)
      (hears : Overlay.Hears sites node (net.overlays node) next topic
        ((net.overlays node).nextId data) (sites.id node) data [] [] outgoing) :
      Next sites net
        { net.hear node topic ((net.overlays node).nextId data) next with
          published := net.published ++ [(net.overlays node).nextId data] }

theorem published_deliver (index : Nat) :
    (net.deliver sites index).published = net.published := by
  rw [deliver]
  split
  next => rfl
  next =>
    split
    next => rfl
    next =>
      rw [take]
      split <;> rfl

/-- The ids of published messages are never forgotten. -/
theorem published_step (move : Move size) : net.published <+: (net.step sites move).published := by
  cases move with
  | publish node topic data => exact List.prefix_append _ _
  | deliver index => exact (published_deliver index).symm ▸ List.prefix_rfl

theorem published_run (moves : List (Move size)) :
    net.published <+: (net.run sites moves).published := by
  induction moves generalizing net with
  | nil => exact List.prefix_rfl
  | cons move rest ih => exact (published_step move).trans ih

/-! ### A node that has heard of a message -/

section Hears

variable {topic id origin : String} {data : Bytes} {next : Overlay} {except : List String}
  {added : List Message} {outgoing : List Posting}
  (hears : Overlay.Hears sites node (net.overlays node) next topic id origin data except added
    outgoing)

include hears

theorem flight_hear :
    (net.hear node topic id next).flight = net.flight ++ outgoing.map (Transit.mk node) := by
  rw [hear, become, hears.sent, List.drop_left]

theorem handed_hear :
    (net.hear node topic id next).handed =
      net.handed ++ added.map fun message => ⟨node, id, message⟩ := by
  rw [hear, become, hears.queued, List.drop_left]

theorem mem_seen_hear {other : Fin size} {another : String} :
    another ∈ ((net.hear node topic id next).overlays other).seen.ids ↔
      another ∈ (net.overlays other).seen.ids ∨ other = node ∧ another = id := by
  by_cases here : other = node
  · subst here
    simp [hear, become, hears.seen, or_comm]
  · simp [hear, become, here]

theorem finds_hear (finds : ∀ other, (net.overlays other).registry.Finds sites other)
    (other : Fin size) :
    ((net.hear node topic id next).overlays other).registry.Finds sites other := by
  by_cases here : other = node
  · subst here
    simpa [hear, become] using hears.finds
  · simpa [hear, become, here] using finds other

theorem linked_hear {first second : Fin size} (linked : net.Linked sites first second) :
    (net.hear node topic id next).Linked sites first second := by
  by_cases here : first = node
  · subst here
    simpa [Linked, hear, become] using hears.kept _ linked
  · simpa [Linked, hear, become, here] using linked

theorem contains_hear (other : Fin size) (name : String) :
    ((net.hear node topic id next).overlays other).topics.contains name =
      (net.overlays other).topics.contains name := by
  by_cases here : other = node
  · subst here
    simpa [hear, become] using hears.listening name
  · simp [hear, become, here]

end Hears

namespace Calm

variable (calm : net.Calm sites)

include calm

/-- A node that hears of a message for the first time has room to remember it. -/
theorem room {published : List String} {id : String} (known : net.published ⊆ published)
    (few : published.length < seenCapacity) (fresh : id ∉ (net.overlays node).seen.ids)
    (member : id ∈ published) : (net.overlays node).seen.ids.length < seenCapacity := by
  have distinct : (id :: (net.overlays node).seen.ids).Nodup :=
    List.nodup_cons.mpr ⟨fresh, (net.overlays node).seen.distinct⟩
  have inside : id :: (net.overlays node).seen.ids ⊆ published :=
    List.cons_subset.mpr ⟨member, fun other seen => known (calm.known node other seen)⟩
  have fewer := (List.subperm_of_subset distinct inside).length_le
  rw [List.length_cons] at fewer
  omega

/-- The origin of a new message hears of it. -/
theorem publish {topic : String} {data : Bytes}
    (distinct : (net.publish sites node topic data).published.Nodup)
    (few : (net.publish sites node topic data).published.length < seenCapacity) :
    ∃ next outgoing,
      (net.overlays node).nextId data ∉ net.published ∧
      Overlay.Hears sites node (net.overlays node) next topic ((net.overlays node).nextId data)
        (sites.id node) data [] [] outgoing ∧
      net.publish sites node topic data =
        { net.hear node topic ((net.overlays node).nextId data) next with
          published := net.published ++ [(net.overlays node).nextId data] } := by
  let id := (net.overlays node).nextId data
  have added : (net.published ++ [id]).Nodup := distinct
  have fresh : id ∉ net.published := by
    intro known
    exact (List.nodup_append.mp added).2.2 id known id List.mem_cons_self rfl
  have unseen : id ∉ (net.overlays node).seen.ids := fun seen => fresh (calm.known node id seen)
  have room := calm.room (List.subset_append_left _ _) few unseen
    (List.mem_append_right _ List.mem_cons_self)
  rcases Overlay.publish_hears (calm.finds node) unseen room topic with
    ⟨next, outgoing, performed, hears⟩
  refine ⟨next, outgoing, fresh, hears, ?_⟩
  rw [Net.publish, actOn, performed]

/-- A frame that somebody takes is ignored, or heard. -/
theorem take {transit : Transit size} {index : Nat} {receiver : Fin size}
    (few : net.published.length < seenCapacity) (here : net.flight[index]? = some transit)
    (listens : sites.listener transit.posting.target = some receiver) :
    Next sites net ((net.withdraw transit index).take sites receiver transit) := by
  have flying : transit ∈ net.flight ++ net.taken :=
    List.mem_append_left _ (List.mem_of_getElem? here)
  rcases calm.genuine transit flying with ⟨topic, id, origin, data, brought, member, near⟩
  have taken : (net.withdraw transit index).take sites receiver transit =
      (net.withdraw transit index).actOn receiver topic id
        (Overlay.handlePublish (sites.network receiver) topic id origin
          (sites.id transit.sender) data) := by
    rw [Net.take, brought]
    rfl
  have same : (net.withdraw transit index).overlays receiver = net.overlays receiver := rfl
  rw [taken, actOn]
  by_cases seen : id ∈ (net.overlays receiver).seen.ids
  · rw [same, Overlay.run_handlePublish_of_seen seen, ← same, hear_self]
    refine .ignored here ?_
    rw [listens, brought]
    rintro _ ⟨⟩ _ ⟨⟩
    exact seen
  · have room := calm.room (List.Subset.refl _) few seen member
    have close := sites.symmetric _ _ (near receiver listens)
    rcases Overlay.handlePublish_hears (calm.finds receiver) seen room close topic origin data with
      ⟨next, outgoing, performed, hears⟩
    rw [same, performed]
    exact .heard here brought listens seen hears

theorem next (move : Move size) (distinct : (net.step sites move).published.Nodup)
    (few : (net.step sites move).published.length < seenCapacity) :
    Next sites net (net.step sites move) := by
  have fewer : net.published.length < seenCapacity :=
    Nat.lt_of_le_of_lt (published_step move).length_le few
  cases move with
  | publish node topic data =>
      rcases calm.publish distinct few with ⟨next, outgoing, fresh, hears, same⟩
      rw [step, same]
      exact .published fresh hears
  | deliver index =>
      rw [step, deliver]
      split
      next => exact .idle
      next transit here =>
        split
        next lost =>
          refine .ignored here ?_
          intro receiver listens
          cases lost.symm.trans listens
        next receiver listens => exact calm.take fewer here listens

/-- Nothing disturbs a calm net: neither a frame that is taken without effect .. -/
theorem withdraw {transit : Transit size} {index : Nat}
    (here : net.flight[index]? = some transit) : (net.withdraw transit index).Calm sites where
  finds := calm.finds
  known := calm.known
  genuine := fun other member => calm.genuine other ((perm_withdraw here).mem_iff.mp member)
  attributed := calm.attributed

/-- .. nor a node that hears of a message. -/
theorem hear {topic id origin : String} {data : Bytes} {next : Overlay} {except : List String}
    {added : List Message} {outgoing : List Posting}
    (hears : Overlay.Hears sites node (net.overlays node) next topic id origin data except added
      outgoing)
    {published : List String} (longer : net.published ⊆ published) (member : id ∈ published) :
    Calm sites { net.hear node topic id next with published } where
  finds := finds_hear hears calm.finds
  known := by
    intro other another seen
    rcases (mem_seen_hear hears).mp seen with before | ⟨-, rfl⟩
    · exact longer (calm.known other another before)
    · exact member
  genuine := by
    intro transit flying
    rw [flight_hear hears, List.append_assoc, List.mem_append, List.mem_append] at flying
    rcases flying with old | new | old
    · exact (calm.genuine transit (List.mem_append_left _ old)).mono longer
    · rcases List.mem_map.mp new with ⟨posting, posted, rfl⟩
      rcases hears.carried posting posted with ⟨carries, other, listens, near, -⟩
      refine ⟨topic, id, origin, data, carries, member, ?_⟩
      intro receiver goal
      cases listens.symm.trans goal
      exact near
    · exact (calm.genuine transit (List.mem_append_right _ old)).mono longer
  attributed := by
    intro handover given
    rw [handed_hear hears, List.mem_append] at given
    rcases given with old | new
    · exact longer (calm.attributed handover old)
    · rcases List.mem_map.mp new with ⟨message, _, rfl⟩
      exact member

end Calm

theorem Next.calm {after : Net size} (next : Next sites net after) (calm : net.Calm sites) :
    after.Calm sites := by
  cases next with
  | idle => exact calm
  | ignored here seen => exact calm.withdraw here
  | @heard transit _ _ _ _ _ _ _ _ here brought listens fresh hears =>
      have flying : transit ∈ net.flight ++ net.taken :=
        List.mem_append_left _ (List.mem_of_getElem? here)
      rcases calm.genuine transit flying with ⟨_, _, _, _, same, member, -⟩
      rw [brought] at same
      cases same
      exact (calm.withdraw here).hear hears (List.Subset.refl _) member
  | published fresh hears =>
      exact calm.hear hears (List.subset_append_left _ _)
        (List.mem_append_right _ List.mem_cons_self)

/-- Nobody ceases to listen to a topic. -/
theorem Next.subscribed {after : Net size} (next : Next sites net after) {topic : String}
    (subscribed : net.Subscribed topic) : after.Subscribed topic := by
  cases next with
  | idle => exact subscribed
  | ignored => exact subscribed
  | @heard transit index _ _ _ _ _ _ _ _ _ _ _ hears =>
      have middle : (net.withdraw transit index).Subscribed topic := subscribed
      exact fun node => (contains_hear hears node topic).trans (middle node)
  | published fresh hears =>
      exact fun node => (contains_hear hears node topic).trans (subscribed node)

/-- What every move keeps in a calm net, a run keeps as well.  The net is calm
afterwards. -/
theorem Calm.run_keeps {Kept : Net size → Prop} (calm : net.Calm sites) (start : Kept net)
    (keeps : ∀ net after, net.Calm sites → Next sites net after → Kept net → Kept after)
    (moves : List (Move size)) (distinct : (net.run sites moves).published.Nodup)
    (few : (net.run sites moves).published.length < seenCapacity) :
    (net.run sites moves).Calm sites ∧ Kept (net.run sites moves) := by
  induction moves generalizing net with
  | nil => exact ⟨calm, start⟩
  | cons move rest ih =>
      have longer : (net.step sites move).published <+: (net.run sites (move :: rest)).published :=
        published_run rest
      have next := calm.next move (distinct.sublist longer.sublist)
        (Nat.lt_of_le_of_lt longer.length_le few)
      exact ih (next.calm calm) (keeps net _ calm next start) distinct few

end Net

end LedgerNode
