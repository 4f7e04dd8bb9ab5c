import Mathlib.Data.Finset.Prod
import Mathlib.Data.Fintype.Card
import Mathlib.Logic.Relation
import LedgerNode.Proofs.Gossip.Hearing

namespace LedgerNode

/-!
# Flooding

A message that is published reaches every node that can be reached over
connections, whatever the connections are and in whatever order the frames
arrive, and every node puts it into its queue once.

A node that has seen the message has sent it to every node that it was connected
to, save the one it has it from and the one that published it.  Both of those have
seen the message before, so that nobody is cut off by being left out.  And nobody
sends a message before seeing it, so that it is sent over no connection twice.
-/

open Relation

variable {size : Nat} {sites : Sites size} {net : Net size} {node : Fin size}

namespace Net

/-! ## The frames with a message -/

theorem mem_copies {id : String} {transit : Transit size} :
    transit ∈ net.copies id ↔
      transit ∈ net.flight ++ net.taken ∧ transit.posting.frame.messageId? = some id := by
  rw [copies, List.mem_filter, decide_eq_true_iff]

theorem mem_copies_of_flight {id : String} {transit : Transit size} {index : Nat}
    (here : net.flight[index]? = some transit)
    (carries : transit.posting.frame.messageId? = some id) : transit ∈ net.copies id :=
  mem_copies.mpr ⟨List.mem_append_left _ (List.mem_of_getElem? here), carries⟩

theorem perm_copies_withdraw {transit : Transit size} {index : Nat}
    (here : net.flight[index]? = some transit) (id : String) :
    ((net.withdraw transit index).copies id).Perm (net.copies id) :=
  (perm_withdraw here).filter _

section Hears

variable {topic id origin : String} {data : Bytes} {next : Overlay} {except : List String}
  {added : List Message} {outgoing : List Posting}
  (hears : Overlay.Hears sites node (net.overlays node) next topic id origin data except added
    outgoing)

include hears

theorem perm_copies_hear :
    ((net.hear node topic id next).copies id).Perm
      (outgoing.map (Transit.mk node) ++ net.copies id) := by
  have all : (outgoing.map (Transit.mk node)).filter (fun transit =>
      transit.posting.frame.messageId? = some id) = outgoing.map (Transit.mk node) := by
    rw [List.filter_eq_self]
    intro transit member
    rcases List.mem_map.mp member with ⟨posting, posted, rfl⟩
    simp [(hears.carried posting posted).1, Frame.messageId?]
  rw [copies, copies, flight_hear hears, List.filter_append, List.filter_append, all,
    List.filter_append, ← List.append_assoc]
  exact List.perm_append_comm.append_right _

theorem copies_hear_of_ne {another : String} (different : another ≠ id) :
    (net.hear node topic id next).copies another = net.copies another := by
  have none : (outgoing.map (Transit.mk node)).filter (fun transit =>
      transit.posting.frame.messageId? = some another) = [] := by
    rw [List.filter_eq_nil_iff]
    intro transit member
    rcases List.mem_map.mp member with ⟨posting, posted, rfl⟩
    simp [(hears.carried posting posted).1, Frame.messageId?, different.symm]
  rw [copies, copies, flight_hear hears, List.filter_append, List.filter_append, none,
    List.append_nil, List.filter_append]
  rfl

/-- A node sends one frame at most to each node. -/
theorem nodup_routes : ((outgoing.map (Transit.mk node)).map sites.route).Nodup := by
  apply List.Nodup.of_map Prod.snd
  rw [List.map_map, List.map_map]
  exact hears.single

/-- One is on its way to every connected node that is not left out. -/
theorem exists_flying {other : Fin size} (linked : net.Linked sites node other)
    (kept : sites.id other ∉ except) :
    ∃ transit ∈ (net.hear node topic id next).flight,
      transit.posting.frame.messageId? = some id ∧
        sites.listener transit.posting.target = some other := by
  rcases hears.reached other linked kept with ⟨posting, posted, goal⟩
  refine ⟨⟨node, posting⟩, ?_, ?_, goal⟩
  · rw [flight_hear hears]
    exact List.mem_append_right _ (List.mem_map_of_mem posted)
  · rw [(hears.carried posting posted).1]
    rfl

theorem handedTo_hear (other : Fin size) (another : String) :
    (net.hear node topic id next).handedTo other another =
      net.handedTo other another ++ if node = other ∧ id = another then added else [] := by
  rw [handedTo, handedTo, handed_hear hears, List.filter_append, List.map_append, List.filter_map]
  split
  next same => simp [same, Function.comp_def]
  next different => simp [different, Function.comp_def]

end Hears

/-! ## A message that floods a net -/

/-- A message has been published, and floods the net over the connections that
there were. -/
structure Flood (sites : Sites size) (links : Fin size → Fin size → Prop) (origin : Fin size)
    (topic id : String) (data : Bytes) (net : Net size) : Prop where
  started : id ∈ (net.overlays origin).seen.ids
  subscribed : net.Subscribed topic
  linked : ∀ first second, links first second → net.Linked sites first second
  copied : ∀ transit ∈ net.copies id,
    transit.posting.frame =
      .publish topic id (sites.id origin) (sites.id transit.sender) data ∧
    id ∈ (net.overlays transit.sender).seen.ids ∧
    ∃ other, sites.listener transit.posting.target = some other ∧
      other ≠ transit.sender ∧ other ≠ origin
  single : ((net.copies id).map sites.route).Nodup
  passed : ∀ first second, id ∈ (net.overlays first).seen.ids → links first second →
    id ∈ (net.overlays second).seen.ids ∨
      ∃ transit ∈ net.flight, transit.posting.frame.messageId? = some id ∧
        sites.listener transit.posting.target = some second
  handed : ∀ node, id ∈ (net.overlays node).seen.ids → node ≠ origin →
    ∃ sender, net.handedTo node id = [⟨sites.id origin, sites.id sender, data⟩]
  unhanded : ∀ node, id ∉ (net.overlays node).seen.ids ∨ node = origin → net.handedTo node id = []

namespace Flood

variable {links : Fin size → Fin size → Prop} {origin : Fin size} {topic id : String}
  {data : Bytes} (flood : Flood sites links origin topic id data net)

include flood

/-- A frame may be taken without effect, if its receiver has seen the message. -/
theorem withdraw {transit : Transit size} {index : Nat}
    (here : net.flight[index]? = some transit)
    (seen : ∀ receiver, sites.listener transit.posting.target = some receiver →
      transit.posting.frame.messageId? = some id → id ∈ (net.overlays receiver).seen.ids) :
    Flood sites links origin topic id data (net.withdraw transit index) where
  started := flood.started
  subscribed := flood.subscribed
  linked := flood.linked
  copied := fun copy member =>
    flood.copied copy ((perm_copies_withdraw here id).mem_iff.mp member)
  single := ((perm_copies_withdraw here id).map _).nodup_iff.mpr flood.single
  passed := by
    intro first second known link
    rcases flood.passed first second known link with arrived | ⟨copy, flying, carries, listens⟩
    · exact .inl arrived
    · rcases List.mem_cons.mp ((perm_flight_withdraw here).mem_iff.mpr flying) with rfl | flying
      · exact .inl (seen second listens carries)
      · exact .inr ⟨copy, flying, carries, listens⟩
  handed := flood.handed
  unhanded := flood.unhanded

/-- The list of published messages has nothing to do with it. -/
theorem with_published (published : List String) :
    Flood sites links origin topic id data { net with published } :=
  ⟨flood.started, flood.subscribed, flood.linked, flood.copied, flood.single, flood.passed,
    flood.handed, flood.unhanded⟩

/-- Other messages have no effect. -/
theorem hear_other {another name source : String} {load : Bytes} {next : Overlay}
    {except : List String} {added : List Message} {outgoing : List Posting}
    (hears : Overlay.Hears sites node (net.overlays node) next name another source load except added
      outgoing) (different : id ≠ another) :
    Flood sites links origin topic id data (net.hear node name another next) where
  started := (mem_seen_hear hears).mpr (.inl flood.started)
  subscribed := fun other => (contains_hear hears other topic).trans (flood.subscribed other)
  linked := fun first second link => linked_hear hears (flood.linked first second link)
  copied := by
    intro copy member
    rw [copies_hear_of_ne hears different] at member
    rcases flood.copied copy member with ⟨carries, seen, goal⟩
    exact ⟨carries, (mem_seen_hear hears).mpr (.inl seen), goal⟩
  single := by
    rw [copies_hear_of_ne hears different]
    exact flood.single
  passed := by
    intro first second known link
    rcases (mem_seen_hear hears).mp known with before | ⟨-, same⟩
    · rcases flood.passed first second before link with arrived | ⟨copy, flying, carries⟩
      · exact .inl ((mem_seen_hear hears).mpr (.inl arrived))
      · refine .inr ⟨copy, ?_, carries⟩
        rw [flight_hear hears]
        exact List.mem_append_left _ flying
    · exact absurd same different
  handed := by
    intro other known foreign
    rw [handedTo_hear hears, if_neg (fun both => different both.2.symm), List.append_nil]
    rcases (mem_seen_hear hears).mp known with before | ⟨-, same⟩
    · exact flood.handed other before foreign
    · exact absurd same different
  unhanded := by
    intro other unknown
    rw [handedTo_hear hears, if_neg (fun both => different both.2.symm), List.append_nil]
    exact flood.unhanded other
      (unknown.imp_left fun fresh before => fresh ((mem_seen_hear hears).mpr (.inl before)))

/-- A node that hears of the message passes it on. -/
theorem hear {transit : Transit size} {index : Nat} {receiver : Fin size} {next : Overlay}
    {outgoing : List Posting} (here : net.flight[index]? = some transit)
    (brought : transit.posting.frame =
      .publish topic id (sites.id origin) (sites.id transit.sender) data)
    (listens : sites.listener transit.posting.target = some receiver)
    (fresh : id ∉ (net.overlays receiver).seen.ids)
    (hears : Overlay.Hears sites receiver (net.overlays receiver) next topic id (sites.id origin)
      data [sites.id transit.sender, sites.id origin]
      [⟨sites.id origin, sites.id transit.sender, data⟩] outgoing) :
    Flood sites links origin topic id data
      ((net.withdraw transit index).hear receiver topic id next) := by
  let middle := net.withdraw transit index
  have heard : Overlay.Hears sites receiver (middle.overlays receiver) next topic id
      (sites.id origin) data _ _ outgoing := hears
  have copies_middle := perm_copies_withdraw here id
  have member := mem_copies_of_flight here (show _ = some id by rw [brought]; rfl)
  have sender_knows := (flood.copied transit member).2.1
  have foreign : receiver ≠ origin := fun same => fresh (same ▸ flood.started)
  constructor
  case started => exact (mem_seen_hear heard).mpr (.inl flood.started)
  case subscribed =>
    exact fun other => (contains_hear heard other topic).trans (flood.subscribed other)
  case linked => exact fun first second link => linked_hear heard (flood.linked first second link)
  case copied =>
    intro copy member
    rcases List.mem_append.mp ((perm_copies_hear heard).mem_iff.mp member) with new | old
    · rcases List.mem_map.mp new with ⟨posting, posted, rfl⟩
      rcases heard.carried posting posted with ⟨carries, other, goal, -, elsewhere, kept⟩
      refine ⟨carries, (mem_seen_hear heard).mpr (.inr ⟨rfl, rfl⟩), other, goal, elsewhere, ?_⟩
      rintro rfl
      simp at kept
    · rcases flood.copied copy (copies_middle.mem_iff.mp old) with ⟨carries, seen, goal⟩
      exact ⟨carries, (mem_seen_hear heard).mpr (.inl seen), goal⟩
  case single =>
    rw [((perm_copies_hear heard).map _).nodup_iff, List.map_append, List.nodup_append]
    refine ⟨nodup_routes heard, ((copies_middle.map _).nodup_iff).mpr flood.single, ?_⟩
    -- whoever has sent it before has seen it, and the receiver had not
    rintro route new _ old rfl
    rcases List.mem_map.mp new with ⟨_, sent, rfl⟩
    rcases List.mem_map.mp sent with ⟨posting, _, rfl⟩
    rcases List.mem_map.mp old with ⟨copy, member, same⟩
    have sender : copy.sender = receiver := congrArg Prod.fst same
    have seen := (flood.copied copy (copies_middle.mem_iff.mp member)).2.1
    rw [sender] at seen
    exact fresh seen
  case passed =>
    intro first second known link
    rcases (mem_seen_hear heard).mp known with before | ⟨rfl, -⟩
    · rcases flood.passed first second before link with arrived | ⟨copy, flying, carries, goal⟩
      · exact .inl ((mem_seen_hear heard).mpr (.inl arrived))
      · rcases List.mem_cons.mp ((perm_flight_withdraw here).mem_iff.mpr flying) with rfl | flying
        · rw [listens] at goal
          exact .inl ((mem_seen_hear heard).mpr (.inr ⟨(Option.some.inj goal).symm, rfl⟩))
        · refine .inr ⟨copy, ?_, carries, goal⟩
          rw [flight_hear heard]
          exact List.mem_append_left _ flying
    · by_cases back : second = transit.sender
      · exact .inl ((mem_seen_hear heard).mpr (.inl (back ▸ sender_knows)))
      · by_cases home : second = origin
        · exact .inl ((mem_seen_hear heard).mpr (.inl (home ▸ flood.started)))
        · have kept : sites.id second ∉ [sites.id transit.sender, sites.id origin] := by
            simp [sites.distinct.eq_iff, back, home]
          exact .inr (exists_flying heard (flood.linked first second link) kept)
  case handed =>
    intro other known elsewhere
    rw [handedTo_hear heard]
    rcases (mem_seen_hear heard).mp known with before | ⟨rfl, -⟩
    · have different : receiver ≠ other := fun same => fresh (same ▸ before)
      rw [if_neg (fun both => different both.1), List.append_nil]
      exact flood.handed other before elsewhere
    · have empty : middle.handedTo other id = [] := flood.unhanded other (.inl fresh)
      rw [if_pos ⟨rfl, rfl⟩, empty]
      exact ⟨transit.sender, rfl⟩
  case unhanded =>
    intro other unknown
    have different : receiver ≠ other := by
      rintro rfl
      rcases unknown with unseen | same
      · exact unseen ((mem_seen_hear heard).mpr (.inr ⟨rfl, rfl⟩))
      · exact foreign same
    rw [handedTo_hear heard, if_neg (fun both => different both.1), List.append_nil]
    exact flood.unhanded other
      (unknown.imp_left fun unseen before => unseen ((mem_seen_hear heard).mpr (.inl before)))

/-- A message goes on flooding the net, whatever happens. -/
theorem next {after : Net size} (calm : net.Calm sites) (next : Next sites net after) :
    Flood sites links origin topic id data after := by
  cases next with
  | idle => exact flood
  | ignored here seen => exact flood.withdraw here fun receiver listens => seen receiver listens id
  | @heard transit index receiver name another source load next outgoing here brought listens
      fresh hears =>
      by_cases same : id = another
      · subst same
        have member := mem_copies_of_flight here (show _ = some id by rw [brought]; rfl)
        have carries := (flood.copied transit member).1
        rw [brought] at carries
        cases carries
        rw [if_pos (flood.subscribed receiver)] at hears
        exact flood.hear here brought listens fresh hears
      · have kept := flood.withdraw here fun _ _ carries => by
          rw [brought] at carries
          exact absurd (Option.some.inj carries).symm same
        exact kept.hear_other hears same
  | @published node name load next outgoing fresh hears =>
      have known := calm.known origin id flood.started
      have different : id ≠ (net.overlays node).nextId load := fun same => fresh (same ▸ known)
      exact (flood.hear_other hears different).with_published _

/-- Where nothing of the message is on its way, it has come everywhere. -/
theorem arrived (quiet : ∀ transit ∈ net.flight, transit.posting.frame.messageId? ≠ some id)
    (reachable : ReflTransGen links origin node) : id ∈ (net.overlays node).seen.ids := by
  induction reachable with
  | refl => exact flood.started
  | tail _ link ih =>
      rcases flood.passed _ _ ih link with arrived | ⟨transit, flying, carries, _⟩
      · exact arrived
      · exact absurd carries (quiet transit flying)

/-- There is no more than one frame for two different nodes. -/
theorem length_copies : (net.copies id).length ≤ size * (size - 1) := by
  let pairs : Finset (Fin size × Option (Fin size)) :=
    (Finset.univ : Finset (Fin size)).offDiag.image fun pair => (pair.1, some pair.2)
  have inside : ((net.copies id).map sites.route).toFinset ⊆ pairs := by
    intro route member
    rcases List.mem_map.mp (List.mem_toFinset.mp member) with ⟨copy, sent, rfl⟩
    rcases flood.copied copy sent with ⟨-, -, other, goal, elsewhere, -⟩
    refine Finset.mem_image.mpr ⟨(copy.sender, other), ?_, ?_⟩
    · simpa using elsewhere.symm
    · rw [Sites.route, goal]
  calc (net.copies id).length
      = ((net.copies id).map sites.route).toFinset.card := by
        rw [List.toFinset_card_of_nodup flood.single, List.length_map]
    _ ≤ pairs.card := Finset.card_le_card inside
    _ ≤ (Finset.univ : Finset (Fin size)).offDiag.card := Finset.card_image_le
    _ = size * (size - 1) := by
        rw [Finset.offDiag_card, Finset.card_univ, Fintype.card_fin, Nat.mul_sub, Nat.mul_one]

/-- The message is in the queue of a node once or not at all. -/
theorem handedTo_cases (node : Fin size) :
    net.handedTo node id = [] ∨
      ∃ sender, net.handedTo node id = [⟨sites.id origin, sites.id sender, data⟩] := by
  by_cases known : id ∈ (net.overlays node).seen.ids
  · by_cases home : node = origin
    · exact .inl (flood.unhanded node (.inr home))
    · exact .inr (flood.handed node known home)
  · exact .inl (flood.unhanded node (.inl known))

/-- Flooding ends: when the frames are taken, there is a time when none of the message
is on its way. -/
theorem ends (calm : net.Calm sites) (distinct : net.published.Nodup)
    (few : net.published.length < seenCapacity) :
    ∃ indices : List Nat, ∀ transit ∈ (net.run sites (indices.map .deliver)).flight,
      transit.posting.frame.messageId? ≠ some id := by
  let Kept (net : Net size) : Prop :=
    (net.published.Nodup ∧ net.published.length < seenCapacity) ∧ net.Calm sites ∧
      Flood sites links origin topic id data net
  have keeps (net : Net size) (index : Nat) : Kept net → Kept (net.deliver sites index) := by
    rintro ⟨fine, calm, flood⟩
    have same : (net.deliver sites index).published = net.published := published_deliver index
    rw [← same] at fine
    have next := calm.next (.deliver index) fine.1 fine.2
    exact ⟨fine, next.calm calm, flood.next calm next⟩
  have bound (net : Net size) : Kept net → (net.taken.filter fun transit =>
      transit.posting.frame.messageId? = some id).length ≤ size * (size - 1) := by
    rintro ⟨-, -, flood⟩
    refine Nat.le_trans ?_ flood.length_copies
    rw [copies, List.filter_append, List.length_append]
    exact Nat.le_add_left _ _
  rcases exists_quiet keeps bound ⟨⟨distinct, few⟩, calm, flood⟩ with ⟨indices, quiet⟩
  refine ⟨indices, fun transit flying => ?_⟩
  simpa using quiet transit flying

end Flood

/-- A message that is published in a calm net begins to flood it. -/
theorem Calm.flood (calm : net.Calm sites) {origin : Fin size} {topic id : String} {data : Bytes}
    {next : Overlay} {outgoing : List Posting} (fresh : id ∉ net.published)
    (subscribed : net.Subscribed topic)
    (hears : Overlay.Hears sites origin (net.overlays origin) next topic id (sites.id origin) data
      [] [] outgoing) :
    Flood sites (net.Linked sites) origin topic id data (net.hear origin topic id next) := by
  have none_copied : net.copies id = [] := by
    apply List.filter_eq_nil_iff.mpr
    intro transit member
    rcases calm.genuine transit member with ⟨_, _, _, _, brought, known, -⟩
    rw [brought, Frame.messageId?, decide_eq_true_iff]
    rintro ⟨⟩
    exact fresh known
  have copies : ((net.hear origin topic id next).copies id).Perm
      (outgoing.map (Transit.mk origin)) := by
    have all := perm_copies_hear hears
    rwa [none_copied, List.append_nil] at all
  have none_handed (node : Fin size) : (net.hear origin topic id next).handedTo node id = [] := by
    rw [handedTo_hear hears, ite_self, List.append_nil, handedTo, List.map_eq_nil_iff,
      List.filter_eq_nil_iff]
    intro handover member
    have different : handover.messageId ≠ id := by
      rintro rfl
      exact fresh (calm.attributed handover member)
    simp [different]
  have only_origin {node : Fin size}
      (known : id ∈ ((net.hear origin topic id next).overlays node).seen.ids) : node = origin := by
    rcases (mem_seen_hear hears).mp known with before | ⟨here, -⟩
    · exact absurd (calm.known node id before) fresh
    · exact here
  constructor
  case started => exact (mem_seen_hear hears).mpr (.inr ⟨rfl, rfl⟩)
  case subscribed => exact fun node => (contains_hear hears node topic).trans (subscribed node)
  case linked => exact fun first second link => linked_hear hears link
  case copied =>
    intro copy member
    rcases List.mem_map.mp (copies.mem_iff.mp member) with ⟨posting, posted, rfl⟩
    rcases hears.carried posting posted with ⟨carries, other, goal, -, elsewhere, -⟩
    exact ⟨carries, (mem_seen_hear hears).mpr (.inr ⟨rfl, rfl⟩), other, goal, elsewhere, elsewhere⟩
  case single =>
    rw [(copies.map _).nodup_iff]
    exact nodup_routes hears
  case passed =>
    intro first second known link
    cases only_origin known
    exact .inr (exists_flying hears link List.not_mem_nil)
  case handed => exact fun node known foreign => absurd (only_origin known) foreign
  case unhanded => exact fun node _ => none_handed node

/-- It floods the net until the end of every run. -/
theorem Calm.flood_run (calm : net.Calm sites) {origin : Fin size} {topic : String} {data : Bytes}
    {later : List (Move size)}
    (subscribed : net.Subscribed topic)
    (distinct : (net.run sites (.publish origin topic data :: later)).published.Nodup)
    (few : (net.run sites (.publish origin topic data :: later)).published.length < seenCapacity) :
    let final := net.run sites (.publish origin topic data :: later)
    final.Calm sites ∧ Flood sites (net.Linked sites) origin topic
      ((net.overlays origin).nextId data) data final := by
  intro final
  have longer : (net.publish sites origin topic data).published <+: final.published :=
    published_run later
  rcases calm.publish (distinct.sublist longer.sublist)
    (Nat.lt_of_le_of_lt longer.length_le few) with ⟨next, outgoing, unknown, hears, same⟩
  have begun : Flood sites (net.Linked sites) origin topic ((net.overlays origin).nextId data) data
      (net.publish sites origin topic data) := by
    rw [same]
    exact (calm.flood unknown subscribed hears).with_published _
  have steady : (net.publish sites origin topic data).Calm sites := by
    rw [same]
    exact (Next.published unknown hears).calm calm
  exact steady.run_keeps begun (fun _ _ calm next flood => flood.next calm next) later distinct few

/-! ## Delivery -/

/-- A net in which nothing has happened yet. -/
structure Fresh (sites : Sites size) (net : Net size) : Prop where
  finds : ∀ node, (net.overlays node).registry.Finds sites node
  unseen : ∀ node, (net.overlays node).seen.ids = []
  flight : net.flight = []
  taken : net.taken = []
  handed : net.handed = []
  published : net.published = []

theorem Fresh.calm (fresh : net.Fresh sites) : net.Calm sites where
  finds := fresh.finds
  known := by
    intro node id seen
    rw [fresh.unseen node] at seen
    cases seen
  genuine := by
    rw [fresh.flight, fresh.taken]
    nofun
  attributed := by
    rw [fresh.handed]
    nofun

/-- Flooding delivers once.  In a net of any shape that has published fewer messages
than a node remembers, a message comes to every node that was reachable from its
origin; nobody puts it into the queue twice, and its origin not at all.  No node
sends it to another one twice, so that it is on its way a limited number of times. -/
theorem flooding_delivers_once (sites : Sites size) (start : Net size) (fresh : start.Fresh sites)
    (topic : String) (subscribed : start.Subscribed topic)
    (before later : List (Move size)) (origin : Fin size) (data : Bytes)
    (distinct :
      (start.run sites (before ++ .publish origin topic data :: later)).published.Nodup)
    (few : (start.run sites (before ++ .publish origin topic data :: later)).published.length <
      seenCapacity) :
    let earlier := start.run sites before
    let id := (earlier.overlays origin).nextId data
    let final := earlier.run sites (.publish origin topic data :: later)
    (∀ node, (final.handedTo node id).length ≤ 1) ∧
    final.handedTo origin id = [] ∧
    (∀ node, ∀ message ∈ final.handedTo node id,
      message.origin = sites.id origin ∧ message.data = data) ∧
    ((final.copies id).map sites.route).Nodup ∧
    (final.copies id).length ≤ size * (size - 1) ∧
    (∃ indices : List Nat, ∀ transit ∈ (final.run sites (indices.map .deliver)).flight,
      transit.posting.frame.messageId? ≠ some id) ∧
    ((∀ transit ∈ final.flight, transit.posting.frame.messageId? ≠ some id) →
      ∀ node, node ≠ origin → ReflTransGen (earlier.Linked sites) origin node →
        (final.handedTo node id).length = 1) := by
  intro earlier id final
  have whole : start.run sites (before ++ .publish origin topic data :: later) = final :=
    List.foldl_append
  rw [whole] at distinct few
  have longer : earlier.published <+: final.published := published_run _
  rcases fresh.calm.run_keeps subscribed (fun _ _ _ next before => next.subscribed before) before
    (distinct.sublist longer.sublist) (Nat.lt_of_le_of_lt longer.length_le few) with
    ⟨calm, subscribed⟩
  rcases calm.flood_run subscribed distinct few with ⟨steady, flood⟩
  refine ⟨?_, flood.unhanded origin (.inr rfl), ?_, flood.single, flood.length_copies,
    flood.ends steady distinct few, ?_⟩
  · intro node
    rcases flood.handedTo_cases node with none | ⟨sender, one⟩
    · rw [none]
      exact Nat.zero_le 1
    · rw [one]
      exact Nat.le_refl 1
  · intro node message member
    rcases flood.handedTo_cases node with none | ⟨sender, one⟩
    · rw [none] at member
      cases member
    · rw [one, List.mem_singleton] at member
      rw [member]
      exact ⟨rfl, rfl⟩
  · intro quiet node foreign reachable
    rcases flood.handed node (flood.arrived quiet reachable) foreign with ⟨sender, one⟩
    rw [one]
    rfl

/-- The nodes next to each other are connected. -/
def rowRegistry (node : Fin 3) : Registry :=
  let others := (List.finRange 3).filter fun other =>
    other.val + 1 = node.val ∨ node.val + 1 = other.val
  (Registry.ofOwn (rowPeer node)).upsertAll (others.map rowKnown)

def rowNet : Net 3 where
  overlays node :=
    { registry := rowRegistry node
      seen := .empty
      topics := OrderedMap.empty.insert blocksTopic []
      dialled := []
      published := 0
      sent := [] }
  flight := []
  taken := []
  handed := []
  published := []

theorem rowNet_finds (node : Fin 3) : (rowRegistry node).Finds row node := by
  have known (other : Fin 3) (peer : Peer)
      (found : (rowRegistry node).get? (row.id other) = some peer) : peer = rowKnown other := by
    rcases Registry.get?_of_upsertAll found with none | ⟨member, same⟩
    · cases none
    · rcases List.mem_map.mp member with ⟨another, _, rfl⟩
      rw [row.distinct same]
  refine ⟨Registry.id_upsertAll _, (Registry.proper_ofOwn _).upsertAll _, ?_, ?_⟩
  · rintro id ⟨peer, found, -⟩
    rcases Registry.get?_of_upsertAll found with none | ⟨member, same⟩
    · cases none
    · rcases List.mem_map.mp member with ⟨other, _, rfl⟩
      exact ⟨other, trivial, same⟩
  · intro other peer _ found
    rw [known other peer found]
    exact ⟨rowAddress other, row_reaches node other⟩

/-- In a row of three nodes a message comes from one end to the other. -/
theorem flooding_delivers_once_row :
    let moves : List (Move 3) := [.publish 0 blocksTopic [1], .deliver 0, .deliver 0]
    ((rowNet.run row moves).handedTo 2 ((rowNet.overlays 0).nextId [1])).length = 1 := by
  let final := rowNet.run row [.publish 0 blocksTopic [1], .deliver 0, .deliver 0]
  have published : final.published = [(rowNet.overlays 0).nextId [1]] := by
    have none : rowNet.published = [] := rfl
    simp only [final, run, List.foldl_cons, List.foldl_nil, step, published_deliver, publish, none,
      List.nil_append]
  have quiet : final.flight = [] := by decide +kernel
  have fresh : rowNet.Fresh row := ⟨rowNet_finds, fun _ => rfl, rfl, rfl, rfl, rfl⟩
  have subscribed : rowNet.Subscribed blocksTopic := fun _ => rfl
  have once := flooding_delivers_once row rowNet fresh blocksTopic subscribed []
    [.deliver 0, .deliver 0] 0 [1]
    (published ▸ List.nodup_singleton _) (published ▸ by decide)
  have start : rowNet.run row [] = rowNet := rfl
  simp only [start] at once
  have first : rowNet.Linked row 0 1 := ⟨rowKnown 1, by decide +kernel, rfl⟩
  have second : rowNet.Linked row 1 2 := ⟨rowKnown 2, by decide +kernel, rfl⟩
  rcases once with ⟨-, -, -, -, -, -, everywhere⟩
  have arrived : ∀ transit ∈ final.flight,
      transit.posting.frame.messageId? ≠ some ((rowNet.overlays 0).nextId [1]) := by
    rw [quiet]
    exact List.forall_mem_nil _
  exact everywhere arrived 2 (by decide) ((ReflTransGen.single first).tail second)

end Net

end LedgerNode
