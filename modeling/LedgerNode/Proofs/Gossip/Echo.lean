import Mathlib
import LedgerNode.Proofs.Gossip.Handshake

namespace LedgerNode

/-!
# Introductions are not answered forever

Whoever introduces itself and is answered is known afterwards, and whoever is
known is not answered.  So a node answers each id at most once, and the answers
that nodes give to each other come to an end: every answer uses up a pair of a
node and an id that it did not know.

There is one exception.  A registry does not list the node itself, so that an
introduction under the node's own id is always one of somebody unknown, and is
answered every time.  A node that is led to introduce itself to itself goes on
with it for good.  The bound on the frames therefore counts these introductions
apart.
-/

namespace Registry

/-- Whoever is put is known then, except for the node itself. -/
theorem contains_upsert (registry : Registry) (peer : Peer) (id : String) :
    (registry.upsert peer).2.contains id = true ↔
      registry.contains id = true ∨ id = peer.id ∧ peer.id ≠ registry.id := by
  rw [upsert]
  split
  next own => simp [own]
  next foreign =>
    rw [contains, contains, OrderedMap.contains, OrderedMap.contains, OrderedMap.get?_insert]
    split
    next same => simp [same, foreign]
    next different => simp [different, OrderedMap.contains]

/-- The node itself is left out. -/
theorem upsert_own {registry : Registry} {peer : Peer} (own : peer.id = registry.id) :
    (registry.upsert peer).2 = registry := by
  rw [upsert, if_pos own]

theorem contains_eq_false_iff {registry : Registry} {id : String} :
    registry.contains id = false ↔ registry.get? id = none :=
  Option.isSome_eq_false_iff.trans Option.isNone_iff_eq_none

end Registry

/-- The id under which a frame introduces somebody. -/
def Frame.helloId? : Frame → Option String
  | .hello peer _ => some peer.id
  | .publish .. => none

/-! ## A node that takes introductions -/

/-- An introduction that comes in, and what surrounds the node at that time. -/
structure Greeting where
  network : Network
  peer : Peer
  observedAddress : Option String
  source : IpAddress

namespace Overlay

variable {overlay next : Overlay} {peer : Peer} {network : Network} {source : IpAddress}

def greet (overlay : Overlay) (greeting : Greeting) : Overlay :=
  ((handleHello greeting.network greeting.peer greeting.observedAddress
    greeting.source).run.run overlay).2

/-- The node after introductions, one after another. -/
def greetAll (overlay : Overlay) (greetings : List Greeting) : Overlay :=
  greetings.foldl greet overlay

/-- The frames that the node sends when introductions come in, each with the id
under which the introduction came that it answers. -/
def answers (overlay : Overlay) : List Greeting → List (String × Posting)
  | [] => []
  | greeting :: rest =>
      let next := overlay.greet greeting
      (next.sent.drop overlay.sent.length).map (greeting.peer.id, ·) ++ next.answers rest

/-- What a node has become that has taken an introduction under an id.  It has
forgotten nobody.  If it has answered, the id was unknown, and it is known now
unless it is the node's own. -/
structure Took (overlay next : Overlay) (id : String) (answer : Option Posting) : Prop where
  own : next.registry.id = overlay.registry.id
  keeps : ∀ known, overlay.registry.contains known = true → next.registry.contains known = true
  sent : next.sent = overlay.sent ++ answer.toList
  unknown : answer.isSome → overlay.registry.contains id = false
  enters : answer.isSome → id ≠ overlay.registry.id → next.registry.contains id = true
  introduces : ∀ posting ∈ answer, posting.frame.helloId? = some overlay.registry.id

/-- Putting a peer without sending anything answers nobody. -/
theorem Took.of_upsert (peer : Peer) {id : String}
    (put : next.registry = (overlay.registry.upsert peer).2) (sent : next.sent = overlay.sent) :
    Took overlay next id none where
  own := by rw [put, Registry.id_upsert]
  keeps known found := by
    rw [put, Registry.contains_upsert]
    exact .inl found
  sent := by rw [sent, Option.toList_none, List.append_nil]
  unknown := nofun
  enters := nofun
  introduces := nofun

/-- Nothing is sent to an address that does not answer. -/
theorem run_send_of_fault {target : SocketAddress} {fault : Fault}
    (refused : network.connect target = .error fault) (frame : Frame) :
    (send network target frame).run.run overlay = (.error fault, overlay) := by
  rw [send.eq_def, refused]
  rfl

theorem took_welcome (overlay : Overlay) (network : Network) (peer : Peer) (source : IpAddress)
    (unknown : overlay.registry.contains peer.id = false) :
    ∃ answer, Took overlay ((welcome network peer source).run.run overlay).2 peer.id answer := by
  cases located : peer.socketAddress with
  | error fault =>
      have unchanged : ((welcome network peer source).run.run overlay).2 = overlay := by
        rw [welcome, located]
        rfl
      rw [unchanged]
      refine ⟨none, rfl, fun _ found => found, (List.append_nil _).symm, ?_, ?_, ?_⟩ <;>
        simp
  | ok target =>
      cases connects : network.connect target with
      | error fault =>
          have unsent : ((welcome network peer source).run.run overlay).2 =
              { overlay with
                registry := (overlay.registry.upsert { peer with direction := .inbound }).2 } := by
            rw [welcome, located]
            exact congrArg Prod.snd (run_send_of_fault connects _)
          rw [unsent]
          exact ⟨none, Took.of_upsert _ rfl rfl⟩
      | ok answered =>
          rw [run_welcome ⟨located, connects⟩]
          refine ⟨some _, Registry.id_upsert _ _, ?_, rfl, fun _ => unknown, ?_, ?_⟩
          · exact fun known found => (Registry.contains_upsert _ _ _).mpr (.inl found)
          · exact fun _ foreign => (Registry.contains_upsert _ _ _).mpr (.inr ⟨rfl, foreign⟩)
          · rintro _ ⟨⟩
            exact congrArg some (Registry.id_upsert _ _)

/-- What a node learns about itself does not change whom it takes for a stranger. -/
theorem Took.of_learning (observedAddress : Option String) {id : String}
    {answer : Option Posting} (took : Took (overlay.learning observedAddress) next id answer) :
    Took overlay next id answer := by
  have same : (overlay.learning observedAddress).registry.id = overlay.registry.id :=
    id_learning observedAddress
  exact ⟨took.own.trans same, took.keeps, took.sent, took.unknown, same ▸ took.enters,
    same ▸ took.introduces⟩

theorem took_handleHello (overlay : Overlay) (network : Network) (peer : Peer)
    (observedAddress : Option String) (source : IpAddress) :
    ∃ answer, Took overlay
      ((handleHello network peer observedAddress source).run.run overlay).2 peer.id answer := by
  rw [run_handleHello]
  cases known : overlay.registry.get? peer.id with
  | some old =>
      exact ⟨none, Took.of_learning observedAddress (Took.of_upsert
        { introduced peer source with direction := old.direction } rfl rfl)⟩
  | none =>
      dsimp only
      split
      next =>
        exact ⟨none, Took.of_learning observedAddress (Took.of_upsert
          { introduced peer source with direction := .outbound } rfl rfl)⟩
      next =>
        have unknown : (overlay.learning observedAddress).registry.contains peer.id = false :=
          Registry.contains_eq_false_iff.mpr known
        rcases took_welcome (overlay.learning observedAddress) network (introduced peer source)
          source unknown with ⟨answer, took⟩
        exact ⟨answer, took.of_learning observedAddress⟩

theorem took_greet (overlay : Overlay) (greeting : Greeting) :
    ∃ answer, Took overlay (overlay.greet greeting) greeting.peer.id answer :=
  took_handleHello _ _ _ _ _

/-- What a node sends when it takes an introduction is the answer to it. -/
theorem Took.answers_cons {greeting : Greeting} {answer : Option Posting}
    (took : Took overlay (overlay.greet greeting) greeting.peer.id answer)
    (rest : List Greeting) :
    overlay.answers (greeting :: rest) =
      answer.toList.map (greeting.peer.id, ·) ++ (overlay.greet greeting).answers rest := by
  rw [answers, took.sent, List.drop_left]

/-- All that is sent when introductions come in are the answers to them. -/
theorem sent_greetAll (overlay : Overlay) (greetings : List Greeting) :
    (overlay.greetAll greetings).sent =
      overlay.sent ++ (overlay.answers greetings).map (·.2) := by
  induction greetings generalizing overlay with
  | nil => exact (List.append_nil _).symm
  | cons greeting rest ih =>
      rcases overlay.took_greet greeting with ⟨answer, took⟩
      have first : (answer.toList.map (greeting.peer.id, ·)).map (·.2) = answer.toList := by
        rw [List.map_map]
        exact List.map_id _
      rw [took.answers_cons, List.map_append, first, ← List.append_assoc, ← took.sent]
      exact ih (overlay.greet greeting)

/-- A node answers with its own introduction. -/
theorem helloId?_of_mem_answers {answered : String × Posting} {greetings : List Greeting}
    (member : answered ∈ overlay.answers greetings) :
    answered.2.frame.helloId? = some overlay.registry.id := by
  induction greetings generalizing overlay with
  | nil => cases member
  | cons greeting rest ih =>
      rcases overlay.took_greet greeting with ⟨answer, took⟩
      rw [took.answers_cons] at member
      rcases List.mem_append.mp member with here | there
      · rcases List.mem_map.mp here with ⟨posting, sent, rfl⟩
        exact took.introduces posting (Option.mem_toList.mp sent)
      · rw [← took.own]
        exact ih there

/-- Of all introductions under an id other than the node's own at most one is answered,
and none if the id is known. -/
theorem count_answers_le (overlay : Overlay) (greetings : List Greeting) {id : String}
    (foreign : id ≠ overlay.registry.id) :
    ((overlay.answers greetings).map (·.1)).count id ≤
      if overlay.registry.contains id then 0 else 1 := by
  induction greetings generalizing overlay with
  | nil => exact Nat.zero_le _
  | cons greeting rest ih =>
      rcases overlay.took_greet greeting with ⟨answer, took⟩
      have later := ih (overlay.greet greeting) (took.own ▸ foreign)
      have kept : (if (overlay.greet greeting).registry.contains id then 0 else 1) ≤
          if overlay.registry.contains id then 0 else 1 := by
        cases known : overlay.registry.contains id with
        | true =>
            rw [if_pos (took.keeps id known)]
            exact Nat.zero_le _
        | false => split <;> decide
      rw [took.answers_cons, List.map_append, List.count_append]
      cases answer with
      | none =>
          rw [Option.toList_none, List.map_nil, List.map_nil, List.count_nil, Nat.zero_add]
          exact later.trans kept
      | some posting =>
          rw [Option.toList_some, List.map_singleton, List.map_singleton, List.count_singleton]
          by_cases same : greeting.peer.id = id
          · subst same
            -- From now on the id is known, so that there is no later answer to it.
            rw [took.enters rfl foreign, if_pos rfl] at later
            rw [took.unknown rfl, Nat.le_zero.mp later, beq_self_eq_true]
            decide
          · rw [beq_false_of_ne same]
            exact (Nat.zero_add _).trans_le (later.trans kept)

end Overlay

/-! ## Nodes that introduce themselves to each other -/

namespace Net

variable {size : Nat} {sites : Sites size}

/-- A net with some frames on their way, before any of them is taken. -/
def ofFlight (overlays : Fin size → Overlay) (flight : List (Transit size)) : Net size where
  overlays := overlays
  flight := flight
  taken := []
  handed := []
  published := []

/-- The ids of the nodes and of those whom the frames on their way introduce. -/
def names (net : Net size) : Finset String :=
  (net.flight.filterMap (·.posting.frame.helloId?)).toFinset ∪
    Finset.univ.image fun node => (net.overlays node).registry.id

/-- Whether a frame introduces the node that takes it to itself. -/
def isEcho (sites : Sites size) (net : Net size) (transit : Transit size) : Bool :=
  (sites.listener transit.posting.target).any fun receiver =>
    transit.posting.frame.helloId? = some (net.overlays receiver).registry.id

/-- The frames that introduced a node to itself. -/
def echoes (sites : Sites size) (net : Net size) : List (Transit size) :=
  net.taken.filter (net.isEcho sites)

/-- The pairs of a node and an id, not its own, that the node does not know. -/
def unmet (names : Finset String) (net : Net size) : Finset (Fin size × String) :=
  (Finset.univ ×ˢ names).filter fun pair =>
    pair.2 ≠ (net.overlays pair.1).registry.id ∧
      (net.overlays pair.1).registry.contains pair.2 = false

/-- Only introductions are on their way, under a limited number of names.  Every
frame beyond a limit was paid for by a pair of a node and a name that has become
known, or introduced a node to itself. -/
structure Settling (sites : Sites size) (names : Finset String) (limit : Nat) (net : Net size) :
    Prop where
  hellos : ∀ transit ∈ net.flight, ∃ id ∈ names, transit.posting.frame.helloId? = some id
  own : ∀ node, (net.overlays node).registry.id ∈ names
  few : net.flight.length + net.taken.length + (net.unmet names).card ≤
    limit + (net.echoes sites).length

theorem card_unmet_le (names : Finset String) (net : Net size) :
    (net.unmet names).card ≤ size * names.card := by
  refine (Finset.card_filter_le _ _).trans_eq ?_
  rw [Finset.card_product, Finset.card_univ, Fintype.card_fin]

theorem settling_ofFlight (sites : Sites size) (overlays : Fin size → Overlay)
    {flight : List (Transit size)}
    (hellos : ∀ transit ∈ flight, transit.posting.frame.helloId?.isSome) :
    let start := ofFlight overlays flight
    start.Settling sites start.names (flight.length + size * start.names.card) where
  hellos transit flying := by
    rcases Option.isSome_iff_exists.mp (hellos transit flying) with ⟨id, introduced⟩
    refine ⟨id, Finset.mem_union_left _ (List.mem_toFinset.mpr ?_), introduced⟩
    exact List.mem_filterMap.mpr ⟨transit, flying, introduced⟩
  own node := Finset.mem_union_right _ (Finset.mem_image_of_mem _ (Finset.mem_univ node))
  few := Nat.add_le_add_left (card_unmet_le _ _) _

section Took

variable {net : Net size} {node : Fin size} {next : Overlay} {id : String}
  {answer : Option Posting} (took : (net.overlays node).Took next id answer)

include took

theorem id_become (other : Fin size) :
    ((net.become node next).overlays other).registry.id = (net.overlays other).registry.id := by
  by_cases same : other = node
  · subst same
    simp [become, took.own]
  · simp [become, same]

theorem contains_become {other : Fin size} {known : String}
    (before : (net.overlays other).registry.contains known = true) :
    ((net.become node next).overlays other).registry.contains known = true := by
  by_cases same : other = node
  · subst same
    simp [become, took.keeps known before]
  · simpa [become, same] using before

/-- Nobody forgets anybody. -/
theorem unmet_become_subset (names : Finset String) :
    (net.become node next).unmet names ⊆ net.unmet names := by
  rintro ⟨other, name⟩ member
  rcases Finset.mem_filter.mp member with ⟨listed, foreign, unknown⟩
  refine Finset.mem_filter.mpr ⟨listed, id_become took other ▸ foreign, ?_⟩
  apply Bool.eq_false_iff.mpr
  intro before
  rw [contains_become took before] at unknown
  cases unknown

/-- An answer is paid for by a pair that has met, unless it is an answer to the node
itself. -/
theorem card_unmet_become {names : Finset String} (listed : id ∈ names) :
    answer.toList.length + ((net.become node next).unmet names).card ≤
      (net.unmet names).card + if id = (net.overlays node).registry.id then 1 else 0 := by
  have fewer := Finset.card_le_card (unmet_become_subset took names)
  cases answer with
  | none =>
      rw [Option.toList_none, List.length_nil, Nat.zero_add]
      exact fewer.trans (Nat.le_add_right _ _)
  | some posting =>
      rw [Option.toList_some, List.length_singleton]
      by_cases own : id = (net.overlays node).registry.id
      · rw [if_pos own]
        omega
      · have met : (node, id) ∈ net.unmet names := Finset.mem_filter.mpr
          ⟨Finset.mem_product.mpr ⟨Finset.mem_univ node, listed⟩, own, took.unknown rfl⟩
        have gone : (node, id) ∉ (net.become node next).unmet names := by
          intro member
          have unknown := (Finset.mem_filter.mp member).2.2
          simp [become, took.enters rfl own] at unknown
        have strictly := Finset.card_lt_card
          ⟨unmet_become_subset took names, fun all => gone (all met)⟩
        rw [if_neg own]
        omega

theorem flight_become :
    (net.become node next).flight = net.flight ++ answer.toList.map (Transit.mk node) := by
  rw [become, took.sent, List.drop_left]

theorem echoes_become : (net.become node next).echoes sites = net.echoes sites := by
  apply List.filter_congr
  intro transit _
  rw [isEcho, isEcho]
  cases sites.listener transit.posting.target with
  | none => rfl
  | some receiver => rw [Option.any_some, Option.any_some, id_become took]

end Took

/-- A node that takes an introduction goes on in a state that knows who it was. -/
theorem exists_took (sites : Sites size) (net : Net size) {transit : Transit size}
    {id : String} (introduces : transit.posting.frame.helloId? = some id)
    (receiver : Fin size) :
    ∃ next answer, (net.overlays receiver).Took next id answer ∧
      net.take sites receiver transit = net.become receiver next := by
  rcases transit with ⟨sender, target, frame⟩
  cases frame with
  | publish => cases introduces
  | hello peer observedAddress =>
      cases introduces
      rcases Overlay.took_handleHello (net.overlays receiver) (sites.network receiver) peer
        observedAddress (sites.source sender) with ⟨answer, took⟩
      exact ⟨_, answer, took, rfl⟩

section Settling

variable {names : Finset String} {limit : Nat} {net : Net size} {transit : Transit size}
  {index : Nat}

theorem length_withdraw (here : net.flight[index]? = some transit) :
    (net.withdraw transit index).flight.length + (net.withdraw transit index).taken.length =
      net.flight.length + net.taken.length := by
  simpa only [List.length_append] using (perm_withdraw here).length_eq

theorem echoes_withdraw (sites : Sites size) (net : Net size) (transit : Transit size)
    (index : Nat) :
    (net.withdraw transit index).echoes sites =
      net.echoes sites ++ [transit].filter (net.isEcho sites) :=
  List.filter_append ..

/-- A frame that nobody takes is not answered. -/
theorem Settling.withdraw (settling : net.Settling sites names limit)
    (here : net.flight[index]? = some transit) :
    (net.withdraw transit index).Settling sites names limit where
  hellos other flying := settling.hellos other (List.mem_of_mem_eraseIdx flying)
  own := settling.own
  few := by
    rw [length_withdraw here, echoes_withdraw, List.length_append]
    exact settling.few.trans (Nat.add_le_add_left (Nat.le_add_right _ _) limit)

/-- A frame that a node takes is answered at most once, and the answer is paid for. -/
theorem Settling.take (settling : net.Settling sites names limit)
    (here : net.flight[index]? = some transit) {receiver : Fin size}
    (listens : sites.listener transit.posting.target = some receiver) :
    ((net.withdraw transit index).take sites receiver transit).Settling sites names limit := by
  rcases settling.hellos transit (List.mem_of_getElem? here) with ⟨id, listed, introduces⟩
  rcases exists_took sites (net.withdraw transit index) introduces receiver with
    ⟨next, answer, took, becomes⟩
  have withdrawn := settling.withdraw here
  rw [becomes]
  constructor
  case hellos =>
    intro other flying
    rw [flight_become took] at flying
    rcases List.mem_append.mp flying with before | since
    · exact withdrawn.hellos other before
    · rcases List.mem_map.mp since with ⟨posting, sent, rfl⟩
      exact ⟨_, settling.own receiver, took.introduces posting (Option.mem_toList.mp sent)⟩
  case own =>
    intro node
    rw [id_become took]
    exact settling.own node
  case few =>
    have paid := card_unmet_become took listed
    have few := settling.few
    have moved := length_withdraw here
    have echo : ((net.withdraw transit index).echoes sites).length =
        (net.echoes sites).length +
          if id = (net.overlays receiver).registry.id then 1 else 0 := by
      rw [echoes_withdraw, List.length_append, List.filter_singleton, isEcho, listens,
        Option.any_some, introduces]
      by_cases own : id = (net.overlays receiver).registry.id <;> simp [own]
    rw [echoes_become took, echo, flight_become took, List.length_append, List.length_map]
    change (net.withdraw transit index).flight.length + answer.toList.length +
      (net.withdraw transit index).taken.length + _ ≤ _
    change _ ≤ (net.unmet names).card +
      (if id = (net.overlays receiver).registry.id then 1 else 0) at paid
    omega

theorem Settling.deliver (settling : net.Settling sites names limit) (index : Nat) :
    (net.deliver sites index).Settling sites names limit := by
  cases here : net.flight[index]? with
  | none =>
      rw [Net.deliver, here]
      exact settling
  | some transit =>
      rw [Net.deliver, here]
      dsimp only
      split
      next => exact settling.withdraw here
      next receiver listens => exact settling.take here listens

theorem Settling.run (settling : net.Settling sites names limit) (indices : List Nat) :
    (net.run sites (indices.map .deliver)).Settling sites names limit := by
  induction indices generalizing net with
  | nil => exact settling
  | cons index rest ih => exact ih (settling.deliver index)

end Settling

end Net

/-- Introductions come to an end.  A node sends nothing but answers, each with its own
introduction, and answers every id other than its own at most once, and not at all if it
knows it.  Whatever the nodes of a net know, and however the frames are taken, there are
no more frames than the first ones, one for each pair of a node and a name, and one for
each frame that introduced a node to itself. -/
theorem introductions_settle {size : Nat} (sites : Sites size) (overlays : Fin size → Overlay)
    (flight : List (Transit size))
    (hellos : ∀ transit ∈ flight, transit.posting.frame.helloId?.isSome) :
    (∀ (overlay : Overlay) (greetings : List Greeting),
      (overlay.greetAll greetings).sent =
          overlay.sent ++ (overlay.answers greetings).map (·.2) ∧
        (∀ answered ∈ overlay.answers greetings,
          answered.2.frame.helloId? = some overlay.registry.id) ∧
        ∀ id, id ≠ overlay.registry.id →
          ((overlay.answers greetings).map (·.1)).count id ≤
            if overlay.registry.contains id then 0 else 1) ∧
    ∀ indices : List Nat,
      let start := Net.ofFlight overlays flight
      let final := start.run sites (indices.map .deliver)
      final.flight.length + final.taken.length ≤
        flight.length + size * start.names.card + (final.echoes sites).length := by
  refine ⟨fun overlay greetings => ⟨overlay.sent_greetAll greetings, ?_, ?_⟩, ?_⟩
  · exact fun answered member => Overlay.helloId?_of_mem_answers member
  · exact fun id foreign => overlay.count_answers_le greetings foreign
  · intro indices start final
    have settling := (Net.settling_ofFlight sites overlays hellos).run indices
    exact (Nat.le_add_right _ _).trans settling.few

/-- The nodes of a row of three are named by numerals. -/
theorem neZero_three : NeZero 3 := ⟨by decide⟩

attribute [local instance] neZero_three

namespace Net

/-- One node of three introduces itself to another one. -/
def rowIntroduced : Net 3 := ofFlight rowStarted [⟨0, rowAddress 1, .hello (rowPeer 0) none⟩]

theorem introductions_settle_row :
    let final := rowIntroduced.run row ([0, 0, 0].map .deliver)
    rowIntroduced.names.card = 3 ∧ (final.echoes row).length = 0 ∧
      final.flight.length + final.taken.length ≤ 1 + 3 * 3 := by
  intro final
  have names : rowIntroduced.names.card = 3 := by decide +kernel
  have silent : (final.echoes row).length = 0 := by decide +kernel
  have settles := (introductions_settle row rowStarted
    [⟨0, rowAddress 1, .hello (rowPeer 0) none⟩] (by decide)).2 [0, 0, 0]
  refine ⟨names, silent, settles.trans_eq ?_⟩
  change 1 + 3 * rowIntroduced.names.card + (final.echoes row).length = 1 + 3 * 3
  rw [names, silent]

end Net

/-! ## A node that is introduced to itself -/

namespace Overlay

variable {overlay : Overlay} {network : Network} {peer : Peer} {source : IpAddress}

/-- A node that is introduced to itself under an address that it has not dialled answers,
and knows as little as before. -/
theorem run_handleHello_own (observedAddress : Option String)
    (own : peer.id = overlay.registry.id)
    (stranger : overlay.Stranger (introduced peer source)) {target : SocketAddress}
    (reached : network.Reaches (introduced peer source) target) :
    (handleHello network peer observedAddress source).run.run overlay =
      (.ok (),
        { overlay.learning observedAddress with
          sent := overlay.sent ++
            [⟨target, .hello (learnAddress observedAddress overlay.registry.own)
              (some source.text)⟩] }) := by
  have same : peer.id = (overlay.learning observedAddress).registry.id :=
    own.trans (id_learning observedAddress).symm
  have refused : ((overlay.learning observedAddress).registry.upsert
      { introduced peer source with direction := .inbound }).2 =
        (overlay.learning observedAddress).registry := Registry.upsert_own same
  have unknown : overlay.registry.get? peer.id = none := stranger.1
  rw [run_handleHello, unknown]
  dsimp only
  rw [if_neg stranger.2, run_welcome reached, refused]
  rfl

/-- It answers every time. -/
theorem answers_own (greeting : Greeting) (own : greeting.peer.id = overlay.registry.id)
    (stranger : overlay.Stranger (introduced greeting.peer greeting.source))
    {target : SocketAddress}
    (reached : greeting.network.Reaches (introduced greeting.peer greeting.source) target)
    (count : Nat) :
    ((overlay.answers (List.replicate count greeting)).map (·.1)) =
      List.replicate count overlay.registry.id := by
  induction count generalizing overlay with
  | zero => rfl
  | succ count ih =>
      have performed := run_handleHello_own greeting.observedAddress own stranger reached
      have next : overlay.greet greeting = _ := congrArg Prod.snd performed
      have same : (overlay.greet greeting).registry.id = overlay.registry.id := by
        rw [next]
        exact id_learning _
      have still : (overlay.greet greeting).Stranger
          (introduced greeting.peer greeting.source) := by
        rw [next]
        exact stranger
      rw [List.replicate_succ, answers, List.map_append, ih (own.trans same.symm) still, same,
        List.replicate_succ]
      rw [next, List.drop_left, own]
      rfl

end Overlay

namespace Net

variable {size : Nat} {sites : Sites size} {net : Net size} {node : Fin size}

/-- A node with an address of its own is introduced to itself, where it reaches itself
and has not dialled itself. -/
structure Echoing (sites : Sites size) (node : Fin size) (net : Net size) : Prop where
  flight : ∃ target observedAddress,
    net.flight = [⟨node, target, .hello (net.overlays node).registry.own observedAddress⟩] ∧
      sites.listener target = some node
  specified : (net.overlays node).registry.own.hasUnspecifiedAddress = false
  estranged : net.Estranged sites node node
  advertised : net.Advertised sites node node

/-- The answer introduces the node to itself again. -/
theorem Echoing.deliver (echoing : net.Echoing sites node) :
    (net.deliver sites 0).Echoing sites node ∧
      (net.deliver sites 0).taken.length = net.taken.length + 1 := by
  rcases echoing.flight with ⟨target, observedAddress, only, listens⟩
  rcases echoing.advertised with ⟨back, reached, home⟩
  have learned : Overlay.learnAddress observedAddress (net.overlays node).registry.own =
      (net.overlays node).registry.own := by
    cases observedAddress with
    | none => rfl
    | some address => exact if_neg (Bool.eq_false_iff.mp echoing.specified)
  have performed := Overlay.run_handleHello_own observedAddress rfl echoing.estranged reached
  have same : (net.overlays node).learning observedAddress = net.overlays node := by
    rw [Overlay.learning, learned]
  rw [same, learned] at performed
  have delivered := deliver_hello_eq only listens performed
  have overlay : (net.deliver sites 0).overlays node =
      { net.overlays node with
        sent := (net.overlays node).sent ++
          [⟨back, .hello (net.overlays node).registry.own (some (sites.source node).text)⟩] } := by
    rw [delivered, become]
    exact Function.update_self _ _ _
  refine ⟨⟨⟨back, some (sites.source node).text, ?_, home⟩, ?_, ?_, ?_⟩, ?_⟩
  · rw [overlay, delivered]
    simp [become, withdraw, only]
  · rw [overlay]
    exact echoing.specified
  · rw [Estranged, described, overlay]
    exact echoing.estranged
  · rw [Advertised, described, overlay]
    exact echoing.advertised
  · rw [delivered]
    exact List.length_append

/-- So it goes on for good. -/
theorem Echoing.run (echoing : net.Echoing sites node) (count : Nat) :
    (net.run sites (List.replicate count (.deliver 0))).Echoing sites node ∧
      (net.run sites (List.replicate count (.deliver 0))).taken.length =
        net.taken.length + count := by
  induction count generalizing net with
  | zero => exact ⟨echoing, rfl⟩
  | succ count ih =>
      rcases echoing.deliver with ⟨again, one⟩
      rcases ih again with ⟨still, more⟩
      refine ⟨still, more.trans ?_⟩
      rw [one]
      omega

/-- A node in a row whose own introduction is on its way to it. -/
def rowEcho : Net 3 := ofFlight rowStarted [⟨0, rowAddress 0, .hello (rowPeer 0) none⟩]

/-- The introduction of a node that comes to that node itself. -/
def rowGreeting : Greeting := ⟨row.network 0, rowPeer 0, none, row.source 0⟩

/-- A node answers its own introduction more than once, and there is no end of frames. -/
theorem own_introduction_echoes :
    (((rowStarted 0).answers [rowGreeting, rowGreeting]).map (·.1)).count (row.id 0) = 2 ∧
      ∀ count, (rowEcho.run row (List.replicate count (.deliver 0))).taken.length = count := by
  have specified : (rowPeer 0).hasUnspecifiedAddress = false := by cbv
  have echoing : rowEcho.Echoing row 0 :=
    ⟨⟨rowAddress 0, none, rfl, by decide⟩, specified, ⟨rfl, List.not_mem_nil⟩,
      row_advertised rfl⟩
  refine ⟨?_, fun count => (echoing.run count).2.trans (Nat.zero_add count)⟩
  rcases echoing.advertised with ⟨target, reached, -⟩
  have answered : ((rowStarted 0).answers [rowGreeting, rowGreeting]).map (·.1) =
      [row.id 0, row.id 0] :=
    Overlay.answers_own rowGreeting rfl echoing.estranged reached 2
  rw [answered]
  rfl

end Net

end LedgerNode
