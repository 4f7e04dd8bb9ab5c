import LedgerNode.Proofs.Gossip.Net

namespace LedgerNode

/-!
# Introductions

A node that introduces itself to another one is held as connected there, whatever
the two knew of each other.  The other way round it is not so: only a stranger is
answered.  A node that has forgotten everybody is no stranger to those who have
not, and learns of nobody from its introduction.

There is at most one frame on its way between the two nodes, so that there is
nothing to choose in the order of the frames.
-/

variable {size : Nat}

/-- A text under which a node reaches another one. -/
def Sites.Leads (sites : Sites size) (text : String) (node other : Fin size) : Prop :=
  ∃ addresses target, (sites.network node).lookup text = .ok addresses ∧
    addresses.find? (·.isV4) = some target ∧ (sites.network node).connect target = .ok () ∧
    sites.listener target = some other

namespace Net

variable {sites : Sites size} {net after : Net size} {asking asked : Fin size}

/-- The description of a node as others see it. -/
def described (sites : Sites size) (net : Net size) (node : Fin size) : Peer :=
  Overlay.introduced (net.overlays node).registry.own (sites.source node)

/-- A node reaches another one where that one says it is. -/
def Advertised (sites : Sites size) (net : Net size) (node other : Fin size) : Prop :=
  ∃ target, (sites.network node).Reaches (net.described sites other) target ∧
    sites.listener target = some other

/-- A node takes another one for a stranger. -/
def Estranged (sites : Sites size) (net : Net size) (node other : Fin size) : Prop :=
  (net.overlays node).Stranger (net.described sites other)

/-! ## Taking an introduction -/

/-- What a net has become in which the only frame on its way, an introduction, was
taken by a node. -/
structure Greeted (net final : Net size) (receiver : Fin size) (id : String)
    (outgoing : List Posting) : Prop where
  met : (net.overlays receiver).Met (final.overlays receiver) id outgoing
  others : ∀ other, other ≠ receiver → final.overlays other = net.overlays other
  flight : final.flight = outgoing.map (Transit.mk receiver)
  taken : final.taken.length = net.taken.length + 1

theorem Greeted.linked {receiver other : Fin size} {id : String} {outgoing : List Posting}
    (greeted : net.Greeted after receiver id outgoing) (named : id = sites.id other) :
    after.Linked sites receiver other := by
  rw [Linked, ← named]
  exact greeted.met.holds

section Greeted

variable {sender receiver : Fin size} {target : SocketAddress} {peer : Peer}
  {observedAddress : Option String}
  (only : net.flight = [⟨sender, target, .hello peer observedAddress⟩])
  (listens : sites.listener target = some receiver)

include only listens

theorem deliver_hello_eq {answer : Except Fault Unit} {next : Overlay}
    (performed : (Overlay.handleHello (sites.network receiver) peer observedAddress
      (sites.source sender)).run.run (net.overlays receiver) = (answer, next)) :
    net.deliver sites 0 =
      (net.withdraw ⟨sender, target, .hello peer observedAddress⟩ 0).become receiver next := by
  have here : net.flight[0]? = some ⟨sender, target, .hello peer observedAddress⟩ := by
    rw [only]
    rfl
  rw [deliver, here]
  dsimp only
  rw [listens]
  exact congrArg (fun answer => (net.withdraw _ 0).become receiver answer.2) performed

theorem deliver_hello {next : Overlay} {id : String} {outgoing : List Posting}
    (performed : (Overlay.handleHello (sites.network receiver) peer observedAddress
      (sites.source sender)).run.run (net.overlays receiver) = (.ok (), next))
    (met : (net.overlays receiver).Met next id outgoing) :
    net.Greeted (net.deliver sites 0) receiver id outgoing := by
  rw [deliver_hello_eq only listens performed]
  constructor
  case met => simpa [become] using met
  case others => exact fun other different => Function.update_of_ne different _ _
  case flight => simp [become, met.sent, withdraw, only]
  case taken => exact List.length_append

/-- An acquaintance is not answered. -/
theorem deliver_acquainted (foreign : peer.id ≠ (net.overlays receiver).registry.id)
    (acquainted :
      ¬(net.overlays receiver).Stranger (Overlay.introduced peer (sites.source sender))) :
    net.Greeted (net.deliver sites 0) receiver peer.id [] := by
  rcases Overlay.handleHello_of_acquainted observedAddress foreign acquainted with
    ⟨next, performed, met⟩
  exact deliver_hello only listens performed met

/-- A stranger is answered. -/
theorem deliver_stranger (foreign : peer.id ≠ (net.overlays receiver).registry.id)
    (stranger : (net.overlays receiver).Stranger (Overlay.introduced peer (sites.source sender)))
    {back : SocketAddress}
    (reached : (sites.network receiver).Reaches
      (Overlay.introduced peer (sites.source sender)) back) :
    net.Greeted (net.deliver sites 0) receiver peer.id
      [⟨back, .hello
        (Overlay.learnAddress observedAddress (net.overlays receiver).registry.own)
        (some (sites.source sender).text)⟩] := by
  rcases Overlay.handleHello_of_stranger observedAddress foreign stranger reached with
    ⟨next, performed, met⟩
  exact deliver_hello only listens performed met

end Greeted

/-- There is no other frame to choose. -/
theorem deliver_of_few (few : net.flight.length ≤ 1) (index : Nat) :
    net.deliver sites index = net ∨ net.deliver sites index = net.deliver sites 0 := by
  cases index with
  | zero => exact .inr rfl
  | succ index =>
      left
      rw [deliver, List.getElem?_eq_none (by omega)]

/-! ## How an introduction goes on -/

/-- Where the introduction of one node to another has got. -/
inductive Stage (sites : Sites size) (net : Net size) (asking asked : Fin size) :
    Net size → Prop where
  /-- The introduction is on its way. -/
  | sent {after : Net size} {target : SocketAddress}
      (flight : after.flight = [⟨asking, target, .hello (net.overlays asking).registry.own none⟩])
      (listens : sites.listener target = some asked)
      (same : (after.overlays asking).registry = (net.overlays asking).registry)
      (untouched : after.overlays asked = net.overlays asked)
      (few : after.taken.length = net.taken.length) :
      Stage sites net asking asked after
  /-- The answer to a stranger is on its way. -/
  | answered {after : Net size} {target : SocketAddress}
      (stranger : net.Estranged sites asked asking)
      (flight : after.flight =
        [⟨asked, target, .hello (net.overlays asked).registry.own
          (some (sites.source asking).text)⟩])
      (listens : sites.listener target = some asking)
      (same : (after.overlays asking).registry = (net.overlays asking).registry)
      (named : (after.overlays asked).registry.id = sites.id asked)
      (linked : after.Linked sites asked asking)
      (few : after.taken.length = net.taken.length + 1) :
      Stage sites net asking asked after
  /-- The answer came from somebody unknown, and is itself answered. -/
  | returned {after : Net size} {target : SocketAddress} {own : Peer}
      (stranger : net.Estranged sites asked asking)
      (flight : after.flight = [⟨asking, target, .hello own (some (sites.source asked).text)⟩])
      (listens : sites.listener target = some asked)
      (introduced : own.id = sites.id asking)
      (named : (after.overlays asked).registry.id = sites.id asked)
      (linked : after.Linked sites asked asking)
      (back : after.Linked sites asking asked)
      (few : after.taken.length = net.taken.length + 2) :
      Stage sites net asking asked after
  /-- Nothing is on its way. -/
  | settled {after : Net size}
      (flight : after.flight = [])
      (linked : after.Linked sites asked asking)
      (back : after.Linked sites asking asked ↔
        net.Linked sites asking asked ∨ net.Estranged sites asked asking)
      (few : after.taken.length ≤ net.taken.length + 3) :
      Stage sites net asking asked after

namespace Stage

variable (differ : asking ≠ asked)
  (asking_named : (net.overlays asking).registry.id = sites.id asking)
  (asked_named : (net.overlays asked).registry.id = sites.id asked)

include differ asking_named asked_named

theorem deliver_sent {target : SocketAddress}
    (flight : after.flight = [⟨asking, target, .hello (net.overlays asking).registry.own none⟩])
    (listens : sites.listener target = some asked)
    (same : (after.overlays asking).registry = (net.overlays asking).registry)
    (untouched : after.overlays asked = net.overlays asked)
    (few : after.taken.length = net.taken.length)
    (reaches : net.Advertised sites asked asking) :
    Stage sites net asking asked (after.deliver sites 0) := by
  have foreign : (net.overlays asking).registry.own.id ≠ (after.overlays asked).registry.id := by
    rw [untouched, asked_named]
    exact fun clash => differ (sites.distinct (asking_named.symm.trans clash))
  by_cases stranger : net.Estranged sites asked asking
  · rcases reaches with ⟨back, reached, home⟩
    have greeted := deliver_stranger flight listens foreign (untouched ▸ stranger) reached
    rw [untouched] at greeted
    refine .answered stranger greeted.flight home ?_ ?_ (greeted.linked asking_named) ?_
    · rw [greeted.others asking differ, same]
    · rw [greeted.met.own, untouched, asked_named]
    · rw [greeted.taken, few]
  · have greeted := deliver_acquainted flight listens foreign (untouched ▸ stranger)
    refine .settled greeted.flight (greeted.linked asking_named) ?_ ?_
    · rw [Linked, greeted.others asking differ, same]
      exact (or_iff_left stranger).symm
    · rw [greeted.taken, few]
      omega

theorem deliver_answered {target : SocketAddress} (stranger : net.Estranged sites asked asking)
    (flight : after.flight =
      [⟨asked, target, .hello (net.overlays asked).registry.own
        (some (sites.source asking).text)⟩])
    (listens : sites.listener target = some asking)
    (same : (after.overlays asking).registry = (net.overlays asking).registry)
    (named : (after.overlays asked).registry.id = sites.id asked)
    (linked : after.Linked sites asked asking)
    (few : after.taken.length = net.taken.length + 1)
    (returns : net.Advertised sites asking asked) :
    Stage sites net asking asked (after.deliver sites 0) := by
  have foreign : (net.overlays asked).registry.own.id ≠ (after.overlays asking).registry.id := by
    rw [same, asking_named]
    exact fun clash => differ (sites.distinct (asked_named.symm.trans clash)).symm
  by_cases unknown : (after.overlays asking).Stranger (net.described sites asked)
  · rcases returns with ⟨back, reached, away⟩
    have greeted := deliver_stranger flight listens foreign unknown reached
    have untouched := greeted.others asked differ.symm
    refine .returned stranger greeted.flight away ?_ ?_ ?_ (greeted.linked asked_named) ?_
    · rw [Overlay.learnAddress_id, same]
      exact asking_named
    · rw [untouched, named]
    · rwa [Linked, untouched]
    · rw [greeted.taken, few]
  · have greeted := deliver_acquainted flight listens foreign unknown
    have untouched := greeted.others asked differ.symm
    refine .settled greeted.flight ?_ ?_ ?_
    · rwa [Linked, untouched]
    · exact iff_of_true (greeted.linked asked_named) (.inr stranger)
    · rw [greeted.taken, few]
      omega

omit asking_named asked_named in
theorem deliver_returned {target : SocketAddress} {own : Peer}
    (stranger : net.Estranged sites asked asking)
    (flight : after.flight = [⟨asking, target, .hello own (some (sites.source asked).text)⟩])
    (listens : sites.listener target = some asked)
    (introduced : own.id = sites.id asking)
    (named : (after.overlays asked).registry.id = sites.id asked)
    (linked : after.Linked sites asked asking)
    (back : after.Linked sites asking asked)
    (few : after.taken.length = net.taken.length + 2) :
    Stage sites net asking asked (after.deliver sites 0) := by
  have foreign : own.id ≠ (after.overlays asked).registry.id := by
    rw [introduced, named]
    exact fun clash => differ (sites.distinct clash)
  have acquainted : ¬(after.overlays asked).Stranger
      (Overlay.introduced own (sites.source asking)) := by
    rintro ⟨unknown, -⟩
    rcases linked with ⟨peer, found, -⟩
    rw [← introduced] at found
    cases unknown.symm.trans found
  have greeted := deliver_acquainted flight listens foreign acquainted
  refine .settled greeted.flight (greeted.linked introduced) ?_ ?_
  · refine iff_of_true ?_ (.inr stranger)
    rwa [Linked, greeted.others asking differ]
  · exact Nat.le_of_eq (by rw [greeted.taken, few])

omit differ asking_named asked_named in
theorem flight_le (stage : Stage sites net asking asked after) : after.flight.length ≤ 1 := by
  cases stage with
  | sent flight | answered _ flight | returned _ flight => exact Nat.le_of_eq (congrArg _ flight)
  | settled flight =>
      rw [flight]
      exact Nat.zero_le 1

/-- However the introduction goes on, it goes through these stages. -/
theorem deliver (reaches : net.Advertised sites asked asking)
    (returns : net.Advertised sites asking asked) (stage : Stage sites net asking asked after)
    (index : Nat) : Stage sites net asking asked (after.deliver sites index) := by
  rcases deliver_of_few stage.flight_le index with idle | first
  · rw [idle]
    exact stage
  · rw [first]
    cases stage with
    | sent flight listens same untouched few =>
        exact deliver_sent differ asking_named asked_named flight listens same untouched few reaches
    | answered stranger flight listens same named linked few =>
        exact deliver_answered differ asking_named asked_named stranger flight listens same named
          linked few returns
    | returned stranger flight listens introduced named linked back few =>
        exact deliver_returned differ stranger flight listens introduced named linked back few
    | settled flight linked back few =>
        have idle : after.deliver sites 0 = after := by
          rw [Net.deliver, flight]
          rfl
        rw [idle]
        exact .settled flight linked back few

/-- However the frames are taken, the introduction goes through these stages. -/
theorem run (reaches : net.Advertised sites asked asking)
    (returns : net.Advertised sites asking asked) (stage : Stage sites net asking asked after)
    (indices : List Nat) :
    Stage sites net asking asked (after.run sites (indices.map .deliver)) := by
  induction indices generalizing after with
  | nil => exact stage
  | cons index rest ih =>
      exact ih (stage.deliver differ asking_named asked_named reaches returns index)

omit differ asking_named asked_named in
theorem taken_le (stage : Stage sites net asking asked after) :
    after.flight.length + after.taken.length ≤ net.taken.length + 3 := by
  cases stage with
  | sent flight _ _ _ few | answered _ flight _ _ _ _ few | returned _ flight _ _ _ _ _ few =>
      rw [flight, few, List.length_singleton]
      omega
  | settled flight _ _ few =>
      rw [flight, List.length_nil, Nat.zero_add]
      exact few

end Stage

/-- A node that can look another one up and dial it sends its introduction. -/
theorem connect_sends (differ : asking ≠ asked) (quiet : net.flight = []) {text : String}
    (leads : sites.Leads text asking asked) :
    let sent := net.act asking (Overlay.connect (sites.network asking) text)
    sent.1 = .ok () ∧ Stage sites net asking asked sent.2 := by
  intro sent
  rcases leads with ⟨addresses, target, known, first, connects, listens⟩
  have performed := Overlay.run_connect (net.overlays asking) known first connects
  have answer : sent = (.ok (), net.become asking _) := act_of_performed performed
  rw [answer]
  refine ⟨rfl, .sent ?_ listens ?_ ?_ rfl⟩
  · simp [become, quiet]
  · simp [become]
  · simp [become, differ.symm]

/-- Introductions.  A node that introduces itself is held as connected by the other
one, when the introductions are taken; there are no more than three.  It holds the
other one as connected if it did before, or if it was a stranger to the other one,
and otherwise not. -/
theorem connect_introduces (sites : Sites size) (net : Net size) {asking asked : Fin size}
    (differ : asking ≠ asked) (asking_named : (net.overlays asking).registry.id = sites.id asking)
    (asked_named : (net.overlays asked).registry.id = sites.id asked) (quiet : net.flight = [])
    {text : String} (leads : sites.Leads text asking asked)
    (reaches : net.Advertised sites asked asking) (returns : net.Advertised sites asking asked) :
    let sent := net.act asking (Overlay.connect (sites.network asking) text)
    sent.1 = .ok () ∧
    (∃ indices : List Nat, (sent.2.run sites (indices.map .deliver)).flight = []) ∧
    ∀ indices : List Nat,
      let final := sent.2.run sites (indices.map .deliver)
      final.flight.length + final.taken.length ≤ net.taken.length + 3 ∧
      (final.flight = [] →
        final.Linked sites asked asking ∧
        (final.Linked sites asking asked ↔
          net.Linked sites asking asked ∨ net.Estranged sites asked asking)) := by
  intro sent
  rcases connect_sends differ quiet leads with ⟨succeeds, stage⟩
  refine ⟨succeeds, ?_, ?_⟩
  · have bound (after : Net size) (stage : Stage sites net asking asked after) :
        (after.taken.filter fun _ => true).length ≤ net.taken.length + 3 := by
      rw [List.filter_true]
      exact Nat.le_trans (Nat.le_add_left _ _) stage.taken_le
    rcases exists_quiet (fun after index stage =>
      stage.deliver differ asking_named asked_named reaches returns index) bound stage with
      ⟨indices, none⟩
    refine ⟨indices, List.eq_nil_iff_forall_not_mem.mpr fun transit flying => ?_⟩
    cases none transit flying
  · intro indices final
    have reached : Stage sites net asking asked final :=
      stage.run differ asking_named asked_named reaches returns indices
    refine ⟨reached.taken_le, fun empty => ?_⟩
    cases reached with
    | sent flight | answered _ flight | returned _ flight =>
        rw [empty] at flight
        cases flight
    | settled _ linked back _ => exact ⟨linked, back⟩

/-! ## A node that has forgotten everybody -/

/-- A node in a row that has just been started. -/
def rowStarted (node : Fin 3) : Overlay :=
  Overlay.start (Registry.ofOwn (rowPeer node)) (rowPeer node).port

def rowStrangers : Net 3 where
  overlays := rowStarted
  flight := []
  taken := []
  handed := []
  published := []

theorem row_leads : row.Leads "127.0.0.1:7001" 0 1 :=
  ⟨[rowAddress 1], rowAddress 1, by cbv, by decide, by cbv, by decide⟩

theorem row_advertised {net : Net 3} {node other : Fin 3}
    (own : (net.overlays other).registry.own = rowPeer other) : net.Advertised row node other := by
  have specified : (rowPeer other).hasUnspecifiedAddress = false := by cbv
  have same : net.described row other = rowKnown other := by
    rw [described, own, Overlay.introduced, specified]
    rfl
  rw [Advertised, same]
  exact ⟨rowAddress other, row_reaches node other⟩

/-- Two nodes that knew nobody know each other afterwards. -/
theorem connect_introduces_strangers :
    ∃ indices : List Nat,
      let sent := rowStrangers.act 0 (Overlay.connect (row.network 0) "127.0.0.1:7001")
      let final := sent.2.run row (indices.map .deliver)
      final.flight = [] ∧ final.Linked row 0 1 ∧ final.Linked row 1 0 := by
  have introduces := connect_introduces row rowStrangers (by decide : (0 : Fin 3) ≠ 1) rfl rfl rfl
    row_leads (row_advertised rfl) (row_advertised rfl)
  rcases introduces with ⟨-, ⟨indices, empty⟩, always⟩
  rcases (always indices).2 empty with ⟨back, there⟩
  exact ⟨indices, empty, there.mpr (.inr ⟨rfl, List.not_mem_nil⟩), back⟩

/-- Two nodes that know each other from an introduction.  The one that introduced
itself has been restarted since. -/
def rowRestarted (node : Fin 3) : Net 3 :=
  let sent := (rowStrangers.act node (Overlay.connect (row.network node) "127.0.0.1:7001")).2
  let acquainted := sent.run row [.deliver 0, .deliver 0]
  { acquainted with overlays := Function.update acquainted.overlays node (rowStarted node) }

/-- A restarted node introduces itself, and is not answered.  It does not hold the other
one as connected. -/
theorem restarted_unanswered :
    (row.Leads "127.0.0.1:7001" 0 1 ∧ (rowRestarted 0).Advertised row 1 0 ∧
      (rowRestarted 0).Advertised row 0 1 ∧ (rowRestarted 0).flight = []) ∧
    let sent := (rowRestarted 0).act 0 (Overlay.connect (row.network 0) "127.0.0.1:7001")
    let final := sent.2.run row [.deliver 0]
    sent.1 = .ok () ∧ final.flight = [] ∧ final.Linked row 1 0 ∧ ¬final.Linked row 0 1 := by
  have quiet : (rowRestarted 0).flight = [] := by decide +kernel
  have advertised (node other : Fin 3)
      (own : ((rowRestarted 0).overlays node).registry.own = rowPeer node) :
      (rowRestarted 0).Advertised row other node := row_advertised own
  refine ⟨⟨row_leads, advertised 0 1 (by decide +kernel), advertised 1 0 (by decide +kernel),
    quiet⟩, ?_⟩
  intro sent final
  have succeeds : sent.1 = .ok () :=
    (connect_sends (by decide : (0 : Fin 3) ≠ 1) quiet row_leads).1
  have empty : final.flight = [] := by decide +kernel
  have there : (final.overlays 1).registry.get? (row.id 0) =
      some { rowKnown 0 with direction := .inbound } := by decide +kernel
  have missing : (final.overlays 0).registry.get? (row.id 1) = none := by decide +kernel
  refine ⟨succeeds, empty, ⟨_, there, rfl⟩, ?_⟩
  rintro ⟨peer, found, -⟩
  cases missing.symm.trans found

end Net

end LedgerNode
