import LedgerNode.Proofs.Ledger.Carried
import LedgerNode.Proofs.Ledger.History

namespace LedgerNode

/-!
# Delivery in any order

Blocks that follow the tip one another may be delivered in any order, some of
them more than once and some not at all.  At any time those that arrived
without a gap are stored and the others that arrived wait.  So what the ledger
becomes depends on which blocks arrived, and not on their order.
-/

namespace Ledger

/-- Blocks that follow a tip, few enough that none is too far ahead of it. -/
structure Succession (tip : Cursor) (family : List WaitingBlock) : Prop where
  count : family.length ≤ farthestAhead
  follows : Follows tip family
  fits : ∀ parcel ∈ family, parcel.Fits
  distinct : ∀ parcel ∈ family, parcel.Distinct

/-- The blocks up to the first one that was not delivered. -/
def filled (family delivered : List WaitingBlock) : List WaitingBlock :=
  family.takeWhile (· ∈ delivered)

/-- The blocks from the first one on that was not delivered. -/
def unfilled (family delivered : List WaitingBlock) : List WaitingBlock :=
  family.dropWhile (· ∈ delivered)

theorem filled_append_unfilled (family delivered : List WaitingBlock) :
    filled family delivered ++ unfilled family delivered = family :=
  List.takeWhile_append_dropWhile

theorem mem_of_mem_unfilled {family delivered : List WaitingBlock} {parcel : WaitingBlock}
    (member : parcel ∈ unfilled family delivered) : parcel ∈ family :=
  (List.dropWhile_sublist _).mem member

theorem delivered_of_mem_filled {family delivered : List WaitingBlock} {parcel : WaitingBlock}
    (member : parcel ∈ filled family delivered) : parcel ∈ delivered := by
  have all : (filled family delivered).all fun other => decide (other ∈ delivered) :=
    List.all_takeWhile
  exact of_decide_eq_true (List.all_eq_true.mp all parcel member)

theorem missing_of_unfilled {family delivered rest : List WaitingBlock} {head : WaitingBlock}
    (unfilled : unfilled family delivered = head :: rest) : head ∉ delivered := by
  have first := List.head?_dropWhile_not (fun parcel => decide (parcel ∈ delivered)) family
  rw [show family.dropWhile (fun parcel => decide (parcel ∈ delivered)) = head :: rest from
    unfilled] at first
  simpa using first

/-- Blocks that all arrived, before one that did not, are those that are
filled. -/
theorem filled_of_split {front back delivered : List WaitingBlock}
    (arrived : ∀ parcel ∈ front, parcel ∈ delivered)
    (missing : ∀ head rest, back = head :: rest → head ∉ delivered) :
    filled (front ++ back) delivered = front ∧ unfilled (front ++ back) delivered = back := by
  have all : ∀ parcel ∈ front, decide (parcel ∈ delivered) = true := by
    intro parcel member
    exact decide_eq_true (arrived parcel member)
  rw [filled, unfilled, List.takeWhile_append_of_pos all, List.dropWhile_append_of_pos all]
  cases back with
  | nil => exact ⟨List.append_nil _, rfl⟩
  | cons head rest =>
      have absent := missing head rest rfl
      rw [List.takeWhile_cons_of_neg (by simpa using absent),
        List.dropWhile_cons_of_neg (by simpa using absent)]
      exact ⟨List.append_nil _, rfl⟩

/-- What is filled depends on which blocks were delivered only. -/
theorem filled_congr {delivered others : List WaitingBlock}
    (same : ∀ parcel, parcel ∈ others ↔ parcel ∈ delivered) (family : List WaitingBlock) :
    filled family others = filled family delivered ∧
      unfilled family others = unfilled family delivered := by
  have tests : (fun parcel => decide (parcel ∈ others)) =
      fun parcel => decide (parcel ∈ delivered) := by
    funext parcel
    exact decide_eq_decide.mpr (same parcel)
  rw [filled, filled, unfilled, unfilled, tests]
  exact ⟨rfl, rfl⟩

/-- One more delivery fills nothing unless it is the block that was missing. -/
theorem filled_cons_of_not_head {family delivered : List WaitingBlock} {parcel : WaitingBlock}
    (other : ∀ head rest, unfilled family delivered = head :: rest → head ≠ parcel) :
    filled family (parcel :: delivered) = filled family delivered ∧
      unfilled family (parcel :: delivered) = unfilled family delivered := by
  have split := filled_append_unfilled family delivered
  have arrived : ∀ before ∈ filled family delivered, before ∈ parcel :: delivered := by
    intro before member
    exact List.mem_cons_of_mem _ (delivered_of_mem_filled member)
  have missing : ∀ head rest, unfilled family delivered = head :: rest →
      head ∉ parcel :: delivered := by
    intro head rest first member
    rcases List.mem_cons.mp member with here | there
    · exact other head rest first here
    · exact missing_of_unfilled first there
  have parts := filled_of_split arrived missing
  rwa [split] at parts

/-- The block that was missing fills the gap up to the next one. -/
theorem filled_cons_of_head {family delivered rest : List WaitingBlock}
    {parcel : WaitingBlock} (first : unfilled family delivered = parcel :: rest) :
    filled family (parcel :: delivered) =
        filled family delivered ++ parcel :: filled rest (parcel :: delivered) ∧
      unfilled family (parcel :: delivered) = unfilled rest (parcel :: delivered) := by
  have split := filled_append_unfilled family delivered
  have behind := filled_append_unfilled rest (parcel :: delivered)
  have arrived : ∀ before ∈ filled family delivered ++
      parcel :: filled rest (parcel :: delivered), before ∈ parcel :: delivered := by
    intro before member
    rcases List.mem_append.mp member with old | new
    · exact List.mem_cons_of_mem _ (delivered_of_mem_filled old)
    · rcases List.mem_cons.mp new with here | later
      · exact here ▸ List.mem_cons_self
      · exact delivered_of_mem_filled later
  have missing : ∀ head others, unfilled rest (parcel :: delivered) = head :: others →
      head ∉ parcel :: delivered := by
    intro head others
    exact missing_of_unfilled
  have parts := filled_of_split arrived missing
  rwa [List.append_assoc, List.cons_append, behind, ← first, split] at parts

/-- Where a block stands among the filled and the unfilled ones. -/
theorem Follows.position {tip : Cursor} {front back : List WaitingBlock}
    {parcel : WaitingBlock} (follows : Follows tip (front ++ back))
    (member : parcel ∈ front ++ back) :
    (parcel ∈ front ∧ parcel.block.height.toNat ≤ (endOf tip front).height.toNat) ∨
    (∃ rest, back = parcel :: rest ∧ (endOf tip front).ExtendedBy parcel.block) ∨
    (∃ head rest, back = head :: rest ∧ parcel ∈ rest ∧ head ≠ parcel ∧
      (endOf tip front).height.toNat + 1 < parcel.block.height.toNat) := by
  rcases follows.front_back with ⟨first, second⟩
  rcases List.mem_append.mp member with before | behind
  · have bound := first.height_mem before
    rw [← first.height_endOf] at bound
    exact .inl ⟨before, bound.2⟩
  · cases back with
    | nil => cases behind
    | cons head rest =>
        rcases second with ⟨links, others⟩
        cases behind with
        | head => exact .inr (.inl ⟨rest, rfl, links⟩)
        | tail _ further =>
            have bound := (others.height_mem further).1
            have next : (Cursor.ofBlock head.block).height.toNat =
                (endOf tip front).height.toNat + 1 := links.1
            refine .inr (.inr ⟨head, rest, rfl, further, ?_, by omega⟩)
            intro same
            have own : (Cursor.ofBlock head.block).height = parcel.block.height := same ▸ rfl
            rw [own] at bound
            exact Nat.lt_irrefl _ bound

/-- Once the missing block arrived, the blocks that waited beyond the next gap go
on waiting, and no others. -/
theorem waits_cons_of_head {tip : Cursor} {family delivered rest : List WaitingBlock}
    {parcel : WaitingBlock} (follows : Follows tip family)
    (gap : unfilled family delivered = parcel :: rest) (other : WaitingBlock) :
    other ∈ unfilled family (parcel :: delivered) ∧ other ∈ parcel :: delivered ↔
      (other ∈ unfilled family delivered ∧ other ∈ delivered) ∧
        (endOf tip (filled family (parcel :: delivered))).height.toNat + 1 <
          other.block.height.toNat := by
  rcases filled_cons_of_head gap with ⟨same, still⟩
  have ordered := (filled_append_unfilled family (parcel :: delivered)).symm ▸ follows
  constructor
  · rintro ⟨waits, came⟩
    rcases ordered.position (List.mem_append_right _ waits) with
      ⟨_, low⟩ | ⟨_, start, _⟩ | ⟨_, _, _, _, _, above⟩
    · have beyond := (ordered.front_back.2.height_mem waits).1
      omega
    · exact absurd came (missing_of_unfilled start)
    · have behind : other ∈ rest := mem_of_mem_unfilled (still ▸ waits)
      refine ⟨⟨gap ▸ List.mem_cons_of_mem _ behind, ?_⟩, above⟩
      rcases List.mem_cons.mp came with here | there
      · -- the block that was missing is filled, so it stands below the new end
        have stored : parcel ∈ filled family (parcel :: delivered) := by
          rw [same]
          exact List.mem_append_right _ List.mem_cons_self
        have low := (ordered.front_back.1.height_mem stored).2
        rw [← ordered.front_back.1.height_endOf] at low
        rw [here] at above
        omega
      · exact there
  · rintro ⟨⟨waits, came⟩, above⟩
    have member : other ∈ filled family (parcel :: delivered) ++
        unfilled family (parcel :: delivered) := by
      rw [filled_append_unfilled]
      exact mem_of_mem_unfilled waits
    rcases ordered.position member with ⟨_, low⟩ | ⟨_, _, links⟩ | ⟨_, _, start, behind, _⟩
    · omega
    · have next_height := links.1
      omega
    · exact ⟨start ▸ List.mem_cons_of_mem _ behind, List.mem_cons_of_mem _ came⟩

end Ledger

namespace Session

open Ledger

/-- The delivery of a peer's block. -/
def deliver (session : Session) (parcel : WaitingBlock) :
    Except Fault Acceptance × Session :=
  let (answer, waiting, engine) :=
    (accept parcel.block parcel.transactions).run session.waiting session.engine
  (answer, ⟨engine, waiting⟩)

/-- Deliveries one after another, with their answers. -/
def deliverAll (session : Session) : List WaitingBlock → List (Except Fault Acceptance) × Session
  | [] => ([], session)
  | parcel :: rest =>
    let (answer, next) := session.deliver parcel
    let (answers, last) := next.deliverAll rest
    (answer :: answers, last)

/-- A delivery is a call of the session. -/
theorem perform_accept (session : Session) (parcel : WaitingBlock) (fits : parcel.Fits) :
    session.perform (.locked (.accept parcel fits)) =
      ((session.deliver parcel).1.map .accepted, (session.deliver parcel).2) := by
  have run := LedgerAction.run_bind_return (accept parcel.block parcel.transactions)
    Answer.accepted session.waiting session.engine
  rw [perform, Call.perform, LockedCall.perform, run]
  rfl

theorem Sound.deliver {session : Session} {picture : Picture} {tip : Cursor}
    {parcel : WaitingBlock} (sound : session.Sound picture)
    (last : Chain.tip picture.chain = some tip) (fits : parcel.Fits) :
    ∃ answer edits after, (session.deliver parcel).1 = .ok answer ∧
      Accepted picture tip session.waiting parcel answer (session.deliver parcel).2.waiting
        after ∧
      (session.deliver parcel).2.Sound after ∧ after.written = picture.written ++ edits ∧
      (session.deliver parcel).2.engine =
        { session.engine with contents := Edit.applyAll session.engine.contents edits } := by
  have step := sound.perform_locked (.accept parcel fits)
  rw [perform_accept] at step
  generalize session.deliver parcel = delivered at step ⊢
  rcases delivered with ⟨outcome, ⟨lastEngine, kept⟩⟩
  rcases step with ⟨edits, after, next, performed, _, wrote, engine⟩
  cases outcome with
  | error fault =>
      cases performed with
      | failed nothing =>
          have empty : picture.chain = [] := nothing
          rw [empty] at last
          cases last
  | ok answer =>
      cases performed with
      | accepted same became =>
          cases last.symm.trans same
          exact ⟨answer, edits, after, rfl, became, next, wrote, engine⟩

/-! ## One delivery -/

/-- Whether an answer neither refuses a block nor tells of another one. -/
def Welcomes : Except Fault Acceptance → Prop
  | .ok .rejected => False
  | .ok (.conflicting _) => False
  | .ok _ => True
  | .error _ => False

/-- In the midst of deliveries, the blocks that arrived without a gap are
stored, and the others that arrived wait. -/
structure Midway (base : Session) (first : Picture) (family delivered : List WaitingBlock)
    (session : Session) (picture : Picture) : Prop where
  sound : session.Sound picture
  grown : first.ExtendedBy (filled family delivered) picture
  engine : session.engine = { base.engine with
    contents := Edit.applyAll base.engine.contents
      ((filled family delivered).flatMap commitEdits) }
  waits : ∀ height parcel, session.waiting.get? height = some parcel ↔
    parcel ∈ unfilled family delivered ∧ parcel ∈ delivered ∧
      height = parcel.block.height.toNat

variable {base session : Session} {first picture : Picture} {tip : Cursor}
  {family delivered : List WaitingBlock} {parcel : WaitingBlock}

/-- A block that arrived before changes nothing. -/
theorem Midway.again (midway : Midway base first family delivered session picture)
    (known : parcel ∈ delivered) :
    Midway base first family (parcel :: delivered) session picture := by
  have stays : ∀ head rest, unfilled family delivered = head :: rest → head ≠ parcel := by
    intro head rest start here
    exact missing_of_unfilled start (here ▸ known)
  rcases filled_cons_of_not_head stays with ⟨same, behind⟩
  refine ⟨midway.sound, ?_, ?_, ?_⟩
  · rw [same]
    exact midway.grown
  · rw [same]
    exact midway.engine
  · intro height other
    rw [midway.waits, behind]
    constructor
    · rintro ⟨gap, arrived, here⟩
      exact ⟨gap, List.mem_cons_of_mem _ arrived, here⟩
    · rintro ⟨gap, arrived, here⟩
      rcases List.mem_cons.mp arrived with new | old
      · exact ⟨gap, new ▸ known, here⟩
      · exact ⟨gap, old, here⟩

/-- A block behind the gap begins to wait. -/
theorem Midway.hold (midway : Midway base first family delivered session picture)
    (follows : Follows tip family) {head : WaitingBlock} {rest : List WaitingBlock}
    (gap : unfilled family delivered = head :: rest) (behind : parcel ∈ rest)
    (other : head ≠ parcel) (fits : parcel.Fits) :
    Midway base first family (parcel :: delivered)
      ⟨session.engine, session.waiting.insert parcel.block.height.toNat parcel⟩ picture := by
  have stays : ∀ start others, unfilled family delivered = start :: others →
      start ≠ parcel := by
    intro start others same
    rw [gap] at same
    cases same
    exact other
  rcases filled_cons_of_not_head stays with ⟨same, still⟩
  have here : parcel ∈ unfilled family delivered := gap ▸ List.mem_cons_of_mem _ behind
  refine ⟨?_, ?_, ?_, ?_⟩
  · refine ⟨midway.sound.isOpen, midway.sound.settled, midway.sound.depicts, ?_⟩
    intro entry member
    rcases OrderedMap.mem_place member with new | old
    · exact new ▸ fits
    · exact midway.sound.waiting entry old
  · rw [same]
    exact midway.grown
  · rw [same]
    exact midway.engine
  · intro height found
    dsimp only
    rw [OrderedMap.get?_insert, still]
    by_cases own : height = parcel.block.height.toNat
    · rw [if_pos own]
      constructor
      · intro equal
        cases equal
        exact ⟨here, List.mem_cons_self, own⟩
      · rintro ⟨member, _, equal⟩
        rw [follows.eq_of_height (mem_of_mem_unfilled here) (mem_of_mem_unfilled member)
          (own.symm.trans equal)]
    · rw [if_neg own, midway.waits]
      constructor
      · rintro ⟨member, arrived, equal⟩
        exact ⟨member, List.mem_cons_of_mem _ arrived, equal⟩
      · rintro ⟨member, arrived, equal⟩
        rcases List.mem_cons.mp arrived with new | old
        · exact absurd (new ▸ equal) own
        · exact ⟨member, old, equal⟩

/-- Among the blocks from the gap on, those that arrived wait at their heights. -/
theorem Midway.get?_height (midway : Midway base first family delivered session picture)
    (follows : Follows tip family) (behind : parcel ∈ unfilled family delivered) :
    session.waiting.get? parcel.block.height.toNat =
      if parcel ∈ delivered then some parcel else none := by
  by_cases arrived : parcel ∈ delivered
  · rw [if_pos arrived, midway.waits]
    exact ⟨behind, arrived, rfl⟩
  · rw [if_neg arrived]
    cases found : session.waiting.get? parcel.block.height.toNat with
    | none => rfl
    | some stranger =>
        rcases (midway.waits _ _).mp found with ⟨waits, came, same⟩
        have equal := follows.eq_of_height (mem_of_mem_unfilled behind)
          (mem_of_mem_unfilled waits) same
        exact absurd (equal ▸ came) arrived

/-- What waits behind the block that was missing is what arrived. -/
theorem Midway.linkedTo_eq (midway : Midway base first family delivered session picture)
    (follows : Follows tip family) {rest : List WaitingBlock}
    (gap : unfilled family delivered = parcel :: rest) :
    linkedTo (.ofBlock parcel.block) session.waiting.entries =
      filled rest (parcel :: delivered) := by
  have split := filled_append_unfilled family delivered
  rw [gap] at split
  rcases (split.symm ▸ follows).front_back.2 with ⟨links, others⟩
  apply linkedTo_eq_takeWhile others
  · intro other member
    have known : other ∈ parcel :: delivered ↔ other ∈ delivered := by
      constructor
      · intro arrived
        rcases List.mem_cons.mp arrived with here | there
        · have above := (others.height_mem member).1
          rw [here] at above
          exact absurd above (Nat.lt_irrefl _)
        · exact there
      · exact List.mem_cons_of_mem _
    have behind : other ∈ unfilled family delivered := gap ▸ List.mem_cons_of_mem _ member
    rw [midway.get?_height follows behind]
    simp only [known]
  · cases found : session.waiting.get?
        ((endOf (.ofBlock parcel.block) rest).height.toNat + 1) with
    | none => rfl
    | some stranger =>
        rcases (midway.waits _ _).mp found with ⟨waits, _, same⟩
        rw [gap] at waits
        have last : (endOf (.ofBlock parcel.block) rest).height.toNat =
            parcel.block.height.toNat + rest.length := others.height_endOf
        rcases List.mem_cons.mp waits with here | there
        · rw [here] at same
          omega
        · have bound : stranger.block.height.toNat ≤
              parcel.block.height.toNat + rest.length := (others.height_mem there).2
          omega

/-- The block that was missing is stored with all that waited behind it up to
the next gap. -/
theorem Midway.fill (midway : Midway base first family delivered session picture)
    (follows : Follows tip family) (last : Chain.tip first.chain = some tip)
    {rest : List WaitingBlock} (gap : unfilled family delivered = parcel :: rest)
    {next : Session} {after : Picture} {reached : Cursor} {edits : List Edit}
    (sound : next.Sound after) (ends : Chain.tip after.chain = some reached)
    (grown : picture.ExtendedBy
      (parcel :: linkedTo (.ofBlock parcel.block) session.waiting.entries) after)
    (kept : next.waiting = waitingAbove reached session.waiting)
    (wrote : after.written = picture.written ++ edits)
    (engine : next.engine =
      { session.engine with contents := Edit.applyAll session.engine.contents edits }) :
    Midway base first family (parcel :: delivered) next after := by
  rcases filled_cons_of_head gap with ⟨same, _⟩
  rw [midway.linkedTo_eq follows gap] at grown
  have all := midway.grown.trans grown
  rw [← same] at all
  have tips : reached = endOf tip (filled family (parcel :: delivered)) := by
    apply Option.some.inj
    rw [← ends, all.chain]
    exact tip_append_map last _
  have new := List.append_cancel_left (wrote.symm.trans grown.written)
  refine ⟨sound, all, ?_, ?_⟩
  · rw [same, engine, midway.engine, new, List.flatMap_append, Edit.applyAll_append]
  · intro height other
    have waits := waits_cons_of_head follows gap other
    rw [kept, waitingAbove, OrderedMap.get?_filter, Option.filter_eq_some_iff, midway.waits,
      tips]
    constructor
    · rintro ⟨⟨behind, came, here⟩, passes⟩
      rcases waits.mpr ⟨⟨behind, came⟩, here ▸ of_decide_eq_true passes⟩ with ⟨still, arrived⟩
      exact ⟨still, arrived, here⟩
    · rintro ⟨still, arrived, here⟩
      rcases waits.mp ⟨still, arrived⟩ with ⟨⟨behind, came⟩, above⟩
      exact ⟨⟨behind, came, here⟩, decide_eq_true (here ▸ above)⟩

theorem Midway.tip_eq (midway : Midway base first family delivered session picture)
    (last : Chain.tip first.chain = some tip) :
    Chain.tip picture.chain = some (endOf tip (filled family delivered)) := by
  rw [midway.grown.chain]
  exact tip_append_map last _

/-- A block behind the gap waits from now on, or waited before. -/
theorem Midway.ahead (midway : Midway base first family delivered session picture)
    (succession : Succession tip family) {head : WaitingBlock} {rest : List WaitingBlock}
    (gap : unfilled family delivered = head :: rest) (behind : parcel ∈ rest)
    (other : head ≠ parcel) :
    let (answer, waiting) := Ledger.hold (endOf tip (filled family delivered)) parcel.block
      parcel.transactions session.waiting
    Midway base first family (parcel :: delivered) ⟨session.engine, waiting⟩ picture ∧
      Welcomes (.ok answer) := by
  have here : parcel ∈ unfilled family delivered := gap ▸ List.mem_cons_of_mem _ behind
  have member := mem_of_mem_unfilled here
  have ordered := (filled_append_unfilled family delivered).symm ▸ succession.follows
  have near : parcel.block.height.toNat ≤
      (endOf tip (filled family delivered)).height.toNat + farthestAhead := by
    have bound := (succession.follows.height_mem member).2
    have start := ordered.front_back.1.height_endOf
    have few := succession.count
    omega
  rw [hold_eq near, midway.get?_height succession.follows here]
  by_cases arrived : parcel ∈ delivered
  · rw [if_pos arrived]
    dsimp only
    rw [compareWith_self]
    exact ⟨midway.again arrived, trivial⟩
  · rw [if_neg arrived]
    exact ⟨midway.hold succession.follows gap behind other (succession.fits parcel member),
      trivial⟩

/-- Whatever becomes of a block of the family, the session stays in the midst and
the block is welcome. -/
theorem Midway.accepted (midway : Midway base first family delivered session picture)
    (succession : Succession tip family) (last : Chain.tip first.chain = some tip)
    (member : parcel ∈ family) {answer : Acceptance} {next : Session} {after : Picture}
    {edits : List Edit}
    (became : Accepted picture (endOf tip (filled family delivered)) session.waiting parcel
      answer next.waiting after)
    (sound : next.Sound after) (wrote : after.written = picture.written ++ edits)
    (engine : next.engine =
      { session.engine with contents := Edit.applyAll session.engine.contents edits }) :
    Midway base first family (parcel :: delivered) next after ∧ Welcomes (.ok answer) := by
  have split := filled_append_unfilled family delivered
  have follows := succession.follows
  have ordered := split.symm ▸ follows
  have length := picture.linked.tip_height (midway.tip_eq last)
  rcases next with ⟨nextEngine, nextWaiting⟩
  dsimp only at became engine
  -- an answer without a write leaves the store as it is
  have unwritten : after = picture → nextEngine = session.engine := by
    intro same
    rw [same] at wrote
    have nothing : edits = [] := List.append_right_eq_self.mp wrote.symm
    rw [nothing] at engine
    exact engine
  have position := ordered.position (split.symm ▸ member)
  cases became with
  | compared inside =>
      rcases position with ⟨stored, _⟩ | ⟨_, _, links⟩ | ⟨_, _, _, _, _, above⟩
      · have found : parcel.block ∈ picture.chain := by
          rw [midway.grown.chain]
          exact List.mem_append_right _ (List.mem_map_of_mem stored)
        cases unwritten rfl
        refine ⟨midway.again (delivered_of_mem_filled stored), ?_⟩
        rw [picture.linked.getElem_height found inside, compareWith_self]
        trivial
      · have next_height := links.1
        omega
      · omega
  | ahead above =>
      rcases position with ⟨_, low⟩ | ⟨_, _, links⟩ | ⟨head, rest, gap, behind, other, _⟩
      · omega
      · have next_height := links.1
        omega
      · cases unwritten rfl
        exact midway.ahead succession gap behind other
  | extended links ends grown =>
      rcases position with ⟨_, low⟩ | ⟨rest, gap, _⟩ | ⟨_, _, _, _, _, above⟩
      · have next_height := links.1
        omega
      · exact ⟨midway.fill follows last gap sound ends grown rfl wrote engine, trivial⟩
      · have next_height := links.1
        omega
  | unlinked next separate =>
      rcases position with ⟨_, low⟩ | ⟨_, _, links⟩ | ⟨_, _, _, _, _, above⟩
      · omega
      · exact absurd links.2 separate
      · omega

/-- Each delivery keeps the session in the midst and is welcome. -/
theorem Midway.deliver (midway : Midway base first family delivered session picture)
    (succession : Succession tip family) (last : Chain.tip first.chain = some tip)
    (member : parcel ∈ family) :
    ∃ after, Midway base first family (parcel :: delivered) (session.deliver parcel).2 after ∧
      Welcomes (session.deliver parcel).1 := by
  rcases midway.sound.deliver (midway.tip_eq last) (succession.fits parcel member) with
    ⟨answer, edits, after, answered, became, sound, wrote, engine⟩
  rw [answered]
  exact ⟨after, midway.accepted succession last member became sound wrote engine⟩

/-! ## Many deliveries -/

theorem Midway.congr {others : List WaitingBlock}
    (midway : Midway base first family delivered session picture)
    (same : ∀ parcel, parcel ∈ others ↔ parcel ∈ delivered) :
    Midway base first family others session picture := by
  rcases filled_congr same family with ⟨front, back⟩
  refine ⟨midway.sound, ?_, ?_, ?_⟩
  · rw [front]
    exact midway.grown
  · rw [front]
    exact midway.engine
  · intro height parcel
    rw [midway.waits, back, same]

theorem Midway.start (sound : base.Sound first) (nothing : base.waiting = ∅)
    (family : List WaitingBlock) : Midway base first family [] base first := by
  have none : ∀ parcel ∈ ([] : List WaitingBlock), parcel ∈ ([] : List WaitingBlock) := by
    intro parcel member
    exact member
  have missing : ∀ head rest, family = head :: rest → head ∉ ([] : List WaitingBlock) := by
    intro head rest _
    exact List.not_mem_nil
  rcases filled_of_split none missing with ⟨front, back⟩
  rw [List.nil_append] at front back
  refine ⟨sound, ?_, ?_, ?_⟩
  · rw [front]
    exact .refl sound.settled
  · rw [front]
    rfl
  · intro height parcel
    rw [nothing, OrderedMap.get?_empty]
    constructor
    · intro found
      cases found
    · rintro ⟨_, arrived, _⟩
      cases arrived

theorem Midway.deliverAll (midway : Midway base first family delivered session picture)
    (succession : Succession tip family) (last : Chain.tip first.chain = some tip)
    {deliveries : List WaitingBlock} (members : ∀ parcel ∈ deliveries, parcel ∈ family) :
    ∃ after, Midway base first family (deliveries.reverse ++ delivered)
        (session.deliverAll deliveries).2 after ∧
      (session.deliverAll deliveries).1.length = deliveries.length ∧
      ∀ answer ∈ (session.deliverAll deliveries).1, Welcomes answer := by
  induction deliveries generalizing session picture delivered with
  | nil => exact ⟨picture, midway, rfl, List.forall_mem_nil _⟩
  | cons parcel rest ih =>
      rcases List.forall_mem_cons.mp members with ⟨head, tail⟩
      rcases midway.deliver succession last head with ⟨middle, next, welcome⟩
      rcases ih next tail with ⟨after, final, count, others⟩
      refine ⟨after, ?_, congrArg (· + 1) count, List.forall_mem_cons.mpr ⟨welcome, others⟩⟩
      rw [List.reverse_cons, List.append_assoc]
      exact final

/-- What deliveries of blocks of a succession make of a session. -/
structure Delivered (before : Session) (tip : Cursor) (family deliveries : List WaitingBlock)
    (answers : List (Except Fault Acceptance)) (after : Session) : Prop where
  /-- The cursor is at the last block that arrived without a gap. -/
  cursor : Ledger.cursor.run after.engine =
    (.ok (endOf tip (filled family deliveries)), after.engine)
  /-- All blocks up to the cursor arrived, and the next one did not. -/
  largest : ∀ parcel ∈ family,
    (parcel.block.height ≤ (endOf tip (filled family deliveries)).height →
      parcel ∈ deliveries) ∧
    (parcel.block.height.toNat = (endOf tip (filled family deliveries)).height.toNat + 1 →
      parcel ∉ deliveries)
  /-- Exactly the blocks up to the cursor were added. -/
  blocks : (RecordStore.blocks.entriesIn after.engine.contents).Perm
    (RecordStore.blocks.entriesIn before.engine.contents ++
      (filled family deliveries).map fun parcel => blockEntry parcel.block)
  /-- Exactly their transactions were added. -/
  confirmed : (RecordStore.confirmed.entriesIn after.engine.contents).Perm
    (RecordStore.confirmed.entriesIn before.engine.contents ++
      (filled family deliveries).flatMap carried)
  /-- What was delivered beyond the cursor waits. -/
  waiting : ∀ height parcel, after.waiting.get? height = some parcel ↔
    parcel ∈ deliveries ∧ (endOf tip (filled family deliveries)).height < parcel.block.height ∧
      height = parcel.block.height.toNat
  answered : answers.length = deliveries.length
  welcome : ∀ answer ∈ answers, Welcomes answer

/-- Delivered blocks are filled or stand beyond what is filled. -/
theorem mem_unfilled_iff (follows : Follows tip family) (member : parcel ∈ family) :
    parcel ∈ unfilled family delivered ↔
      (endOf tip (filled family delivered)).height < parcel.block.height := by
  have split := filled_append_unfilled family delivered
  rcases (split.symm ▸ follows).front_back with ⟨front, back⟩
  rw [UInt64.lt_iff_toNat_lt]
  constructor
  · intro behind
    exact (back.height_mem behind).1
  · intro above
    rcases List.mem_append.mp (split.symm ▸ member) with before | behind
    · have low := (front.height_mem before).2
      rw [← front.height_endOf] at low
      omega
    · exact behind

theorem Midway.outcome {deliveries : List WaitingBlock}
    {answers : List (Except Fault Acceptance)}
    (midway : Midway base first family deliveries session picture)
    (sound : base.Sound first) (succession : Succession tip family)
    (last : Chain.tip first.chain = some tip)
    (members : ∀ parcel ∈ deliveries, parcel ∈ family)
    (answered : answers.length = deliveries.length)
    (welcome : ∀ answer ∈ answers, Welcomes answer) :
    Delivered base tip family deliveries answers session := by
  have split := filled_append_unfilled family deliveries
  have ordered := split.symm ▸ succession.follows
  have reached := midway.tip_eq last
  refine ⟨?_, ?_, ?_, ?_, ?_, answered, welcome⟩
  · exact midway.sound.depicts.run_cursor midway.sound.isOpen
      (midway.sound.settled.trans reached)
  · intro parcel member
    rcases ordered.position (split.symm ▸ member) with
      ⟨stored, low⟩ | ⟨_, gap, links⟩ | ⟨_, _, _, _, _, above⟩
    · refine ⟨fun _ => delivered_of_mem_filled stored, fun next => ?_⟩
      omega
    · refine ⟨fun below => ?_, fun _ => missing_of_unfilled gap⟩
      have order := UInt64.le_iff_toNat_le.mp below
      have next_height := links.1
      omega
    · refine ⟨fun below => ?_, fun next => ?_⟩
      · have order := UInt64.le_iff_toNat_le.mp below
        omega
      · omega
  · apply (Shows.blocks midway.sound.depicts).trans
    rw [midway.grown.chain, List.map_append, List.map_map]
    exact (Shows.blocks sound.depicts).symm.append_right _
  · rw [midway.engine]
    apply commits_perm ordered.front_back.1
    · intro parcel member
      apply succession.distinct
      rw [← split]
      exact List.mem_append_left _ member
    · exact Shows.confirmedUpTo sound.depicts (first.linked.tip_height last).symm
  · intro height parcel
    rw [midway.waits]
    constructor
    · rintro ⟨behind, arrived, same⟩
      exact ⟨arrived, (mem_unfilled_iff succession.follows (members parcel arrived)).mp behind,
        same⟩
    · rintro ⟨arrived, above, same⟩
      exact ⟨(mem_unfilled_iff succession.follows (members parcel arrived)).mpr above, arrived,
        same⟩

/-- Two sessions in the midst of the same deliveries are the same. -/
theorem Midway.unique {other : Session} {view : Picture}
    (one : Midway base first family delivered session picture)
    (two : Midway base first family delivered other view) : session = other := by
  have engines : session.engine = other.engine := one.engine.trans two.engine.symm
  have waiting : session.waiting = other.waiting := by
    apply OrderedMap.ext_get?
    intro height
    apply Option.ext
    intro parcel
    rw [one.waits, two.waits]
  exact Session.ext engines waiting

/-- When nothing waits, the blocks of a succession may be delivered in any
order.  What the ledger becomes depends on which of them were delivered. -/
theorem delivery_confluent (path : String) (events : List Event)
    (nothing : ((start path).run events).waiting = ∅) :
    ∃ tip, Ledger.cursor.run ((start path).run events).engine =
        (.ok tip, ((start path).run events).engine) ∧
      ∀ family, Succession tip family → ∀ deliveries,
        (∀ parcel ∈ deliveries, parcel ∈ family) →
        Delivered ((start path).run events) tip family deliveries
            (((start path).run events).deliverAll deliveries).1
            (((start path).run events).deliverAll deliveries).2 ∧
          ∀ others, (∀ parcel, parcel ∈ others ↔ parcel ∈ deliveries) →
            (((start path).run events).deliverAll others).2 =
              (((start path).run events).deliverAll deliveries).2 := by
  rcases run_start_sound path events with ⟨first, tip, sound, last⟩
  refine ⟨tip, sound.depicts.run_cursor sound.isOpen (sound.settled.trans last), ?_⟩
  intro family succession
  have reaches : ∀ deliveries, (∀ parcel ∈ deliveries, parcel ∈ family) →
      ∃ after, Midway ((start path).run events) first family deliveries
          (((start path).run events).deliverAll deliveries).2 after ∧
        (((start path).run events).deliverAll deliveries).1.length = deliveries.length ∧
        ∀ answer ∈ (((start path).run events).deliverAll deliveries).1, Welcomes answer := by
    intro deliveries members
    rcases (Midway.start sound nothing family).deliverAll succession last members with
      ⟨after, midway, answered, welcome⟩
    refine ⟨after, midway.congr ?_, answered, welcome⟩
    intro parcel
    rw [List.append_nil, List.mem_reverse]
  intro deliveries members
  rcases reaches deliveries members with ⟨after, midway, answered, welcome⟩
  refine ⟨midway.outcome sound succession last members answered welcome, ?_⟩
  intro others same
  rcases reaches others fun parcel member => members parcel ((same parcel).mp member) with
    ⟨_, again, _⟩
  exact (again.congr fun parcel => (same parcel).symm).unique midway

theorem sample_succession : Succession Cursor.genesis
    [sampleParcel 1 "first" Block.genesisHash, sampleParcel 2 "second" "first"] where
  count := by decide
  follows := ⟨⟨rfl, rfl⟩, ⟨rfl, rfl⟩, trivial⟩
  fits := by
    have one : (sampleParcel 1 "first" Block.genesisHash).Fits :=
      sampleParcel_fits (by decide) (by decide)
    have two : (sampleParcel 2 "second" "first").Fits :=
      sampleParcel_fits (by decide) (by decide)
    exact List.forall_mem_cons.mpr ⟨one, List.forall_mem_singleton.mpr two⟩
  distinct := by
    have single (height hash previousHash) :
        (sampleParcel height hash previousHash).Distinct := List.pairwise_singleton _ _
    exact List.forall_mem_cons.mpr
      ⟨single _ _ _, List.forall_mem_singleton.mpr (single _ _ _)⟩

/-- Two blocks on a new ledger, delivered in the wrong order, are both stored. -/
theorem delivery_confluent_reversed :
    ((start "ledger").run []).waiting = ∅ ∧
      (Ledger.cursor.run (((start "ledger").run []).deliverAll
        [sampleParcel 2 "second" "first", sampleParcel 1 "first" Block.genesisHash]).2.engine).1 =
        .ok ⟨2, "second"⟩ := by
  have nothing : ((start "ledger").run []).waiting = ∅ := rfl
  rcases delivery_confluent "ledger" [] nothing with ⟨tip, stored, holds⟩
  have genesis : tip = Cursor.genesis := by
    have found : Except.ok Cursor.genesis = Except.ok tip := congrArg Prod.fst stored
    exact (Except.ok.inj found).symm
  subst genesis
  have members : ∀ parcel ∈ [sampleParcel 2 "second" "first",
      sampleParcel 1 "first" Block.genesisHash], parcel ∈
      [sampleParcel 1 "first" Block.genesisHash, sampleParcel 2 "second" "first"] := by
    decide
  have delivered := (holds _ sample_succession _ members).1
  exact ⟨nothing, congrArg Prod.fst delivered.cursor⟩

end Session

end LedgerNode
