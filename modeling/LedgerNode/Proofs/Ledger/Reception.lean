import LedgerNode.Proofs.Ledger.Reachability
import LedgerNode.Proofs.Ledger.Succession

namespace LedgerNode

/-!
# What becomes of a peer's block

The answer to a peer's block depends on its height and on what is known at this
height.  Up to the tip it is compared with the stored block.  Two or more above
the tip it is compared with the block that waits there, or begins to wait, if it
is not too far ahead.  Directly above the tip it must link, or it is rejected.

A block that links is stored, and behind it the longest run of waiting blocks of
which each extends the one before.  A run ends where no block waits, or where
one waits that does not link.  The latter can never be stored any more, so it is
dropped with everything up to the new tip, and what stands further up goes on
waiting.

The waiting blocks need not have come from earlier deliveries.  All that is
assumed of them is that they can be stored.
-/

namespace Ledger

open Session (sampleParcel sampleParcel_fits)

/-! ## Runs of waiting blocks -/

/-- Blocks that wait at the heights above a tip, each of which extends the one
before. -/
def WaitsBehind (waiting : WaitingBlocks) : Cursor → List WaitingBlock → Prop
  | _, [] => True
  | tip, next :: rest =>
    waiting.get? (tip.height.toNat + 1) = some next ∧ tip.ExtendedBy next.block ∧
      WaitsBehind waiting (.ofBlock next.block) rest

/-- The longest run of waiting blocks above a tip.  Every other run is the
beginning of it. -/
structure LongestRun (waiting : WaitingBlocks) (tip : Cursor) (run : List WaitingBlock) :
    Prop where
  waits : WaitsBehind waiting tip run
  longest : ∀ other, WaitsBehind waiting tip other → other <+: run

namespace LongestRun

variable {waiting : WaitingBlocks} {tip : Cursor} {next : WaitingBlock}
  {run : List WaitingBlock}

/-- Where nothing waits that links, there is no run. -/
theorem nil (stops : ∀ next, waiting.get? (tip.height.toNat + 1) = some next →
    ¬ tip.ExtendedBy next.block) : LongestRun waiting tip [] where
  waits := trivial
  longest other waits := by
    cases other with
    | nil => exact List.prefix_refl _
    | cons next rest => exact absurd waits.2.1 (stops next waits.1)

theorem cons (found : waiting.get? (tip.height.toNat + 1) = some next)
    (links : tip.ExtendedBy next.block)
    (behind : LongestRun waiting (.ofBlock next.block) run) :
    LongestRun waiting tip (next :: run) where
  waits := ⟨found, links, behind.waits⟩
  longest other waits := by
    cases other with
    | nil => exact List.nil_prefix
    | cons first rest =>
        rcases waits with ⟨same, _, others⟩
        cases found.symm.trans same
        exact List.cons_prefix_cons.mpr ⟨rfl, behind.longest rest others⟩

end LongestRun

/-- What is stored behind a tip is the longest run of waiting blocks. -/
theorem longestRun_linkedTo (waiting : WaitingBlocks) (tip : Cursor) :
    LongestRun waiting tip (linkedTo tip waiting.entries) := by
  generalize stored : linkedTo tip waiting.entries = run
  induction run generalizing tip with
  | nil =>
      apply LongestRun.nil
      intro next found links
      have here : OrderedMap.lookup (tip.height.toNat + 1) waiting.entries = some next := found
      rw [linkedTo_eq tip waiting.increasing, here] at stored
      dsimp only at stored
      rw [if_pos links] at stored
      cases stored
  | cons first rest ih =>
      rw [linkedTo_eq tip waiting.increasing] at stored
      cases found : OrderedMap.lookup (tip.height.toNat + 1) waiting.entries with
      | none =>
          rw [found] at stored
          cases stored
      | some next =>
          rw [found] at stored
          dsimp only at stored
          by_cases links : tip.ExtendedBy next.block
          · rw [if_pos links] at stored
            cases stored
            exact .cons found links (ih _ rfl)
          · rw [if_neg links] at stored
            cases stored

/-! ## The answers -/

/-- What a delivery answers, what waits after it, and what it has written. -/
structure Reception where
  answer : Acceptance
  waiting : WaitingBlocks
  written : List Edit

/-- How a peer's block is received by a ledger with the given tip, where these
blocks wait. -/
inductive Received (engine : Engine) (tip : Cursor) (waiting : WaitingBlocks)
    (parcel : WaitingBlock) : Reception → Prop where
  /-- The same block is stored. -/
  | storedAgain {existing : Block} (below : parcel.block.height ≤ tip.height)
    (stored : (block parcel.block.height).run engine = (.ok existing, engine))
    (same : existing.hash = parcel.block.hash) :
    Received engine tip waiting parcel ⟨.duplicate, waiting, []⟩
  /-- Another block is stored at this height. -/
  | storedOther {existing : Block} (below : parcel.block.height ≤ tip.height)
    (stored : (block parcel.block.height).run engine = (.ok existing, engine))
    (other : existing.hash ≠ parcel.block.hash) :
    Received engine tip waiting parcel ⟨.conflicting existing.hash, waiting, []⟩
  | tooFar (far : tip.height.toNat + farthestAhead < parcel.block.height.toNat) :
    Received engine tip waiting parcel ⟨.rejected, waiting, []⟩
  /-- The same block waits. -/
  | waitsAgain {existing : WaitingBlock}
    (ahead : tip.height.toNat + 1 < parcel.block.height.toNat)
    (near : parcel.block.height.toNat ≤ tip.height.toNat + farthestAhead)
    (waits : waiting.get? parcel.block.height.toNat = some existing)
    (same : existing.block.hash = parcel.block.hash) :
    Received engine tip waiting parcel ⟨.duplicate, waiting, []⟩
  /-- Another block waits at this height. -/
  | waitsOther {existing : WaitingBlock}
    (ahead : tip.height.toNat + 1 < parcel.block.height.toNat)
    (near : parcel.block.height.toNat ≤ tip.height.toNat + farthestAhead)
    (waits : waiting.get? parcel.block.height.toNat = some existing)
    (other : existing.block.hash ≠ parcel.block.hash) :
    Received engine tip waiting parcel ⟨.conflicting existing.block.hash, waiting, []⟩
  | held (ahead : tip.height.toNat + 1 < parcel.block.height.toNat)
    (near : parcel.block.height.toNat ≤ tip.height.toNat + farthestAhead)
    (absent : waiting.get? parcel.block.height.toNat = none) :
    Received engine tip waiting parcel
      ⟨.held, waiting.insert parcel.block.height.toNat parcel, []⟩
  | unlinked (next : parcel.block.height.toNat = tip.height.toNat + 1)
    (separate : parcel.block.previousHash ≠ tip.hash) :
    Received engine tip waiting parcel ⟨.rejected, waiting, []⟩
  /-- The block and the run behind it are stored in their order, each with its
  transactions under its own height.  The cursor is at the last of them, and
  what stands above the next height goes on waiting. -/
  | extended {behind : List WaitingBlock} {kept : WaitingBlocks} {reached : Cursor}
    (links : tip.ExtendedBy parcel.block)
    (run : LongestRun waiting (.ofBlock parcel.block) behind)
    (last : reached = endOf tip (parcel :: behind))
    (stored : cursor.run (engine.edited ((parcel :: behind).flatMap commitEdits)) =
      (.ok reached, engine.edited ((parcel :: behind).flatMap commitEdits)))
    (goOn : ∀ height, kept.get? height =
      if reached.height.toNat + 1 < height then waiting.get? height else none) :
    Received engine tip waiting parcel
      ⟨.extended reached, kept, (parcel :: behind).flatMap commitEdits⟩

section Reception

variable {engine : Engine} {picture after : Picture} {tip : Cursor}
  {waiting kept : WaitingBlocks} {parcel : WaitingBlock} {answer : Acceptance}
  {edits : List Edit}

theorem received_of_ahead (above : tip.height.toNat + 1 < parcel.block.height.toNat) :
    Received engine tip waiting parcel
      ⟨(hold tip parcel.block parcel.transactions waiting).1,
        (hold tip parcel.block parcel.transactions waiting).2, []⟩ := by
  by_cases far : tip.height.toNat + farthestAhead < parcel.block.height.toNat
  · rw [hold, if_pos far]
    exact .tooFar far
  · have near := Nat.le_of_not_lt far
    rw [hold_eq near]
    cases waits : waiting.get? parcel.block.height.toNat with
    | none => exact .held above near waits
    | some existing =>
        dsimp only
        by_cases same : existing.block.hash = parcel.block.hash
        · rw [compareWith_of_same same]
          exact .waitsAgain above near waits same
        · rw [compareWith_of_other same]
          exact .waitsOther above near waits same

theorem get?_waitingAbove_eq (tip : Cursor) (waiting : WaitingBlocks) (height : Nat) :
    (waitingAbove tip waiting).get? height =
      if tip.height.toNat + 1 < height then waiting.get? height else none := by
  rw [waitingAbove, OrderedMap.get?_filter]
  cases waiting.get? height <;> simp [Option.filter]

/-- Each way in which a block is accepted is one in which it is received. -/
theorem Accepted.received (accepted : Accepted picture tip waiting parcel answer kept after)
    (isOpen : engine.isOpen = true) (depicts : picture.Depicts engine.contents)
    (last : Chain.tip picture.chain = some tip)
    (wrote : after.written = picture.written ++ edits)
    (shows : after.Depicts (engine.edited edits).contents) :
    Received engine tip waiting parcel ⟨answer, kept, edits⟩ := by
  -- what leaves the picture alone has written nothing
  have unwritten : after = picture → edits = [] := by
    intro same
    rw [same] at wrote
    exact List.append_right_eq_self.mp wrote.symm
  cases accepted with
  | compared inside =>
      rw [unwritten rfl]
      have stored := depicts.run_block isOpen inside
      have below : parcel.block.height ≤ tip.height := by
        apply UInt64.le_iff_toNat_le.mpr
        have length := picture.linked.tip_height last
        omega
      by_cases same : picture.chain[parcel.block.height.toNat].hash = parcel.block.hash
      · rw [compareWith_of_same same]
        exact .storedAgain below stored same
      · rw [compareWith_of_other same]
        exact .storedOther below stored same
  | ahead above =>
      rw [unwritten rfl]
      exact received_of_ahead above
  | extended links ends grown =>
      have all : edits = _ := List.append_cancel_left (wrote.symm.trans grown.written)
      have stored := shows.run_cursor isOpen (grown.settled.trans ends)
      subst all
      refine .extended links (longestRun_linkedTo waiting _) ?_ stored
        (get?_waitingAbove_eq _ waiting)
      apply Option.some.inj
      rw [← ends, grown.chain]
      exact tip_append_map last _
  | unlinked next separate =>
      rw [unwritten rfl]
      exact .unlinked next separate

end Reception

/-- Whatever waits, every block that a peer sends to a reachable ledger is
received, and the store takes exactly the writes of this reception. -/
theorem accept_received {session : Session} (reachable : Reachable (.up session))
    {waiting : WaitingBlocks} (others : waiting.Fit) {parcel : WaitingBlock}
    (fits : parcel.Fits) :
    ∃ tip reception, cursor.run session.engine = (.ok tip, session.engine) ∧
      Received session.engine tip waiting parcel reception ∧
      (accept parcel.block parcel.transactions).run waiting session.engine =
        (.ok reception.answer, reception.waiting, session.engine.edited reception.written) ∧
      ((accept parcel.block parcel.transactions).log waiting session.engine).flatten =
        reception.written := by
  rcases reachable.sound with ⟨picture, tip, sound, last⟩
  rcases (accept_meets sound.settled fits others).run_log (fun _ => rfl) sound.isOpen
    sound.depicts with ⟨outcome, kept, after, ran, granted, shows, reached⟩
  cases outcome with
  | error fault =>
      rw [reached.1] at last
      cases last
  | ok answer =>
      rcases reached with ⟨_, same, accepted⟩
      cases last.symm.trans same
      refine ⟨tip, ⟨answer, kept, _⟩, ?_, ?_, ran, rfl⟩
      · exact sound.depicts.run_cursor sound.isOpen (sound.settled.trans last)
      · exact accepted.received sound.isOpen sound.depicts last (written_of_granted granted)
          shows

/-- Of these waiting blocks the second follows on a first one, the third does
not follow on the second, and the fourth is missing. -/
def brokenRun : WaitingBlocks :=
  (((∅ : WaitingBlocks).insert 2 (sampleParcel 2 "second" "first")).insert 3
    (sampleParcel 3 "third" "stranger")).insert 5 (sampleParcel 5 "fifth" "fourth")

theorem fit_brokenRun : brokenRun.Fit := by
  have entries : brokenRun.entries = [(2, sampleParcel 2 "second" "first"),
      (3, sampleParcel 3 "third" "stranger"), (5, sampleParcel 5 "fifth" "fourth")] := rfl
  intro entry member
  rw [entries] at member
  fin_cases member
  · exact sampleParcel_fits (by decide) (by decide)
  · exact sampleParcel_fits (by decide) (by decide)
  · exact sampleParcel_fits (by decide) (by decide)

/-- The first block reaches a new ledger.  It is stored with the second, the
third is dropped, and the fifth goes on waiting. -/
theorem accept_received_brokenRun :
    Reachable (.up (Session.start "ledger")) ∧ brokenRun.Fit ∧
      (sampleParcel 1 "first" Block.genesisHash).Fits ∧
      ∃ reception, Received (Session.start "ledger").engine Cursor.genesis brokenRun
          (sampleParcel 1 "first" Block.genesisHash) reception ∧
        reception.answer = .extended ⟨2, "second"⟩ ∧ reception.waiting.get? 3 = none ∧
        reception.waiting.get? 5 = some (sampleParcel 5 "fifth" "fourth") := by
  have reachable := Session.reachable_start "ledger"
  have fits : (sampleParcel 1 "first" Block.genesisHash).Fits :=
    sampleParcel_fits (by decide) (by decide)
  rcases accept_received reachable fit_brokenRun fits with
    ⟨tip, reception, stored, received, ran, _⟩
  have genesis : (cursor.run (Session.start "ledger").engine).1 = .ok Cursor.genesis := by cbv
  rw [stored] at genesis
  cases genesis
  refine ⟨reachable, fit_brokenRun, fits, reception, received, ?_, ?_, ?_⟩
  · have answer : ((accept (sampleParcel 1 "first" Block.genesisHash).block
        (sampleParcel 1 "first" Block.genesisHash).transactions).run brokenRun
        (Session.start "ledger").engine).1 = .ok (.extended ⟨2, "second"⟩) := by cbv
    rw [ran] at answer
    exact Except.ok.inj answer
  · have kept := congrArg (fun outcome => outcome.2.1.get? 3) ran
    rw [← kept]
    cbv
  · have kept := congrArg (fun outcome => outcome.2.1.get? 5) ran
    rw [← kept]
    cbv

end Ledger

end LedgerNode
