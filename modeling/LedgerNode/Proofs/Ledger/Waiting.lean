import Mathlib
import LedgerNode.Proofs.Ledger.History

namespace LedgerNode

/-!
# How much waits

A peer's block waits if it is ahead of the chain, but not too far ahead.  When
a peer's block extends the chain, what waited behind it is stored, and whatever
else stands at the new tip or directly after it is dropped.  So from then on
everything that waits is at least two above the tip.

A block of the node's own moves the tip without a look at what waits.  The
waiting blocks fall behind by one, and there is room for one more at the far
end.  They stay where they are until the next block of a peer extends the
chain, or until the store is closed.  How far they may lag behind the tip is
therefore a count of blocks, which the statements below carry along; only while
it is zero does everything that waits stand above the next height.
-/

namespace Session

open Ledger

/-- How far what waits may lag behind the tip after a call. -/
def lagAfter (lag : Nat) : Except Fault Answer → Nat
  | .ok (.appended _) => lag + 1
  | .ok (.built _) => lag + 1
  | .ok (.accepted (.extended _)) => 0
  | _ => lag

/-- How far what waits may lag behind the tip after a history: by the blocks
that the node stored on its own since a peer's block last extended the chain. -/
def lag (session : Session) (before : Nat) : List Event → Nat
  | [] => before
  | .call call :: rest =>
    lag (session.perform call).2 (lagAfter before (session.perform call).1) rest
  | .restart meanwhile :: rest => lag (session.step (.restart meanwhile)) 0 rest

/-- What waits beside a chain of the given length stands under its own height,
neither too far behind nor too far ahead. -/
def WaitsNear (waiting : WaitingBlocks) (length lag : Nat) : Prop :=
  ∀ height parcel, waiting.get? height = some parcel → parcel.block.height.toNat = height ∧
    length < height + lag ∧ height < length + farthestAhead

theorem lag_append (session : Session) (before : Nat) (events : List Event) (event : Event) :
    session.lag before (events ++ [event]) =
      (session.run events).lag (session.lag before events) [event] := by
  induction events generalizing session before with
  | nil => rfl
  | cons first rest ih =>
      cases first with
      | call call => exact ih _ _
      | restart meanwhile => exact ih _ _

theorem lagAfter_of_silent {answer : Except Fault Answer} (silent : tellsExtension answer = false)
    (lag : Nat) : lagAfter lag answer = lag := by
  unfold tellsExtension at silent
  split at silent
  next => cases silent
  next => cases silent
  next => cases silent
  next notAppended notBuilt notExtended =>
    unfold lagAfter
    split
    next tip => exact absurd rfl (notAppended tip)
    next block => exact absurd rfl (notBuilt block)
    next tip => exact absurd rfl (notExtended tip)
    next => rfl

theorem compareWith_silent (existing block : Block) :
    tellsExtension (.ok (.accepted (compareWith existing block))) = false := by
  unfold compareWith
  split <;> rfl

theorem hold_silent (tip : Cursor) (block : Block) (transactions : List Transaction)
    (waiting : WaitingBlocks) :
    tellsExtension (.ok (.accepted (hold tip block transactions waiting).1)) = false := by
  unfold hold
  split
  · rfl
  · split
    · exact compareWith_silent _ block
    · rfl

namespace WaitsNear

variable {waiting : WaitingBlocks} {length lag : Nat}

theorem empty (length lag : Nat) : WaitsNear ∅ length lag := by
  intro height parcel waits
  cases waits

/-- The chain grew by a block, and nobody looked at what waits. -/
theorem overtaken (near : WaitsNear waiting length lag) :
    WaitsNear waiting (length + 1) (lag + 1) := by
  intro height parcel waits
  rcases near height parcel waits with ⟨own, above, below⟩
  exact ⟨own, by omega, by omega⟩

/-- A block ahead of the chain is the only one that may begin to wait. -/
theorem hold (near : WaitsNear waiting length lag) {tip : Cursor} {block : Block}
    (transactions : List Transaction) (reaches : tip.height.toNat + 1 = length)
    (ahead : tip.height.toNat + 1 < block.height.toNat) :
    WaitsNear (Ledger.hold tip block transactions waiting).2 length lag := by
  intro height parcel waits
  rcases get?_hold waits with before | ⟨⟨here, far⟩, same⟩
  · exact near height parcel before
  · subst same
    exact ⟨here.symm, by omega, by omega⟩

/-- What is kept when the chain has grown stands above the next height. -/
theorem waitingAbove (near : WaitsNear waiting length lag) {tip : Cursor} {longer : Nat}
    (reaches : tip.height.toNat + 1 = longer) (grown : length ≤ longer) :
    WaitsNear (Ledger.waitingAbove tip waiting) longer 0 := by
  intro height parcel waits
  rcases get?_waitingAbove waits with ⟨before, above⟩
  rcases near height parcel before with ⟨own, _, below⟩
  exact ⟨own, by omega, by omega⟩

theorem performed {picture after : Picture} {kept : WaitingBlocks} {call : LockedCall}
    {answer : Except Fault Answer} (near : WaitsNear waiting picture.chain.length lag)
    (performed : Performed picture waiting call answer kept after)
    (standing : picture.chain ≠ []) :
    WaitsNear kept after.chain.length (lagAfter lag answer) := by
  cases performed with
  | failed => exact near
  | checked found =>
      cases found with
      | started nothing => exact absurd nothing standing
      | trusted => exact near
      | rescanned => exact near
  | appended grown =>
      rw [grown.chain, List.length_append]
      exact near.overtaken
  | built grown =>
      rw [grown.chain, List.length_append]
      exact near.overtaken
  | accepted last became =>
      have reaches := picture.linked.tip_height last
      cases became with
      | compared =>
          rw [lagAfter_of_silent (compareWith_silent _ _)]
          exact near
      | ahead above =>
          rw [lagAfter_of_silent (hold_silent _ _ _ _)]
          exact near.hold _ reaches above
      | extended _ ends grown =>
          apply near.waitingAbove (after.linked.tip_height ends)
          rw [grown.chain, List.length_append]
          exact Nat.le_add_right _ _
      | unlinked => exact near

end WaitsNear

/-- Every event keeps what waits within its lag. -/
theorem Sound.step_waitsNear {session : Session} {picture : Picture} {before : Nat}
    (sound : session.Sound picture) (standing : picture.chain ≠ [])
    (near : WaitsNear session.waiting picture.chain.length before) (event : Event) :
    ∃ after, (session.step event).Sound after ∧ picture.chain <+: after.chain ∧
      WaitsNear (session.step event).waiting after.chain.length
        (session.lag before [event]) := by
  cases event with
  | call call =>
      cases call with
      | locked call =>
          rcases sound.perform_locked call with ⟨_, after, next, performed, grown, _⟩
          exact ⟨after, next, grown, near.performed performed standing⟩
      | free call =>
          rcases sound.perform_free call with ⟨next, waiting, silent⟩
          have same : session.lag before [.call (.free call)] = before :=
            lagAfter_of_silent silent before
          refine ⟨picture, next, List.prefix_refl _, ?_⟩
          rw [same]
          exact waiting ▸ near
  | restart meanwhile =>
      rcases sound.step (.restart meanwhile) with ⟨after, next, grown⟩
      exact ⟨after, next, grown, .empty _ _⟩

/-- After every history, what waits lags behind the tip at most by the blocks
that the node stored on its own since a peer's block last extended the chain,
and there are no more waiting blocks than that leaves room for. -/
theorem waiting_within_lag (path : String) (events : List Event) :
    ∃ tip, cursor.run ((start path).run events).engine =
        (.ok tip, ((start path).run events).engine) ∧
      (∀ height parcel, ((start path).run events).waiting.get? height = some parcel →
        parcel.block.height.toNat = height ∧
          tip.height.toNat + 1 < height + (start path).lag 0 events ∧
          height ≤ tip.height.toNat + farthestAhead) ∧
      ((start path).run events).waiting.entries.length <
        farthestAhead + (start path).lag 0 events := by
  have room : 0 < farthestAhead := by decide
  have begins : ∀ picture : Picture, picture.chain = [Block.genesis] →
      WaitsNear ((start path).run []).waiting picture.chain.length ((start path).lag 0 []) :=
    fun _ _ => .empty _ _
  have next : ∀ {past : List Event} {picture : Picture} (event : Event),
      ((start path).run past).Sound picture → picture.chain ≠ [] →
      WaitsNear ((start path).run past).waiting picture.chain.length
        ((start path).lag 0 past) →
      ∃ after, ((start path).run (past ++ [event])).Sound after ∧
        picture.chain <+: after.chain ∧
        WaitsNear ((start path).run (past ++ [event])).waiting after.chain.length
          ((start path).lag 0 (past ++ [event])) := by
    intro past picture event sound standing near
    rw [lag_append, run_append]
    exact sound.step_waitsNear standing near event
  rcases run_start_keeps path begins next events with ⟨picture, tip, sound, last, near⟩
  have length := picture.linked.tip_height last
  refine ⟨tip, sound.depicts.run_cursor sound.isOpen (sound.settled.trans last), ?_, ?_⟩
  · intro height parcel waits
    rcases near height parcel waits with ⟨own, above, below⟩
    exact ⟨own, by omega, by omega⟩
  · have within : ∀ height parcel, ((start path).run events).waiting.get? height = some parcel →
        picture.chain.length + 1 - (start path).lag 0 events ≤ height ∧
          height < picture.chain.length + farthestAhead := by
      intro height parcel waits
      rcases near height parcel waits with ⟨_, above, below⟩
      exact ⟨by omega, below⟩
    have few := OrderedMap.length_entries_le within
    omega

/-- A block that waits for its predecessor goes on waiting when the node itself
stores the predecessor, although it could now be stored. -/
theorem successor_of_own_block_waits :
    let session := (start "ledger").run
      [.call (.locked (.accept (sampleParcel 2 "second" "first")
          (sampleParcel_fits (by decide) (by decide)))),
        .call (.locked (.append (sampleParcel 1 "first" Block.genesisHash).block
          (sampleParcel_fits (by decide) (by decide)).block))]
    (cursor.run session.engine).1 = .ok ⟨1, "first"⟩ ∧
      session.waiting.get? 2 = some (sampleParcel 2 "second" "first") ∧
      Cursor.ExtendedBy ⟨1, "first"⟩ (sampleParcel 2 "second" "first").block := by
  refine ⟨?_, ?_, ?_⟩
  · cbv
  · rfl
  · decide

end Session

end LedgerNode
