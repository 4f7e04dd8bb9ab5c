import LedgerNode.Proofs.Ledger.Extension

namespace LedgerNode

/-!
# What peers can do to a ledger

A block of a peer is compared with the one stored at its height, or waits, or
extends the chain together with what waited behind it, or is rejected.  These
are all the ways.  Whatever it is, the chain only grows.

Transactions of peers are stored by guests, who leave every picture alone.
-/

namespace Ledger

open StoreAction (Returns)

/-! ## Waiting blocks -/

/-- Waiting blocks that are stored extend the chain one after another. -/
theorem follows_linkedTo (tip : Cursor) (entries : List (Nat × WaitingBlock)) :
    Follows tip (linkedTo tip entries) := by
  induction entries generalizing tip with
  | nil => trivial
  | cons entry rest ih =>
      rcases entry with ⟨height, next⟩
      rw [linkedTo]
      by_cases stale : height ≤ tip.height.toNat
      · rw [if_pos stale]
        exact ih tip
      · rw [if_neg stale]
        by_cases links : height = tip.height.toNat + 1 ∧ tip.ExtendedBy next.block
        · rw [if_pos links]
          exact ⟨links.2, ih _⟩
        · rw [if_neg links]
          trivial

theorem mem_linkedTo {tip : Cursor} {entries : List (Nat × WaitingBlock)}
    {parcel : WaitingBlock} (member : parcel ∈ linkedTo tip entries) :
    ∃ height, (height, parcel) ∈ entries := by
  induction entries generalizing tip with
  | nil => cases member
  | cons entry rest ih =>
      rcases entry with ⟨height, next⟩
      rw [linkedTo] at member
      by_cases stale : height ≤ tip.height.toNat
      · rw [if_pos stale] at member
        rcases ih member with ⟨found, inside⟩
        exact ⟨found, List.mem_cons_of_mem _ inside⟩
      · rw [if_neg stale] at member
        by_cases links : height = tip.height.toNat + 1 ∧ tip.ExtendedBy next.block
        · rw [if_pos links] at member
          cases member with
          | head => exact ⟨height, List.mem_cons_self⟩
          | tail _ further =>
              rcases ih further with ⟨found, inside⟩
              exact ⟨found, List.mem_cons_of_mem _ inside⟩
        · rw [if_neg links] at member
          cases member

/-- The blocks that wait above a cursor. -/
def waitingAbove (tip : Cursor) (waiting : WaitingBlocks) : WaitingBlocks :=
  waiting.filter fun height _ => tip.height.toNat + 1 < height

theorem fit_waitingAbove {waiting : WaitingBlocks} (fits : waiting.Fit) (tip : Cursor) :
    (waitingAbove tip waiting).Fit := by
  intro entry member
  exact fits entry (List.mem_filter.mp member).1

theorem get?_waitingAbove {tip : Cursor} {waiting : WaitingBlocks} {height : Nat}
    {parcel : WaitingBlock} (waits : (waitingAbove tip waiting).get? height = some parcel) :
    waiting.get? height = some parcel ∧ tip.height.toNat + 1 < height := by
  rw [waitingAbove, OrderedMap.get?_filter, Option.filter_eq_some_iff] at waits
  exact ⟨waits.1, of_decide_eq_true waits.2⟩

theorem Picture.ExtendedBy.height_le {before after : Picture} {parcels : List WaitingBlock}
    (extended : before.ExtendedBy parcels after) {tip reached : Cursor}
    (first : Chain.tip before.chain = some tip) (last : Chain.tip after.chain = some reached) :
    tip.height.toNat ≤ reached.height.toNat := by
  have short := before.linked.tip_height first
  have long := after.linked.tip_height last
  rw [extended.chain, List.length_append] at long
  omega

/-- Waiting blocks that follow the tip are stored.  What waits above them goes
on waiting. -/
theorem commitWaiting_meets (picture : Picture) {parcels : List WaitingBlock} {tip : Cursor}
    {waiting : WaitingBlocks} (settled : picture.Settled)
    (last : Chain.tip picture.chain = some tip) (follows : Follows tip parcels)
    (fits : ∀ parcel ∈ parcels, parcel.Fits) :
    (commitWaiting parcels tip).Meets holder (LedgerAction.Returns fun reached kept after =>
      Chain.tip after.chain = some reached ∧ picture.ExtendedBy parcels after ∧
        ∀ height, reached.height.toNat < height → kept.get? height = waiting.get? height)
      waiting picture := by
  induction parcels generalizing tip waiting picture with
  | nil => exact ⟨last, .refl settled, fun _ _ => rfl⟩
  | cons next rest ih =>
      rcases List.forall_mem_cons.mp fits with ⟨head, tail⟩
      rw [commitWaiting]
      apply LedgerAction.meets_modify_bind
      apply LedgerAction.meets_ofStore_bind_returns
        (commit_meets settled last follows.1 head)
      rintro _ stored ⟨rfl, one⟩
      apply (ih stored one.settled one.tip_singleton follows.2 tail).weaken
      rintro reached kept after ⟨ends, others, same⟩
      refine ⟨ends, one.trans others, ?_⟩
      intro height above
      have passed : next.block.height.toNat ≤ reached.height.toNat :=
        others.height_le one.tip_singleton ends
      rw [same height above]
      exact OrderedMap.get?_erase_of_ne _ (by omega)

/-- A block that extends the chain is stored with everything that waited
behind it.  What waits directly after the new tip is dropped. -/
theorem extend_meets {parcel : WaitingBlock} {tip : Cursor} {picture : Picture}
    {waiting : WaitingBlocks} (settled : picture.Settled)
    (last : Chain.tip picture.chain = some tip) (follows : tip.ExtendedBy parcel.block)
    (fits : parcel.Fits) (others : waiting.Fit) :
    (extend parcel.block parcel.transactions).Meets holder
      (LedgerAction.Returns fun reached kept after =>
        Chain.tip after.chain = some reached ∧
          picture.ExtendedBy (parcel :: linkedTo (.ofBlock parcel.block) waiting.entries) after ∧
          kept = waitingAbove reached waiting)
      waiting picture := by
  rw [extend]
  apply LedgerAction.meets_ofStore_bind_returns (commit_meets settled last follows fits)
  rintro _ stored ⟨rfl, one⟩
  apply LedgerAction.meets_get_bind
  have fitting : ∀ next ∈ linkedTo (.ofBlock parcel.block) waiting.entries, next.Fits := by
    intro next member
    rcases mem_linkedTo member with ⟨height, inside⟩
    exact others _ inside
  apply LedgerAction.Meets.bind_returns (commitWaiting_meets stored one.settled
    one.tip_singleton (follows_linkedTo _ waiting.entries) fitting)
  rintro reached kept after ⟨ends, more, same⟩
  refine ⟨ends, one.trans more, ?_⟩
  apply OrderedMap.ext_get?
  intro height
  rw [waitingAbove, OrderedMap.get?_filter, OrderedMap.get?_filter]
  by_cases above : reached.height.toNat + 1 < height
  · rw [same height (by omega)]
  · cases kept.get? height <;> cases waiting.get? height <;> simp [Option.filter, above]

/-! ## Blocks of peers -/

/-- What becomes of a peer's block, of the waiting blocks and of the picture. -/
inductive Accepted (picture : Picture) (tip : Cursor) (waiting : WaitingBlocks)
    (parcel : WaitingBlock) : Acceptance → WaitingBlocks → Picture → Prop where
  /-- A block is stored at this height. -/
  | compared (inside : parcel.block.height.toNat < picture.chain.length) :
    Accepted picture tip waiting parcel
      (compareWith picture.chain[parcel.block.height.toNat] parcel.block) waiting picture
  /-- The block is ahead of the chain. -/
  | ahead (above : tip.height.toNat + 1 < parcel.block.height.toNat) :
    Accepted picture tip waiting parcel
      (hold tip parcel.block parcel.transactions waiting).1
      (hold tip parcel.block parcel.transactions waiting).2 picture
  /-- The block extends the chain. -/
  | extended (follows : tip.ExtendedBy parcel.block) {reached : Cursor} {after : Picture}
    (last : Chain.tip after.chain = some reached)
    (grown : picture.ExtendedBy
      (parcel :: linkedTo (.ofBlock parcel.block) waiting.entries) after) :
    Accepted picture tip waiting parcel (.extended reached) (waitingAbove reached waiting) after
  /-- The block is the next one in height but names another predecessor. -/
  | unlinked (next : parcel.block.height.toNat = tip.height.toNat + 1)
    (separate : parcel.block.previousHash ≠ tip.hash) :
    Accepted picture tip waiting parcel .rejected waiting picture

theorem compareWith_self (block : Block) : compareWith block block = .duplicate :=
  if_pos rfl

theorem compareWith_of_same {existing block : Block} (same : existing.hash = block.hash) :
    compareWith existing block = .duplicate := if_pos same

theorem compareWith_of_other {existing block : Block} (other : existing.hash ≠ block.hash) :
    compareWith existing block = .conflicting existing.hash := if_neg other

/-- A block that is near enough waits, or is compared with the one that waits at
its height. -/
theorem hold_eq {tip : Cursor} {waiting : WaitingBlocks} {parcel : WaitingBlock}
    (near : parcel.block.height.toNat ≤ tip.height.toNat + farthestAhead) :
    hold tip parcel.block parcel.transactions waiting =
      match waiting.get? parcel.block.height.toNat with
      | some other => (compareWith other.block parcel.block, waiting)
      | none => (.held, waiting.insert parcel.block.height.toNat parcel) :=
  if_neg (Nat.not_lt.mpr near)

theorem fit_hold {waiting : WaitingBlocks} (others : waiting.Fit)
    {parcel : WaitingBlock} (fits : parcel.Fits) (tip : Cursor) :
    (Ledger.hold tip parcel.block parcel.transactions waiting).2.Fit := by
  rw [Ledger.hold]
  split
  · exact others
  · split
    · exact others
    · intro entry member
      rcases OrderedMap.mem_place member with here | there
      · rw [here]
        exact fits
      · exact others entry there

/-- What waits afterwards waited before, or is the block, which is not too far
ahead. -/
theorem get?_hold {tip : Cursor} {waiting : WaitingBlocks} {block : Block}
    {transactions : List Transaction} {height : Nat} {parcel : WaitingBlock}
    (waits : (Ledger.hold tip block transactions waiting).2.get? height = some parcel) :
    waiting.get? height = some parcel ∨
      (height = block.height.toNat ∧ height ≤ tip.height.toNat + farthestAhead) ∧
        parcel = ⟨block, transactions⟩ := by
  rw [Ledger.hold] at waits
  split at waits
  next => exact .inl waits
  next near =>
    split at waits
    next => exact .inl waits
    next =>
      rw [OrderedMap.get?_insert] at waits
      split at waits
      next here =>
        cases waits
        exact .inr ⟨⟨here, here ▸ Nat.le_of_not_lt near⟩, rfl⟩
      next => exact .inl waits

namespace Accepted

variable {picture after : Picture} {tip : Cursor} {waiting kept : WaitingBlocks}
  {parcel : WaitingBlock} {answer : Acceptance}

theorem settled (accepted : Accepted picture tip waiting parcel answer kept after)
    (settled : picture.Settled) : after.Settled := by
  cases accepted with
  | compared => exact settled
  | ahead => exact settled
  | extended _ _ grown => exact grown.settled
  | unlinked => exact settled

theorem fit (accepted : Accepted picture tip waiting parcel answer kept after)
    (fits : parcel.Fits) (others : waiting.Fit) : kept.Fit := by
  cases accepted with
  | compared => exact others
  | ahead => exact fit_hold others fits tip
  | extended => exact fit_waitingAbove others _
  | unlinked => exact others

/-- A peer's block extends the chain by commits of itself and of blocks that
waited, or by none. -/
theorem extendedBy (accepted : Accepted picture tip waiting parcel answer kept after)
    (settled : picture.Settled) :
    ∃ parcels, picture.ExtendedBy parcels after ∧ ∀ other ∈ parcels,
      other = parcel ∨ ∃ height, waiting.get? height = some other := by
  cases accepted with
  | compared => exact ⟨[], .refl settled, List.forall_mem_nil _⟩
  | ahead => exact ⟨[], .refl settled, List.forall_mem_nil _⟩
  | extended _ _ grown =>
      refine ⟨_, grown, List.forall_mem_cons.mpr ⟨.inl rfl, fun other member => ?_⟩⟩
      rcases mem_linkedTo member with ⟨height, waits⟩
      exact .inr ⟨height, OrderedMap.mem_entries_iff.mp waits⟩
  | unlinked => exact ⟨[], .refl settled, List.forall_mem_nil _⟩

end Accepted

theorem accept_meets {parcel : WaitingBlock} {picture : Picture} {waiting : WaitingBlocks}
    (settled : picture.Settled) (fits : parcel.Fits) (others : waiting.Fit) :
    (accept parcel.block parcel.transactions).Meets holder (fun outcome kept after =>
      match outcome with
      | .ok answer => ∃ tip, Chain.tip picture.chain = some tip ∧
          Accepted picture tip waiting parcel answer kept after
      | .error _ => picture.chain = [] ∧ kept = waiting ∧ after = picture)
      waiting picture := by
  rw [accept]
  apply LedgerAction.meets_ofStore_bind
  apply cursor_meets settled
  · intro nothing
    exact ⟨nothing, rfl, rfl⟩
  · intro tip last
    have length := picture.linked.tip_height last
    dsimp only
    by_cases stored : parcel.block.height ≤ tip.height
    · rw [if_pos stored]
      have inside : parcel.block.height.toNat < picture.chain.length := by
        have order := UInt64.le_iff_toNat_le.mp stored
        omega
      apply LedgerAction.meets_ofStore_bind
      apply block_meets inside
      exact ⟨tip, last, .compared inside⟩
    · rw [if_neg stored]
      by_cases above : tip.height.toNat + 1 < parcel.block.height.toNat
      · rw [if_pos above]
        apply LedgerAction.meets_modifyGet
        exact ⟨tip, last, .ahead above⟩
      · rw [if_neg above]
        by_cases follows : tip.ExtendedBy parcel.block
        · rw [if_pos follows]
          apply LedgerAction.Meets.bind_returns
            (extend_meets settled last follows fits others)
          rintro reached kept after ⟨ends, grown, rfl⟩
          exact ⟨tip, last, .extended follows ends grown⟩
        · rw [if_neg follows]
          have next : parcel.block.height.toNat = tip.height.toNat + 1 := by
            have order := mt UInt64.le_iff_toNat_le.mpr stored
            omega
          exact ⟨tip, last, .unlinked next fun links => follows ⟨next, links⟩⟩

/-! ## Transactions of peers -/

theorem addPending_meets (transaction : Transaction) (picture : Picture) :
    (addPending transaction).Meets guest (Returns fun _ _ => True) picture := by
  rw [addPending, RecordStore.put]
  apply StoreAction.meets_write
  intro later grown
  refine ⟨later, rfl, ?_, trivial⟩
  intro contents shown
  exact shown.put_pending _ transaction

theorem addConfirmed_meets {transaction : Transaction} (fits : transaction.Fits)
    (positive : 0 < transaction.blockHeight.toNat) (picture : Picture) :
    (addConfirmed transaction).Meets guest (Returns fun _ _ => True) picture := by
  rw [addConfirmed, RecordStore.has_eq_reading]
  apply StoreAction.meets_reading_bind
  intro seen contents grown shown
  dsimp only
  cases stored : contents.contains
      (RecordStore.blocks.fullKey (StoreKey.block transaction.blockHeight)) with
  | false => trivial
  | true =>
      have inside := (shown.contains_block seen.linked _).mp stored
      rw [if_pos rfl, RecordStore.put]
      apply StoreAction.meets_write_bind
      intro later further
      refine ⟨later, rfl, ?_, trivial⟩
      intro current shows
      -- the block is still stored, because the chain only grew since it was seen
      exact shows.put_confirmed ⟨fits, positive, Nat.lt_of_lt_of_le inside further.length_le⟩

/-- A transaction that is not pending has a block above genesis. -/
theorem positive_of_confirmed {transaction : Transaction}
    (confirmed : transaction.isPending = false) : 0 < transaction.blockHeight.toNat := by
  apply Nat.pos_of_ne_zero
  intro zero
  have same : transaction.blockHeight = 0 := UInt64.toNat_inj.mp zero
  rw [Transaction.isPending, same] at confirmed
  cases confirmed

theorem addTransaction_meets {transaction : Transaction} (fits : transaction.Fits)
    (picture : Picture) :
    (addTransaction transaction).Meets guest (Returns fun _ _ => True) picture := by
  rw [addTransaction]
  cases pending : transaction.isPending with
  | true =>
      apply StoreAction.Meets.bind_returns (addPending_meets transaction picture)
      intro _ _ _
      trivial
  | false =>
      exact addConfirmed_meets fits (positive_of_confirmed pending) picture

/-- Transactions of a peer are stored without moving the chain or the cursor. -/
theorem acceptTransactions_meets {transactions : List Transaction}
    (fits : ∀ transaction ∈ transactions, transaction.Fits) (picture : Picture) :
    (acceptTransactions transactions).Meets guest (Returns fun _ _ => True) picture := by
  induction transactions generalizing picture with
  | nil => trivial
  | cons transaction rest ih =>
      rcases List.forall_mem_cons.mp fits with ⟨head, tail⟩
      rw [acceptTransactions]
      apply StoreAction.Meets.bind_returns (addTransaction_meets head picture)
      intro stored after _
      apply StoreAction.Meets.bind_returns (ih tail after)
      intro others last _
      trivial

end Ledger

end LedgerNode
