import LedgerNode.Proofs.Ledger.Extension

namespace LedgerNode

/-!
# What the check of a ledger finds

In a picture the blocks form a chain, the confirmed transactions belong to it,
and the cursor is at the tip or one block before it.  So a check never fails.
It starts a chain if there is none, trusts a cursor at the tip, and moves a
cursor that is behind.  A cursor that is behind is never trusted, because the
blocks are one more than it tells.
-/

namespace Ledger

open StoreAction (Returns)

/-! ## Looking at cursor, transactions and blocks -/

/-- The cursor of the contents, if there is one. -/
def cursorIn (contents : Contents) : Except Fault (Option Cursor) :=
  match RecordStore.cursors.find StoreKey.cursor contents with
  | .ok cursor => .ok (some cursor)
  | .error (.notFound _) => .ok none
  | .error fault => .error fault

theorem storedCursor_eq_reading : storedCursor = StoreAction.reading cursorIn := by
  rw [storedCursor, cursor, RecordStore.get_eq_reading]
  apply congrArg Procedure.read
  funext seen
  cases seen with
  | none => rfl
  | some contents =>
      change Procedure.bind (Procedure.bind (.done
        (RecordStore.cursors.find StoreKey.cursor contents)) _) _ =
        Procedure.done (cursorIn contents)
      unfold cursorIn
      cases RecordStore.cursors.find StoreKey.cursor contents with
      | ok cursor => rfl
      | error fault => cases fault <;> rfl

theorem Picture.Depicts.cursorIn {picture : Picture} {contents : Contents}
    (depicts : picture.Depicts contents) : cursorIn contents = .ok picture.cursor := by
  unfold Ledger.cursorIn
  cases stored : picture.cursor with
  | none =>
      have seen : Shows picture.chain none contents := stored ▸ depicts
      rw [seen.find_cursor_none]
  | some tip =>
      have seen : Shows picture.chain (some tip) contents := stored ▸ depicts
      rw [seen.find_cursor (Picture.cursor_fits stored)]

theorem storedCursor_meets (picture : Picture) :
    storedCursor.Meets holder (Returns fun cursor after =>
      cursor = picture.cursor ∧ after = picture) picture := by
  rw [storedCursor_eq_reading]
  apply StoreAction.meets_reading
  rintro later contents rfl shown
  rw [Picture.Depicts.cursorIn shown]
  exact ⟨rfl, rfl⟩

/-- Transactions of the chain are no orphans. -/
theorem findOrphan_meets {picture : Picture} {transactions : List Transaction}
    (below : ∀ transaction ∈ transactions, ConfirmedBelow picture.chain.length transaction) :
    (findOrphan transactions).Meets holder (Returns fun _ after => after = picture)
      picture := by
  induction transactions with
  | nil => rfl
  | cons transaction rest ih =>
      rcases List.forall_mem_cons.mp below with ⟨head, tail⟩
      rw [findOrphan, RecordStore.has_eq_reading]
      apply holder_reading_bind
      intro contents shown
      have stored := (shown.contains_block picture.linked transaction.blockHeight).mpr head.below
      dsimp only
      rw [if_pos stored]
      exact ih tail

/-- All blocks and transactions of a picture pass the check. -/
theorem verify_meets {picture : Picture} (short : picture.chain.length ≤ 10 ^ 16) :
    verify.Meets holder (Returns fun tip after =>
      tip = Chain.tip picture.chain ∧ after = picture) picture := by
  rw [verify, RecordStore.values_eq_reading]
  apply holder_reading_bind
  intro contents shown
  have sound : Chain.verify picture.chain = .ok (Chain.tip picture.chain) := picture.linked
  rw [shown.read_blocks picture.linked picture.fits short]
  simp only [Except.map, RecordStore.map_snd_keyed, sound]
  change StoreAction.Meets holder _ (RecordStore.confirmed.values >>= _) picture
  rw [RecordStore.values_eq_reading]
  apply holder_reading_bind
  intro current shows
  rcases shows.read_confirmed with ⟨transactions, below, read⟩
  rw [read]
  simp only [Except.map, RecordStore.map_snd_keyed]
  apply StoreAction.Meets.bind_returns (findOrphan_meets below)
  rintro _ after rfl
  exact ⟨rfl, rfl⟩

/-- An inspection reports the tip of the chain and the cursor. -/
theorem inspect_meets {picture : Picture} (short : picture.chain.length ≤ 10 ^ 16) :
    inspect.Meets holder (Returns fun report after =>
      report = ⟨Chain.tip picture.chain, picture.cursor⟩ ∧ after = picture) picture := by
  rw [inspect]
  apply StoreAction.Meets.bind_returns (verify_meets short)
  rintro _ _ ⟨rfl, rfl⟩
  apply StoreAction.Meets.bind_returns (storedCursor_meets _)
  rintro _ _ ⟨rfl, rfl⟩
  exact ⟨rfl, rfl⟩

/-! ## The check of a starting node -/

/-- How a check finds a picture and leaves it. -/
inductive Checked (picture : Picture) : StartOutcome → Picture → Prop where
  | started (nothing : picture.chain = []) {after : Picture}
    (chain : after.chain = [Block.genesis]) (settled : after.Settled)
    (written : after.written = picture.written ++ startEdits) :
    Checked picture (.genesisInitialized Cursor.genesis) after
  | trusted {tip : Cursor} (last : Chain.tip picture.chain = some tip)
    (settled : picture.Settled) :
    Checked picture (.cursorTrusted tip) picture
  | rescanned {tip : Cursor} (last : Chain.tip picture.chain = some tip)
    (stale : ¬ picture.Settled) :
    Checked picture (.rescanned tip) (picture.settle tip last)

namespace Checked

variable {picture after : Picture} {outcome : StartOutcome}

theorem settled (checked : Checked picture outcome after) : after.Settled := by
  cases checked with
  | started _ _ settled => exact settled
  | trusted _ settled => exact settled
  | rescanned last => exact last.symm

/-- The check answers the tip of the chain. -/
theorem last (checked : Checked picture outcome after) :
    Chain.tip after.chain = some outcome.cursor := by
  cases checked with
  | started _ chain =>
      rw [chain]
      rfl
  | trusted last => exact last
  | rescanned last => exact last

/-- The check stores a block only if there is none. -/
theorem chain_eq (checked : Checked picture outcome after) :
    after.chain = if picture.chain = [] then [Block.genesis] else picture.chain := by
  cases checked with
  | started nothing chain => rw [chain, if_pos nothing]
  | trusted last => rw [if_neg (Chain.ne_nil_of_tip last)]
  | rescanned last =>
      rw [if_neg (Chain.ne_nil_of_tip last)]
      rfl

end Checked

theorem rescan_meets {picture : Picture} {tip : Cursor} (stored : Option Cursor)
    (last : Chain.tip picture.chain = some tip) (stale : ¬ picture.Settled)
    (short : picture.chain.length ≤ 10 ^ 16) :
    (rescan stored).Meets holder (Returns (Checked picture)) picture := by
  rw [rescan]
  apply StoreAction.Meets.bind_returns (verify_meets short)
  rintro _ _ ⟨rfl, rfl⟩
  rw [last]
  apply holder_put_cursor last
  exact .rescanned last stale

/-- Where there is no block, there is no confirmed transaction. -/
theorem Shows.count_confirmed {cursor : Option Cursor} {contents : Contents}
    (shows : Shows [] cursor contents) :
    (RecordStore.confirmed.entriesIn contents).length = 0 := by
  rw [List.length_eq_zero_iff]
  apply List.eq_nil_iff_forall_not_mem.mpr
  intro entry member
  rcases shows.confirmed entry member with ⟨transaction, confirmed, _⟩
  exact Nat.not_lt_zero _ confirmed.below

/-- A cursor is at the tip exactly when it counts the blocks. -/
theorem Picture.settled_iff {picture : Picture} {cursor : Cursor}
    (stored : picture.cursor = some cursor) :
    picture.Settled ↔ cursor.height.toNat + 1 = picture.chain.length := by
  constructor
  · intro settled
    exact picture.linked.tip_height (settled.symm.trans stored)
  · intro counts
    rcases picture.near with atTip | before
    · exact atTip
    · rcases List.eq_nil_or_concat picture.chain with nothing | ⟨front, block, same⟩
      · rw [nothing] at counts
        cases counts
      · -- a cursor that is one block behind counts one block less
        rw [List.concat_eq_append] at same
        have last : Chain.tip front = some cursor := by
          rw [← before.symm.trans stored, same, List.dropLast_concat]
        have linked : Chain.Linked (front ++ [block]) := same ▸ picture.linked
        have height := linked.front.tip_height last
        rw [same, List.length_append, List.length_singleton] at counts
        omega

/-- A check starts a chain if there is none, trusts a cursor at the tip, and
rescans otherwise. -/
theorem Sees.check_meets {World : Type} {terms : Terms World} {world : World}
    {picture : Picture} {goal : Except Fault StartOutcome → World → Prop}
    (sees : Sees terms world picture)
    (nothing : picture.chain = [] → picture.Settled →
      (start >>= fun cursor => pure (.genesisInitialized cursor)).Meets terms goal world)
    (trusted : ∀ tip, Chain.tip picture.chain = some tip → picture.Settled →
      goal (.ok (.cursorTrusted tip)) world)
    (stale : ∀ stored tip, Chain.tip picture.chain = some tip → ¬ picture.Settled →
      (rescan stored).Meets terms goal world) :
    check.Meets terms goal world := by
  rw [check, RecordStore.count_eq_reading]
  apply sees.reading_bind
  intro contents shown
  rw [RecordStore.count_eq_reading]
  apply sees.reading_bind
  intro current shows
  rw [storedCursor_eq_reading]
  apply sees.reading_bind
  intro latest depicts
  rw [Picture.Depicts.cursorIn depicts, Shows.count shown]
  dsimp only
  cases last : Chain.tip picture.chain with
  | none =>
      have absent := Chain.tip_eq_none_iff.mp last
      have settled : picture.Settled := by
        rcases picture.near with atTip | before
        · exact atTip
        · rw [Picture.Settled, before, absent]
          rfl
      have none_stored : picture.cursor = none := settled.trans last
      have empty : Shows [] picture.cursor current := absent ▸ shows
      rw [none_stored]
      dsimp only
      rw [if_pos ⟨by rw [absent]; rfl, empty.count_confirmed⟩]
      exact nothing absent settled
  | some tip =>
      cases stored : picture.cursor with
      | none =>
          have behind : ¬ picture.Settled := by
            intro settled
            cases stored.symm.trans (settled.trans last)
          have some_block : ¬ picture.chain.length = 0 := by
            rw [← picture.linked.tip_height last]
            exact Nat.succ_ne_zero _
          dsimp only
          rw [if_neg fun both => some_block both.1]
          exact stale none tip last behind
      | some cursor =>
          dsimp only
          by_cases settled : picture.Settled
          · rw [if_pos ((Picture.settled_iff stored).mp settled)]
            cases stored.symm.trans (settled.trans last)
            exact trusted tip last settled
          · rw [if_neg fun counts => settled ((Picture.settled_iff stored).mpr counts)]
            exact stale _ tip last settled

/-- A check never fails.  To trust a cursor it need not read the blocks. -/
theorem check_meets {picture : Picture}
    (short : picture.Settled ∨ picture.chain.length ≤ 10 ^ 16) :
    check.Meets holder (Returns (Checked picture)) picture := by
  apply (holder_sees picture).check_meets
  · intro nothing settled
    apply StoreAction.Meets.bind_returns (start_meets settled nothing)
    rintro _ after ⟨rfl, chain, final, written⟩
    exact .started nothing chain final written
  · intro tip last settled
    exact .trusted last settled
  · intro stored tip last stale
    exact rescan_meets stored last stale (short.resolve_left stale)

/-! ## Chains of any length

The blocks of a chain with more than sixteen digits are not listed in their
order, so a check of them may fail.  If it does not, all that it did was to
write a cursor. -/

theorem findOrphan_alone (transactions : List Transaction) (contents : Contents) :
    (findOrphan transactions).Meets alone (fun _ after => after = contents) contents := by
  induction transactions with
  | nil => rfl
  | cons transaction rest ih =>
      rw [findOrphan, RecordStore.has_eq_reading]
      apply StoreAction.alone_reading_bind
      dsimp only
      split
      · exact ih
      · rfl

theorem verify_alone (contents : Contents) :
    verify.Meets alone (fun _ after => after = contents) contents := by
  rw [verify, RecordStore.values_eq_reading]
  apply StoreAction.alone_reading_bind
  split
  next blocks _ =>
    cases Chain.verify blocks with
    | error defect => rfl
    | ok tip =>
        change StoreAction.Meets alone _ (RecordStore.confirmed.values >>= _) contents
        rw [RecordStore.values_eq_reading]
        apply StoreAction.alone_reading_bind
        split
        next transactions _ =>
          apply StoreAction.Meets.bind
          apply (findOrphan_alone transactions contents).imp
          rintro outcome after rfl
          cases outcome <;> rfl
        next => rfl
  next => rfl

/-- The check ends with a rescan, or it fails. -/
def RescanOnly (before : Contents) (outcome : Except Fault StartOutcome)
    (after : Contents) : Prop :=
  ∀ found, outcome = .ok found → ∃ tip, found = .rescanned tip ∧
    after = Edit.apply before (RecordStore.cursors.putEdit StoreKey.cursor tip)

theorem rescan_alone (stored : Option Cursor) (contents : Contents) :
    (rescan stored).Meets alone (RescanOnly contents) contents := by
  rw [rescan]
  apply StoreAction.Meets.bind
  apply (verify_alone contents).imp
  rintro outcome after rfl
  have failed : ∀ fault : Fault, RescanOnly after (.error fault) after := by
    intro fault found same
    cases same
  cases outcome with
  | error fault => exact failed fault
  | ok verified =>
      cases verified with
      | none => exact failed _
      | some tip =>
          dsimp only
          rw [RecordStore.put]
          apply StoreAction.alone_write_bind
          intro found same
          cases same
          exact ⟨tip, rfl, rfl⟩

/-- A cursor that is behind is never trusted, however long the chain is. -/
theorem check_alone_of_stale {picture : Picture} {contents : Contents}
    (depicts : picture.Depicts contents) (stale : ¬ picture.Settled) :
    check.Meets alone (RescanOnly contents) contents := by
  have sees : Sees alone contents picture := by
    rintro _ _ rfl rfl
    exact ⟨rfl, depicts⟩
  apply sees.check_meets
  · intro _ settled
    exact absurd settled stale
  · intro _ _ settled
    exact absurd settled stale
  · intro stored _ _ _
    exact rescan_alone stored contents

end Ledger

end LedgerNode
