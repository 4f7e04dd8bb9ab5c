import LedgerNode.Proofs.Ledger.Inspection
import LedgerNode.Proofs.Ledger.Reading

namespace LedgerNode

/-!
# A check fails without a trace, or settles the store

Again nothing is assumed about the store; keys and values may be any bytes, and
the cursor need not be readable.  A check that fails has written nothing.  A
check that answers a cursor leaves the store such that the next check trusts
this cursor and has nothing to do.

The first check may compare the cursor with the number of stored keys, or read
and verify all blocks, or start a chain.  The second only compares.  So the
cursor that a verified chain yields must count the keys: each key was read as
one block, and the last of them stands one below their number.
-/

namespace Ledger

/-- What a check leaves behind that has answered. -/
structure Concluded (engine : Engine) (outcome : StartOutcome) : Prop where
  stored : Ledger.cursor.run engine = (.ok outcome.cursor, engine)
  /-- The next check trusts the cursor. -/
  again : check.run engine = (.ok (.cursorTrusted outcome.cursor), engine)
  /-- The next check writes nothing. -/
  silent : check.log engine = []
  /-- Unless the cursor was taken on trust, it is at the end of a chain that
  passes. -/
  inspected : (∀ cursor, outcome ≠ .cursorTrusted cursor) →
    inspect.run engine = (.ok ⟨some outcome.cursor, some outcome.cursor⟩, engine)

/-! ## Two stores with the same records -/

/-- Two open stores have the same blocks and the same confirmed transactions,
under the same keys. -/
structure SameRecords (first second : Engine) : Prop where
  firstOpen : first.isOpen = true
  secondOpen : second.isOpen = true
  blocks : RecordStore.blocks.part first.contents = RecordStore.blocks.part second.contents
  confirmed : RecordStore.confirmed.part first.contents =
    RecordStore.confirmed.part second.contents

namespace SameRecords

variable {first second : Engine}

theorem findOrphan_eq (same : SameRecords first second) (transactions : List Transaction) :
    ((findOrphan transactions).run first).1 = ((findOrphan transactions).run second).1 := by
  induction transactions with
  | nil => rfl
  | cons transaction rest ih =>
      rw [findOrphan]
      apply StoreAction.ReadOnly.bind_congr
      · rw [RecordStore.has_eq_reading]
        exact StoreAction.readOnly_reading _
      · exact RecordStore.has_congr same.firstOpen same.secondOpen same.blocks _
      · intro stored
        cases stored with
        | false => rfl
        | true => exact ih

/-- Verifying does not look at the cursor. -/
theorem verify_eq (same : SameRecords first second) :
    (verify.run first).1 = (verify.run second).1 := by
  apply (RecordStore.values_readOnly _).bind_congr
  · exact RecordStore.values_congr same.firstOpen same.secondOpen same.blocks
  intro blocks
  apply (StoreAction.readOnly_ofExcept _).bind_congr
  · rfl
  intro tip
  apply (RecordStore.values_readOnly _).bind_congr
  · exact RecordStore.values_congr same.firstOpen same.secondOpen same.confirmed
  intro transactions
  apply (findOrphan_readOnly _).bind_congr (same.findOrphan_eq transactions)
  intro _
  rfl

end SameRecords

/-- Only the cursor changes when the cursor is moved. -/
theorem sameRecords_put_cursor {engine : Engine} (isOpen : engine.isOpen = true)
    (tip : Cursor) :
    SameRecords (engine.edited [RecordStore.cursors.putEdit StoreKey.cursor tip]) engine where
  firstOpen := isOpen
  secondOpen := isOpen
  blocks := blocks_apart_cursors.part_put _ _ _
  confirmed := cursors_apart_confirmed.symm.part_put _ _ _

/-! ## What the next check finds -/

variable {engine : Engine}

theorem run_cursor_of_stored {tip : Cursor}
    (readable : (storedCursor.run engine).1 = .ok (some tip)) :
    Ledger.cursor.run engine = (.ok tip, engine) := by
  have isOpen := isOpen_of_storedCursor readable
  rw [storedCursor_eq_reading, StoreAction.run_reading isOpen] at readable
  rw [Ledger.cursor, RecordStore.get_eq_reading, StoreAction.run_reading isOpen]
  unfold cursorIn at readable
  split at readable
  next cursor found =>
    cases readable
    rw [found]
  next => cases readable
  next => cases readable

/-- The end of a chain that passes counts the keys of the block store. -/
theorem counts_of_verify {tip : Cursor} (isOpen : engine.isOpen = true)
    (verifies : (verify.run engine).1 = .ok (some tip)) :
    tip.height.toNat + 1 = (RecordStore.blocks.entriesIn engine.contents).length := by
  rcases verified_of_ok verifies with ⟨blocks, transactions, verified⟩
  rw [verified.linked.tip_height verified.tip]
  exact (RecordStore.values_yields Block.codec_yields isOpen verified.readBlocks).1

/-- A cursor that counts the blocks is trusted. -/
theorem check_of_counts {tip : Cursor}
    (readable : (storedCursor.run engine).1 = .ok (some tip))
    (counts : tip.height.toNat + 1 =
      (RecordStore.blocks.entriesIn engine.contents).length) :
    check.run engine = (.ok (.cursorTrusted tip), engine) ∧ check.log engine = [] := by
  have proceeds := check_eq_proceed readable
  rw [proceeds.1, proceeds.2, proceed, if_pos counts]
  exact ⟨rfl, rfl⟩

/-- A check that cannot read the cursor stops before it writes. -/
theorem check_of_unreadable {fault : Fault}
    (unreadable : (storedCursor.run engine).1 = .error fault) :
    (∃ fault, check.run engine = (.error fault, engine)) ∧ check.log engine = [] := by
  cases isOpen : engine.isOpen with
  | false =>
      have refused : (RecordStore.blocks.count.run engine).1 = .error .storeClosed := by
        rw [RecordStore.count_eq_reading, StoreAction.run_reading_of_closed isOpen]
      have stops : check.run engine = _ ∧ check.log engine = _ :=
        (RecordStore.count_readOnly _).bind_of_error refused _
      exact ⟨⟨_, stops.1⟩, stops.2⟩
  | true =>
      have counted := check_eq_of_open isOpen
      have stops := storedCursor_readOnly.bind_of_error unreadable
        (proceed (RecordStore.blocks.entriesIn engine.contents).length
          (RecordStore.confirmed.entriesIn engine.contents).length)
      exact ⟨⟨_, counted.1.trans stops.1⟩, counted.2.trans stops.2⟩

/-! ## The three answers -/

theorem concluded_of_counts {tip : Cursor}
    (readable : (storedCursor.run engine).1 = .ok (some tip))
    (counts : tip.height.toNat + 1 =
      (RecordStore.blocks.entriesIn engine.contents).length) :
    Concluded engine (.cursorTrusted tip) where
  stored := run_cursor_of_stored readable
  again := (check_of_counts readable counts).1
  silent := (check_of_counts readable counts).2
  inspected untrusted := absurd rfl (untrusted tip)

theorem concluded_of_inspect {outcome : StartOutcome}
    (reports : (inspect.run engine).1 = .ok ⟨some outcome.cursor, some outcome.cursor⟩) :
    Concluded engine outcome := by
  rcases inspect_eq_ok_iff.mp reports with ⟨verifies, readable⟩
  have counts := counts_of_verify (isOpen_of_storedCursor readable) verifies
  have trusted := check_of_counts readable counts
  refine ⟨run_cursor_of_stored readable, trusted.1, trusted.2, ?_⟩
  intro _
  exact Prod.ext reports (Procedure.ReadOnly.run inspect_readOnly engine)

/-- Without a cursor there is nothing under its key. -/
theorem get?_cursor_of_absent (absent : (storedCursor.run engine).1 = .ok none) :
    engine.contents.get? (RecordStore.cursors.fullKey StoreKey.cursor) = none := by
  have isOpen := isOpen_of_storedCursor absent
  rw [storedCursor_eq_reading, StoreAction.run_reading isOpen] at absent
  unfold cursorIn RecordStore.find at absent
  cases found : engine.contents.get? (RecordStore.cursors.fullKey StoreKey.cursor) with
  | none => rfl
  | some bytes =>
      -- stored bytes are a cursor, or they cannot be decoded; they are not missing
      cases decoded : RecordStore.cursors.codec.decodeFront bytes with
      | ok cursor =>
          simp only [found, RecordStore.readRecord, decoded, Except.mapError] at absent
          cases absent
      | error fault =>
          simp only [found, RecordStore.readRecord, decoded, Except.mapError] at absent
          cases absent

/-- A chain that was started in an empty store is a chain of genesis alone, and
the cursor is there. -/
theorem concluded_of_started {outcome : StartOutcome}
    (absent : (storedCursor.run engine).1 = .ok none)
    (no_blocks : RecordStore.blocks.entriesIn engine.contents = [])
    (no_transactions : RecordStore.confirmed.entriesIn engine.contents = [])
    (answers : (check.run engine).1 = .ok outcome) :
    Concluded (check.run engine).2 outcome := by
  have shows : Picture.empty.Depicts engine.contents := by
    refine ⟨no_blocks ▸ List.Perm.nil, get?_cursor_of_absent absent, ?_⟩
    rw [no_transactions]
    exact List.forall_mem_nil _
  have isOpen := isOpen_of_storedCursor absent
  have settled : Picture.empty.Settled := rfl
  rcases run_holder_returns (check_meets (.inl settled)) isOpen shows with
    ⟨value, edits, after, ran, _, _, depicts, checked⟩
  rw [ran] at answers
  cases answers
  have short : after.chain.length ≤ 10 ^ 16 := by
    rw [checked.chain_eq]
    exact Nat.le_of_ble_eq_true rfl
  have begun : after.Depicts (engine.edited edits).contents := depicts
  have reports := begun.run_inspect isOpen short
  rw [checked.settled, checked.last] at reports
  rw [ran]
  exact concluded_of_inspect (congrArg Prod.fst reports)

theorem concluded_of_moved {tip : Cursor} {stored : Option Cursor}
    (isOpen : engine.isOpen = true)
    (reports : (inspect.run engine).1 = .ok ⟨some tip, stored⟩) (fits : tip.Fits)
    (wrote : check.log engine = [[RecordStore.cursors.putEdit StoreKey.cursor tip]]) :
    Concluded (check.run engine).2 (.rescanned tip) := by
  have after : (check.run engine).2 =
      engine.edited [RecordStore.cursors.putEdit StoreKey.cursor tip] := by
    rw [StoreAction.run_eq_edited isOpen, wrote]
    rfl
  apply concluded_of_inspect
  apply inspect_eq_ok_iff.mpr
  constructor
  · rw [after, (sameRecords_put_cursor isOpen tip).verify_eq]
    exact (inspect_eq_ok_iff.mp reports).1
  · exact storedCursor_of_moved isOpen fits wrote

/-- Whatever bytes are stored under whatever keys: a check that fails has
written nothing, and a check that answers leaves nothing to do for the next
one. -/
theorem check_all_or_nothing (engine : Engine) :
    (∀ fault, (check.run engine).1 = .error fault →
      check.log engine = [] ∧ (check.run engine).2 = engine) ∧
    ∀ outcome, (check.run engine).1 = .ok outcome →
      Concluded (check.run engine).2 outcome := by
  cases readable : (storedCursor.run engine).1 with
  | error fault =>
      rcases check_of_unreadable readable with ⟨⟨fault, stops⟩, silent⟩
      rw [stops]
      exact ⟨fun _ _ => ⟨silent, rfl⟩, nofun⟩
  | ok stored =>
      have isOpen := isOpen_of_storedCursor readable
      have unchanged : check.log engine = [] → (check.run engine).2 = engine := by
        intro silent
        rw [StoreAction.run_eq_edited isOpen, silent]
        rfl
      have finding := check_finding readable
      generalize answered : (check.run engine).1 = answer at finding
      generalize wrote : check.log engine = edits at finding
      cases finding with
      | started absent no_blocks no_transactions =>
          refine ⟨nofun, ?_⟩
          rintro _ ⟨⟩
          exact concluded_of_started (absent ▸ readable) no_blocks no_transactions answered
      | trusted present counts =>
          refine ⟨nofun, ?_⟩
          rintro _ ⟨⟩
          rw [unchanged wrote]
          exact concluded_of_counts (present ▸ readable) counts
      | failed fails => exact ⟨fun _ _ => ⟨rfl, unchanged wrote⟩, nofun⟩
      | moved reports fits =>
          refine ⟨nofun, ?_⟩
          rintro _ ⟨⟩
          exact concluded_of_moved isOpen reports fits wrote
      | dangling reports present => exact ⟨fun _ _ => ⟨rfl, unchanged wrote⟩, nofun⟩

end Ledger

end LedgerNode
