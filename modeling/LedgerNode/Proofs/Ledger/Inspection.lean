import Mathlib
import LedgerNode.Proofs.Ledger.Integrity

namespace LedgerNode

/-!
# An inspection tells what a check will find

A check and an inspection read the same store in different orders, and only
the check may write.  Nothing is assumed about the store here except that its
cursor is absent or can be read: keys and values may be any bytes.

A check that neither starts a chain nor trusts the cursor verifies all blocks
and transactions, as the inspection does, and both end with the same fault or
with the same tip.  One case is not visible in the code.  If there is no block,
the verified chain has no tip, and the check complains about the cursor that
points nowhere.  It must then have read one: without a block every confirmed
transaction is an orphan, so a verified store without blocks is empty, and an
empty store without a cursor becomes a new chain.
-/

namespace Ledger

/-! ## Verifying and inspecting only read -/

theorem findOrphan_readOnly (transactions : List Transaction) :
    (findOrphan transactions).ReadOnly := by
  induction transactions with
  | nil => trivial
  | cons transaction rest ih =>
      rw [findOrphan, RecordStore.has_eq_reading]
      apply StoreAction.ReadOnly.bind (StoreAction.readOnly_reading _)
      intro stored
      cases stored with
      | false => trivial
      | true => exact ih

theorem verify_readOnly : verify.ReadOnly := by
  apply (RecordStore.values_readOnly _).bind
  intro blocks
  apply (StoreAction.readOnly_ofExcept _).bind
  intro tip
  apply (RecordStore.values_readOnly _).bind
  intro transactions
  apply (findOrphan_readOnly transactions).bind
  intro _
  trivial

theorem storedCursor_readOnly : storedCursor.ReadOnly := by
  rw [storedCursor_eq_reading]
  exact StoreAction.readOnly_reading _

theorem inspect_readOnly : inspect.ReadOnly := by
  apply verify_readOnly.bind
  intro tip
  apply storedCursor_readOnly.bind
  intro cursor
  trivial

/-- An inspection reports what verifying answers, and the cursor as it is
stored. -/
theorem inspect_eq_ok_iff {engine : Engine} {report : Report} :
    (inspect.run engine).1 = .ok report ↔
      (verify.run engine).1 = .ok report.tip ∧
        (storedCursor.run engine).1 = .ok report.cursor := by
  constructor
  · intro reports
    rcases verify_readOnly.of_bind reports with ⟨tip, verifies, reading⟩
    rcases storedCursor_readOnly.of_bind reading with ⟨cursor, readable, answered⟩
    cases answered
    exact ⟨verifies, readable⟩
  · rintro ⟨verifies, readable⟩
    have verified : inspect.run engine = _ ∧ _ := verify_readOnly.bind_of_ok verifies _
    have read : _ ∧ _ := storedCursor_readOnly.bind_of_ok readable fun cursor =>
      (return ⟨report.tip, cursor⟩ : StoreAction Report)
    exact congrArg Prod.fst (verified.1.trans read.1)

/-! ## What a verified store holds -/

/-- What verifying has read when it answers a tip. -/
structure Verified (engine : Engine) (tip : Option Cursor) (blocks : List Block)
    (transactions : List Transaction) : Prop where
  tip : Chain.tip blocks = tip
  linked : Chain.Linked blocks
  attached : ((findOrphan transactions).run engine).1 = .ok ()
  readBlocks : (RecordStore.blocks.values.run engine).1 = .ok blocks
  readConfirmed : (RecordStore.confirmed.values.run engine).1 = .ok transactions

theorem verified_of_ok {engine : Engine} {tip : Option Cursor}
    (passed : (verify.run engine).1 = .ok tip) :
    ∃ blocks transactions, Verified engine tip blocks transactions := by
  rcases (RecordStore.values_readOnly _).of_bind passed with ⟨blocks, readBlocks, linking⟩
  rcases (StoreAction.readOnly_ofExcept _).of_bind linking with ⟨last, linked, reading⟩
  rcases (RecordStore.values_readOnly _).of_bind reading with
    ⟨transactions, readConfirmed, searching⟩
  rcases (findOrphan_readOnly _).of_bind searching with ⟨_, attached, answered⟩
  cases answered
  have checked : Chain.verify blocks = .ok tip := by
    cases found : Chain.verify blocks with
    | ok last =>
        rw [found] at linked
        cases linked
        rfl
    | error defect =>
        rw [found] at linked
        cases linked
  refine ⟨blocks, transactions, ?_, Chain.linked_of_verify checked, attached, readBlocks,
    readConfirmed⟩
  rw [Chain.verifyFrom_eq_tip checked, Option.or_none]

namespace Verified

variable {engine : Engine} {tip : Option Cursor} {blocks : List Block}
  {transactions : List Transaction}

/-- A tip that was read can be stored. -/
theorem tip_fits (verified : Verified engine tip blocks transactions)
    (isOpen : engine.isOpen = true) {last : Cursor} (same : tip = some last) : last.Fits := by
  have fits := (RecordStore.values_yields Block.codec_yields isOpen verified.readBlocks).2
  rcases Chain.mem_of_tip (verified.tip.trans same) with ⟨block, member, cursor⟩
  rw [← cursor]
  exact Cursor.fits_ofBlock (fits block member)

/-- Without a tip there is nothing. -/
theorem nothing_stored (verified : Verified engine none blocks transactions)
    (isOpen : engine.isOpen = true) :
    RecordStore.blocks.entriesIn engine.contents = [] ∧
      RecordStore.confirmed.entriesIn engine.contents = [] := by
  have no_blocks := Chain.tip_eq_none_iff.mp verified.tip
  have blockCount :=
    (RecordStore.values_yields Block.codec_yields isOpen verified.readBlocks).1
  rw [no_blocks] at blockCount
  have none_stored := List.length_eq_zero_iff.mp blockCount.symm
  have transactionCount :=
    (RecordStore.values_yields Transaction.codec_yields isOpen verified.readConfirmed).1
  cases transactions with
  | nil => exact ⟨none_stored, List.length_eq_zero_iff.mp transactionCount.symm⟩
  | cons transaction rest =>
      -- the first transaction is an orphan, so the search cannot have passed it
      have missing : engine.contents.contains
          (RecordStore.blocks.fullKey (StoreKey.block transaction.blockHeight)) = false := by
        rw [OrderedMap.contains, ← RecordStore.get?_part_fullKey,
          OrderedMap.get?_eq_none_iff.mpr]
        · rfl
        · rw [← RecordStore.entriesIn_eq, none_stored]
          exact fun _ => List.not_mem_nil
      have passed := verified.attached
      rw [findOrphan, RecordStore.has_eq_reading] at passed
      rcases (StoreAction.readOnly_reading _).of_bind passed with ⟨stored, looked, went⟩
      rw [StoreAction.run_reading isOpen, missing] at looked
      cases looked
      cases went

end Verified

theorem isOpen_of_storedCursor {engine : Engine} {stored : Option Cursor}
    (readable : (storedCursor.run engine).1 = .ok stored) : engine.isOpen = true := by
  cases isOpen : engine.isOpen with
  | true => rfl
  | false =>
      rw [storedCursor_eq_reading, StoreAction.run_reading_of_closed isOpen] at readable
      cases readable

/-! ## The check, branch by branch -/

/-- What a check does after it has counted the records and read the cursor. -/
def proceed (blockCount transactionCount : Nat) : Option Cursor → StoreAction StartOutcome
  | none =>
    if blockCount = 0 ∧ transactionCount = 0 then return .genesisInitialized (← start)
    else rescan none
  | some cursor =>
    if cursor.height.toNat + 1 = blockCount then return .cursorTrusted cursor
    else rescan (some cursor)

variable {engine : Engine} {stored : Option Cursor}

theorem check_eq : check = (do
    let blockCount ← RecordStore.blocks.count
    let transactionCount ← RecordStore.confirmed.count
    proceed blockCount transactionCount (← storedCursor)) := by
  apply congrArg (RecordStore.blocks.count >>= ·)
  funext blockCount
  apply congrArg (RecordStore.confirmed.count >>= ·)
  funext transactionCount
  apply congrArg (storedCursor >>= ·)
  funext cursor
  cases cursor <;> rfl

/-- In an open store the records can be counted. -/
theorem check_eq_of_open (isOpen : engine.isOpen = true) :
    let next := storedCursor >>= proceed
      (RecordStore.blocks.entriesIn engine.contents).length
      (RecordStore.confirmed.entriesIn engine.contents).length
    check.run engine = next.run engine ∧ check.log engine = next.log engine := by
  have count {Record : Type} (store : RecordStore Record) :
      (store.count.run engine).1 = .ok (store.entriesIn engine.contents).length := by
    rw [RecordStore.count_eq_reading, StoreAction.run_reading isOpen]
  have first := (RecordStore.count_readOnly _).bind_of_ok (count RecordStore.blocks)
    fun blockCount => do
      let transactionCount ← RecordStore.confirmed.count
      proceed blockCount transactionCount (← storedCursor)
  have second := (RecordStore.count_readOnly _).bind_of_ok (count RecordStore.confirmed)
    fun transactionCount => do
      proceed (RecordStore.blocks.entriesIn engine.contents).length transactionCount
        (← storedCursor)
  rw [check_eq]
  exact ⟨first.1.trans second.1, first.2.trans second.2⟩

theorem check_eq_proceed (readable : (storedCursor.run engine).1 = .ok stored) :
    let next := proceed (RecordStore.blocks.entriesIn engine.contents).length
      (RecordStore.confirmed.entriesIn engine.contents).length stored
    check.run engine = next.run engine ∧ check.log engine = next.log engine := by
  have counted := check_eq_of_open (isOpen_of_storedCursor readable)
  have third := storedCursor_readOnly.bind_of_ok readable
    (proceed (RecordStore.blocks.entriesIn engine.contents).length
      (RecordStore.confirmed.entriesIn engine.contents).length)
  exact ⟨counted.1.trans third.1, counted.2.trans third.2⟩

/-- An open store takes the two writes that start a chain. -/
theorem start_of_open (isOpen : engine.isOpen = true) :
    let starts : StoreAction StartOutcome := return .genesisInitialized (← start)
    (starts.run engine).1 = .ok (.genesisInitialized Cursor.genesis) ∧
      starts.log engine = startEdits.map fun edit => [edit] := by
  let genesisStored := [RecordStore.blocks.putEdit (StoreKey.block 0) Block.genesis]
  let begun : Engine :=
    { engine with contents := Edit.applyAll engine.contents genesisStored }
  have stillOpen : begun.isOpen = true := isOpen
  constructor
  · change (Procedure.run engine (.write genesisStored _)).1 = _
    rw [Procedure.run, Engine.write_of_open isOpen]
    change (Procedure.run begun (.write _ _)).1 = _
    rw [Procedure.run, Engine.write_of_open stillOpen]
    rfl
  · change Procedure.log engine (.write genesisStored _) = _
    rw [Procedure.log, Engine.write_of_open isOpen]
    change genesisStored :: Procedure.log begun (.write _ _) = _
    rw [Procedure.log, Engine.write_of_open stillOpen]
    rfl

/-- How a check ends that finds a cursor in the store, or none: what it answers
and what it has written. -/
inductive Finding (engine : Engine) (stored : Option Cursor) :
    Except Fault StartOutcome → List (List Edit) → Prop where
  /-- The store was empty, and a chain is started. -/
  | started (absent : stored = none)
    (no_blocks : RecordStore.blocks.entriesIn engine.contents = [])
    (no_transactions : RecordStore.confirmed.entriesIn engine.contents = []) :
    Finding engine stored (.ok (.genesisInitialized Cursor.genesis))
      (startEdits.map fun edit => [edit])
  /-- The cursor counts the blocks. -/
  | trusted {cursor : Cursor} (present : stored = some cursor)
    (counts : cursor.height.toNat + 1 =
      (RecordStore.blocks.entriesIn engine.contents).length) :
    Finding engine stored (.ok (.cursorTrusted cursor)) []
  /-- The blocks and transactions do not pass. -/
  | failed {fault : Fault} (fails : (inspect.run engine).1 = .error fault) :
    Finding engine stored (.error fault) []
  /-- They pass, and the cursor is moved to the end. -/
  | moved {tip : Cursor} (reports : (inspect.run engine).1 = .ok ⟨some tip, stored⟩)
    (fits : tip.Fits) :
    Finding engine stored (.ok (.rescanned tip))
      [[RecordStore.cursors.putEdit StoreKey.cursor tip]]
  /-- There is a cursor, but no block. -/
  | dangling {cursor : Cursor} (reports : (inspect.run engine).1 = .ok ⟨none, stored⟩)
    (present : stored = some cursor) :
    Finding engine stored (.error (.integrity (.emptyLedger cursor.height))) []

theorem rescan_finding (readable : (storedCursor.run engine).1 = .ok stored)
    (filled : stored = none → ¬ (RecordStore.blocks.entriesIn engine.contents = [] ∧
      RecordStore.confirmed.entriesIn engine.contents = [])) :
    Finding engine stored ((rescan stored).run engine).1 ((rescan stored).log engine) := by
  have isOpen := isOpen_of_storedCursor readable
  cases verifies : (verify.run engine).1 with
  | error fault =>
      have inspects : inspect.run engine = _ ∧ _ := verify_readOnly.bind_of_error verifies _
      have rescans : (rescan stored).run engine = _ ∧ (rescan stored).log engine = _ :=
        verify_readOnly.bind_of_error verifies _
      rw [rescans.1, rescans.2]
      exact .failed (congrArg Prod.fst inspects.1)
  | ok tip =>
      rcases verified_of_ok verifies with ⟨blocks, transactions, verified⟩
      have reports : (inspect.run engine).1 = .ok ⟨tip, stored⟩ :=
        inspect_eq_ok_iff.mpr ⟨verifies, readable⟩
      have rescans : (rescan stored).run engine = _ ∧ (rescan stored).log engine = _ :=
        verify_readOnly.bind_of_ok verifies _
      cases tip with
      | some tip =>
          have writes := StoreAction.write_bind_of_open isOpen
            [RecordStore.cursors.putEdit StoreKey.cursor tip] fun _ =>
              (return .rescanned tip : StoreAction StartOutcome)
          have answer : ((rescan stored).run engine).1 = .ok (.rescanned tip) :=
            congrArg Prod.fst (rescans.1.trans writes.1)
          rw [answer, rescans.2.trans writes.2]
          exact .moved reports (verified.tip_fits isOpen rfl)
      | none =>
          rw [rescans.1, rescans.2]
          cases stored with
          | some cursor => exact .dangling reports rfl
          | none => exact absurd (verified.nothing_stored isOpen) (filled rfl)

/-- Every check that finds a cursor, or none, ends in one of five ways. -/
theorem check_finding (readable : (storedCursor.run engine).1 = .ok stored) :
    Finding engine stored (check.run engine).1 (check.log engine) := by
  have isOpen := isOpen_of_storedCursor readable
  have proceeds := check_eq_proceed readable
  rw [proceeds.1, proceeds.2]
  cases stored with
  | none =>
      rw [proceed]
      by_cases empty : (RecordStore.blocks.entriesIn engine.contents).length = 0 ∧
          (RecordStore.confirmed.entriesIn engine.contents).length = 0
      · have starts := start_of_open isOpen
        rw [if_pos empty, starts.1, starts.2]
        exact .started rfl (List.length_eq_zero_iff.mp empty.1)
          (List.length_eq_zero_iff.mp empty.2)
      · rw [if_neg empty]
        apply rescan_finding readable
        rintro _ ⟨no_blocks, no_transactions⟩
        exact empty ⟨List.length_eq_zero_iff.mpr no_blocks,
          List.length_eq_zero_iff.mpr no_transactions⟩
  | some cursor =>
      rw [proceed]
      by_cases counts : cursor.height.toNat + 1 =
          (RecordStore.blocks.entriesIn engine.contents).length
      · rw [if_pos counts]
        exact .trusted rfl counts
      · rw [if_neg counts]
        apply rescan_finding readable
        intro absent
        cases absent

/-- The cursor that a check has moved is read back. -/
theorem storedCursor_of_moved {tip : Cursor} (isOpen : engine.isOpen = true) (fits : tip.Fits)
    (wrote : check.log engine = [[RecordStore.cursors.putEdit StoreKey.cursor tip]]) :
    (storedCursor.run (check.run engine).2).1 = .ok (some tip) := by
  have after := StoreAction.run_eq_edited isOpen check
  have stillOpen : (check.run engine).2.isOpen = true := by
    rw [after]
    exact isOpen
  have found : RecordStore.cursors.find StoreKey.cursor (Edit.apply engine.contents
      (RecordStore.cursors.putEdit StoreKey.cursor tip)) = .ok tip :=
    RecordStore.find_put Cursor.codec_roundTrips _ _ fits
  have seen : cursorIn (Edit.apply engine.contents
      (RecordStore.cursors.putEdit StoreKey.cursor tip)) = .ok (some tip) := by
    unfold cursorIn
    rw [found]
  rw [storedCursor_eq_reading, StoreAction.run_reading stillOpen, after, wrote]
  exact seen

/-! ## Agreement -/

/-- The check decides without looking at the records. -/
def Immediate (outcome : Except Fault StartOutcome) : Prop :=
  ∃ cursor, outcome = .ok (.genesisInitialized cursor) ∨ outcome = .ok (.cursorTrusted cursor)

/-- The check ends as the inspection of the same store has reported. -/
def Foretold (engine : Engine) (stored : Option Cursor) : Prop :=
  match (inspect.run engine).1 with
  | .error fault => (check.run engine).1 = .error fault
  | .ok ⟨some tip, _⟩ => (check.run engine).1 = .ok (.rescanned tip) ∧
      (storedCursor.run (check.run engine).2).1 = .ok (some tip)
  | .ok ⟨none, _⟩ => ∃ cursor, stored = some cursor ∧
      (check.run engine).1 = .error (.integrity (.emptyLedger cursor.height))

/-- What an inspection and a check of the same store have to do with each
other. -/
structure Agreement (engine : Engine) (stored : Option Cursor) : Prop where
  silent : inspect.log engine = [] ∧ (inspect.run engine).2 = engine
  answers : ¬ Immediate (check.run engine).1 → Foretold engine stored
  /-- The check starts a chain in an empty store, or moves the cursor to the end
  of a chain that passed, or writes nothing. -/
  writes : check.log engine = [] ∨
    (check.log engine = startEdits.map (fun edit => [edit]) ∧ stored = none ∧
      RecordStore.blocks.entriesIn engine.contents = [] ∧
      RecordStore.confirmed.entriesIn engine.contents = [] ∧
      (check.run engine).1 = .ok (.genesisInitialized Cursor.genesis)) ∨
    ∃ tip, check.log engine = [[RecordStore.cursors.putEdit StoreKey.cursor tip]] ∧
      (inspect.run engine).1 = .ok ⟨some tip, stored⟩ ∧
      (check.run engine).1 = .ok (.rescanned tip)

/-- Whatever bytes are stored under whatever keys: if the cursor is absent or
can be read, an inspection tells what the check does. -/
theorem inspection_agrees (engine : Engine) (stored : Option Cursor)
    (readable : (storedCursor.run engine).1 = .ok stored) : Agreement engine stored := by
  have isOpen := isOpen_of_storedCursor readable
  have silent : inspect.log engine = [] ∧ (inspect.run engine).2 = engine :=
    ⟨Procedure.ReadOnly.log inspect_readOnly engine,
      Procedure.ReadOnly.run inspect_readOnly engine⟩
  have finding := check_finding readable
  generalize answered : (check.run engine).1 = outcome at finding
  generalize wrote : check.log engine = edits at finding
  cases finding with
  | started absent no_blocks no_transactions =>
      refine ⟨silent, ?_, .inr (.inl ⟨wrote, absent, no_blocks, no_transactions, answered⟩)⟩
      exact absurd ⟨_, .inl answered⟩
  | trusted present counts =>
      refine ⟨silent, ?_, .inl wrote⟩
      exact absurd ⟨_, .inr answered⟩
  | failed fails =>
      refine ⟨silent, ?_, .inl wrote⟩
      intro _
      rw [Foretold, fails]
      exact answered
  | moved reports fits =>
      refine ⟨silent, ?_, .inr (.inr ⟨_, wrote, reports, answered⟩)⟩
      intro _
      rw [Foretold, reports]
      exact ⟨answered, storedCursor_of_moved isOpen fits wrote⟩
  | dangling reports present =>
      refine ⟨silent, ?_, .inl wrote⟩
      intro _
      rw [Foretold, reports]
      exact ⟨_, present, answered⟩

/-- A store with an unreadable block and a cursor that counts more blocks. -/
def garbledEngine : Engine where
  path := ""
  contents := Edit.applyAll ∅
    [.put (RecordStore.blocks.fullKey "garbled") [255],
      RecordStore.cursors.putEdit StoreKey.cursor ⟨7, "seven"⟩]
  isOpen := true

theorem inspection_agrees_garbled :
    (storedCursor.run garbledEngine).1 = .ok (some ⟨7, "seven"⟩) ∧
      Agreement garbledEngine (some ⟨7, "seven"⟩) := by
  have readable : (storedCursor.run garbledEngine).1 = .ok (some ⟨7, "seven"⟩) := by
    cbv
  exact ⟨readable, inspection_agrees garbledEngine _ readable⟩

end Ledger

end LedgerNode
