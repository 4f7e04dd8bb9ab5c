import LedgerNode.Node.Producer
import LedgerNode.Proofs.Gossip.Envelope
import LedgerNode.Proofs.Ledger.Production

namespace LedgerNode

/-!
# What a producer publishes

A node that produces once at each of some times stores a chain of blocks behind
its tip and a pending transfer beside each of them, and tells others of both.
The blocks follow one another, each with the one reward that it confirms.
-/

namespace Ledger

variable {engine : Engine}

/-- The edit that stores a pending transaction. -/
def pendingEdit (transaction : Transaction) : Edit :=
  RecordStore.pending.putEdit (StoreKey.transaction 0 transaction.hash) transaction

/-! ## Runs of writers -/

theorem storeConfirmed_does (isOpen : engine.isOpen = true) (height : UInt64)
    (transactions : List Transaction) :
    (storeConfirmed height transactions).Does engine ()
      (transactions.map (confirmEdit height)) := by
  induction transactions generalizing engine with
  | nil => exact StoreAction.does_pure engine ()
  | cons transaction rest ih =>
      have first := RecordStore.confirmed.does_put isOpen
        (StoreKey.transaction height transaction.hash) (transaction.confirmedAt height)
      rw [storeConfirmed_cons]
      exact first.bind (ih isOpen)

theorem commit_does (isOpen : engine.isOpen = true) (parcel : WaitingBlock) :
    (commit parcel.block parcel.transactions).Does engine (.ofBlock parcel.block)
      (commitEdits parcel) := by
  have still := Engine.isOpen_edited isOpen
  apply (RecordStore.blocks.does_put isOpen _ parcel.block).bind
  apply (storeConfirmed_does (still _) parcel.block.height parcel.transactions).bind
  rw [Engine.edited_edited]
  exact (RecordStore.cursors.does_put (still _) _ _).bind_pure fun _ =>
    Cursor.ofBlock parcel.block

/-- A block that is built for the tip and extends it is stored. -/
theorem appendBuilt_does {build : Cursor → Block} {tip : Cursor} (isOpen : engine.isOpen = true)
    (stored : RecordStore.cursors.find StoreKey.cursor engine.contents = .ok tip)
    (follows : tip.ExtendedBy (build tip)) :
    (appendBuilt build).Does engine (build tip) (commitEdits (ownParcel (build tip))) := by
  have found : cursor.Does engine tip [] := RecordStore.does_get isOpen stored
  rw [appendBuilt]
  apply found.bind_after
  dsimp only
  rw [if_pos follows]
  exact (commit_does isOpen (ownParcel (build tip))).bind_pure fun _ => build tip

theorem addPending_does (isOpen : engine.isOpen = true) (transaction : Transaction) :
    (addPending transaction).Does engine () [pendingEdit transaction] :=
  RecordStore.pending.does_put isOpen _ transaction

/-- The cursor that a commit has left is found. -/
theorem find_cursor_commitEdits (contents : Contents) {parcel : WaitingBlock}
    (fits : parcel.Fits) :
    RecordStore.cursors.find StoreKey.cursor (Edit.applyAll contents (commitEdits parcel)) =
      .ok (.ofBlock parcel.block) := by
  rw [commitEdits, ← List.cons_append, Edit.applyAll_append]
  exact RecordStore.find_put Cursor.codec_roundTrips _ _ (Cursor.fits_ofBlock fits.block)

/-- Pending transactions are no part of what the contents show of a ledger. -/
theorem shows_pendingEdit_iff {chain : List Block} {cursor : Option Cursor}
    {contents : Contents} {transaction : Transaction} :
    Shows chain cursor (Edit.apply contents (pendingEdit transaction)) ↔
      Shows chain cursor contents := by
  have blocks : RecordStore.blocks.entriesIn (Edit.apply contents (pendingEdit transaction)) =
      RecordStore.blocks.entriesIn contents :=
    congrArg OrderedMap.entries (blocks_apart_pending.part_put _ _ _)
  have confirmed : RecordStore.confirmed.entriesIn
      (Edit.apply contents (pendingEdit transaction)) =
      RecordStore.confirmed.entriesIn contents :=
    congrArg OrderedMap.entries (confirmed_apart_pending.part_put _ _ _)
  have kept : (Edit.apply contents (pendingEdit transaction)).get?
      (RecordStore.cursors.fullKey StoreKey.cursor) =
      contents.get? (RecordStore.cursors.fullKey StoreKey.cursor) :=
    cursors_apart_pending.get?_put _ _ _ _
  constructor
  · rintro ⟨ofBlocks, ofCursor, ofConfirmed⟩
    exact ⟨blocks ▸ ofBlocks, kept ▸ ofCursor, confirmed ▸ ofConfirmed⟩
  · intro shows
    exact shows.put_pending _ transaction

theorem shows_pendingEdits_iff {chain : List Block} {cursor : Option Cursor}
    {contents : Contents} {loose : List Transaction} :
    Shows chain cursor (Edit.applyAll contents (loose.map pendingEdit)) ↔
      Shows chain cursor contents := by
  induction loose generalizing contents with
  | nil => rfl
  | cons transaction rest ih => exact ih.trans shows_pendingEdit_iff

/-- Pending transactions do not hide the cursor. -/
theorem find_cursor_pendingEdit (contents : Contents) (transaction : Transaction) :
    RecordStore.cursors.find StoreKey.cursor (Edit.apply contents (pendingEdit transaction)) =
      RecordStore.cursors.find StoreKey.cursor contents := by
  rw [RecordStore.find, RecordStore.find, pendingEdit, cursors_apart_pending.get?_put]

theorem commitEdits_commutes (parcel : WaitingBlock) (transaction : Transaction) {edit : Edit}
    (member : edit ∈ commitEdits parcel) : (pendingEdit transaction).Commutes edit := by
  rcases List.mem_cons.mp member with block | others
  · exact block ▸ blocks_apart_pending.symm.putEdit_commutes _ _ _ _
  rcases List.mem_append.mp others with confirms | last
  · rcases List.mem_map.mp confirms with ⟨confirmed, _, same⟩
    exact same ▸ confirmed_apart_pending.symm.putEdit_commutes _ _ _ _
  · exact List.mem_singleton.mp last ▸ cursors_apart_pending.symm.putEdit_commutes _ _ _ _

/-- Pending transactions may be stored after the blocks. -/
theorem pending_after_commits (engine : Engine) (loose : List Transaction)
    (parcels : List WaitingBlock) :
    engine.edited (loose.map pendingEdit ++ parcels.flatMap commitEdits) =
      engine.edited (parcels.flatMap commitEdits ++ loose.map pendingEdit) := by
  rw [Engine.edited, Engine.edited, Edit.applyAll_append_comm]
  intro pending isPending edit isCommit
  rcases List.mem_map.mp isPending with ⟨transaction, _, same⟩
  rcases List.mem_flatMap.mp isCommit with ⟨parcel, _, member⟩
  exact same ▸ commitEdits_commutes parcel transaction member

end Ledger

namespace Producer

open Ledger

theorem transfer_fits (timestamp : Int64) : (transfer timestamp).Fits where
  hash := Transaction.computeHash_fits _
  kind := show TextFits Transaction.spendKind by decide
  sender := show TextFits sender by decide
  receiver := show TextFits receiver by decide
  publicKey := show TextFits placeholder by decide
  verification := show TextFits placeholder by decide

/-! ## Production, round by round -/

theorem nextBlock_extends (timestamp : Int64) {tip : Cursor}
    (room : tip.height.toNat + 1 < 2 ^ 64) : tip.ExtendedBy (nextBlock timestamp tip) := by
  refine ⟨?_, rfl⟩
  change (tip.height + 1).toNat = tip.height.toNat + 1
  rw [UInt64.toNat_add, UInt64.toNat_one, Nat.mod_eq_of_lt room]

/-- The blocks that are produced behind a tip at the given times. -/
def blocksAt : Cursor → List Int64 → List Block
  | _, [] => []
  | tip, timestamp :: rest =>
    nextBlock timestamp tip :: blocksAt (.ofBlock (nextBlock timestamp tip)) rest

theorem length_blocksAt (tip : Cursor) (timestamps : List Int64) :
    (blocksAt tip timestamps).length = timestamps.length := by
  induction timestamps generalizing tip with
  | nil => rfl
  | cons timestamp rest ih => rw [blocksAt, List.length_cons, ih, List.length_cons]

theorem fits_blocksAt {tip : Cursor} (fits : tip.Fits) {timestamps : List Int64} :
    ∀ block ∈ blocksAt tip timestamps, block.Fits := by
  induction timestamps generalizing tip with
  | nil => exact List.forall_mem_nil _
  | cons timestamp rest ih =>
      have here := nextBlock_fits timestamp fits
      exact List.forall_mem_cons.mpr ⟨here, ih (Cursor.fits_ofBlock here)⟩

/-- Each of the blocks is produced for some tip. -/
theorem mem_blocksAt {tip : Cursor} {timestamps : List Int64} {block : Block}
    (member : block ∈ blocksAt tip timestamps) :
    ∃ timestamp ∈ timestamps, ∃ before, block = nextBlock timestamp before := by
  induction timestamps generalizing tip with
  | nil => cases member
  | cons timestamp rest ih =>
      rcases List.mem_cons.mp member with here | there
      · exact ⟨timestamp, List.mem_cons_self, tip, here⟩
      · rcases ih there with ⟨later, inside, made⟩
        exact ⟨later, List.mem_cons_of_mem _ inside, made⟩

theorem follows_blocksAt {tip : Cursor} {timestamps : List Int64}
    (room : tip.height.toNat + timestamps.length < 2 ^ 64) :
    Follows tip ((blocksAt tip timestamps).map ownParcel) := by
  induction timestamps generalizing tip with
  | nil => trivial
  | cons timestamp rest ih =>
      rw [List.length_cons] at room
      have follows : tip.ExtendedBy (ownParcel (nextBlock timestamp tip)).block :=
        nextBlock_extends timestamp (by omega)
      have next : (Cursor.ofBlock (ownParcel (nextBlock timestamp tip)).block).height.toNat =
          tip.height.toNat + 1 := follows.1
      exact ⟨follows, ih (by omega)⟩

/-- What others are told of them. -/
def announced : Cursor → List Int64 → List Envelope
  | _, [] => []
  | tip, timestamp :: rest =>
    .newBlock (nextBlock timestamp tip) (nextBlock timestamp tip).transactions ::
      .newTransactions [transfer timestamp] ::
        announced (.ofBlock (nextBlock timestamp tip)) rest

theorem mem_announced_iff {tip : Cursor} {timestamps : List Int64} {envelope : Envelope} :
    envelope ∈ announced tip timestamps ↔
      (∃ block ∈ blocksAt tip timestamps, envelope = .newBlock block block.transactions) ∨
        ∃ timestamp ∈ timestamps, envelope = .newTransactions [transfer timestamp] := by
  induction timestamps generalizing tip with
  | nil => simp [announced, blocksAt]
  | cons timestamp rest ih =>
      simp only [announced, blocksAt, List.mem_cons, ih, exists_eq_or_imp]
      grind

/-- The edits of production in their order. -/
def producedEdits : Cursor → List Int64 → List Edit
  | _, [] => []
  | tip, timestamp :: rest =>
    commitEdits (ownParcel (nextBlock timestamp tip)) ++ [pendingEdit (transfer timestamp)] ++
      producedEdits (.ofBlock (nextBlock timestamp tip)) rest

variable {engine : Engine} {tip : Cursor}

theorem produce_does (isOpen : engine.isOpen = true)
    (stored : RecordStore.cursors.find StoreKey.cursor engine.contents = .ok tip)
    (room : tip.height.toNat + 1 < 2 ^ 64) (timestamp : Int64) :
    let block := nextBlock timestamp tip
    (produce timestamp).Does engine
      [(Envelope.newBlock block block.transactions).encode,
        (Envelope.newTransactions [transfer timestamp]).encode]
      (commitEdits (ownParcel block) ++ [pendingEdit (transfer timestamp)]) := by
  have still := Engine.isOpen_edited isOpen
  have synthesizes : (synthesize timestamp).Does engine
      (.newBlock (nextBlock timestamp tip) (nextBlock timestamp tip).transactions,
        .newTransactions [transfer timestamp])
      (commitEdits (ownParcel (nextBlock timestamp tip)) ++
        [pendingEdit (transfer timestamp)]) := by
    apply (appendBuilt_does isOpen stored (nextBlock_extends timestamp room)).bind
    exact (addPending_does (still _) (transfer timestamp)).bind_pure fun _ => (_, _)
  exact synthesizes.bind_pure fun envelopes => [envelopes.1.encode, envelopes.2.encode]

theorem produceAll_does (isOpen : engine.isOpen = true)
    (stored : RecordStore.cursors.find StoreKey.cursor engine.contents = .ok tip)
    (fits : tip.Fits) {timestamps : List Int64}
    (room : tip.height.toNat + timestamps.length < 2 ^ 64) :
    (produceAll timestamps).Does engine ((announced tip timestamps).map Envelope.encode)
      (producedEdits tip timestamps) := by
  induction timestamps generalizing engine tip with
  | nil => exact StoreAction.does_pure engine []
  | cons timestamp rest ih =>
      rw [List.length_cons] at room
      have here : tip.height.toNat + 1 < 2 ^ 64 := by omega
      have follows := nextBlock_extends timestamp here
      have fitting := nextBlock_fits timestamp fits
      have next : (Cursor.ofBlock (nextBlock timestamp tip)).height.toNat =
          tip.height.toNat + 1 := follows.1
      apply (produce_does isOpen stored here timestamp).bind
      have found : RecordStore.cursors.find StoreKey.cursor (engine.edited
          (commitEdits (ownParcel (nextBlock timestamp tip)) ++
            [pendingEdit (transfer timestamp)])).contents =
          .ok (.ofBlock (nextBlock timestamp tip)) := by
        rw [Engine.edited, Edit.applyAll_append]
        exact (find_cursor_pendingEdit _ _).trans
          (find_cursor_commitEdits _ (ownParcel_fits fitting))
      have others :=
        ih (Engine.isOpen_edited isOpen _) found (Cursor.fits_ofBlock fitting) (by omega)
      exact others.bind_pure fun messages => [_, _] ++ messages

/-- What production leaves is a chain of commits and, beside it, the transfers. -/
theorem edited_producedEdits (engine : Engine) (tip : Cursor) (timestamps : List Int64) :
    engine.edited (producedEdits tip timestamps) =
      engine.edited (((blocksAt tip timestamps).map ownParcel).flatMap commitEdits ++
        (timestamps.map transfer).map pendingEdit) := by
  induction timestamps generalizing engine tip with
  | nil => rfl
  | cons timestamp rest ih =>
      have swap := pending_after_commits
        (engine.edited (commitEdits (ownParcel (nextBlock timestamp tip))))
        [transfer timestamp]
        ((blocksAt (.ofBlock (nextBlock timestamp tip)) rest).map ownParcel)
      simp only [producedEdits, blocksAt, List.map_cons, List.map_nil, List.flatMap_cons,
        ← Engine.edited_edited, ih] at swap ⊢
      rw [swap]
      simp only [Engine.edited_edited, List.append_assoc, List.cons_append, List.nil_append]

end Producer

end LedgerNode
