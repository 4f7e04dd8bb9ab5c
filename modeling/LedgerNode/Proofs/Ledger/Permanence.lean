import Mathlib
import LedgerNode.Proofs.Ledger.History

namespace LedgerNode

/-!
# How long a confirmed transaction stays as it is

A commit puts its transactions under a height at which nothing was stored
before, so it leaves the transactions of all other blocks alone.  It is not so
with the transactions that come without a block.  If the block that such a
transaction names is stored, the transaction is stored under its hash, and
takes the place of the one that was there.

So no confirmed transaction is ever removed, and each stays as it is until
another one of its height and its hash is sent.  From then on the last one that
was sent is the record.
-/

/-- Edits of other keys leave a key alone. -/
theorem Edit.get?_applyAll_of_forall {edits : List Edit} {key : Bytes} {contents : Contents}
    (others : ∀ edit ∈ edits, ∀ contents : Contents,
      (Edit.apply contents edit).get? key = contents.get? key) :
    (Edit.applyAll contents edits).get? key = contents.get? key := by
  induction edits generalizing contents with
  | nil => rfl
  | cons edit rest ih =>
      rcases List.forall_mem_cons.mp others with ⟨head, tail⟩
      exact (ih tail).trans (head contents)

namespace Ledger

/-! ## Records under the key of a transaction -/

/-- The record under the key of a confirmed transaction. -/
def ConfirmedAs (contents : Contents) (height : UInt64) (hash : String)
    (record : Transaction) : Prop :=
  contents.get? (RecordStore.confirmed.fullKey (StoreKey.transaction height hash)) =
    some (Transaction.codec.encode record)

theorem ConfirmedAs.find {contents : Contents} {height : UInt64} {hash : String}
    {record : Transaction} (confirmed : ConfirmedAs contents height hash record)
    (fits : record.Fits) :
    RecordStore.confirmed.find (StoreKey.transaction height hash) contents = .ok record := by
  rw [RecordStore.find, confirmed]
  exact RecordStore.readRecord_encode Transaction.codec_roundTrips fits

/-- A confirmed transaction that is found belongs to a block of the chain above
genesis. -/
theorem Shows.confirmed_of_find {chain : List Block} {cursor : Option Cursor}
    {contents : Contents} (shows : Shows chain cursor contents) {height : UInt64}
    {hash : String} {record : Transaction}
    (found : RecordStore.confirmed.find (StoreKey.transaction height hash) contents =
      .ok record) :
    ConfirmedAs contents height hash record ∧ ConfirmedBelow chain.length record ∧
      record.blockHeight = height := by
  cases stored : contents.get?
      (RecordStore.confirmed.fullKey (StoreKey.transaction height hash)) with
  | none =>
      rw [RecordStore.find, stored] at found
      cases found
  | some bytes =>
      have member := stored
      rw [← RecordStore.get?_part_fullKey] at member
      rcases shows.confirmed _ (RecordStore.mem_entriesIn.mpr member) with
        ⟨transaction, below, same⟩
      cases congrArg Prod.snd same
      rw [RecordStore.find, stored] at found
      have read : RecordStore.confirmed.readRecord (Transaction.codec.encode transaction) =
          .ok transaction :=
        RecordStore.readRecord_encode Transaction.codec_roundTrips below.fits
      cases read.symm.trans found
      have keys := RecordStore.fullKey_inj.mp (congrArg Prod.fst same)
      exact ⟨stored, below, (StoreKey.transaction_inj.mp keys).1.symm⟩

/-! ## Commits -/

/-- A commit leaves the transactions of other heights alone. -/
theorem get?_commitEdits_of_ne {parcel : WaitingBlock} {height : UInt64}
    (different : parcel.block.height ≠ height) (hash : String) :
    ∀ edit ∈ commitEdits parcel, ∀ contents : Contents, (Edit.apply contents edit).get?
        (RecordStore.confirmed.fullKey (StoreKey.transaction height hash)) =
      contents.get? (RecordStore.confirmed.fullKey (StoreKey.transaction height hash)) := by
  intro edit member contents
  rcases List.mem_cons.mp member with here | later
  · rw [here, blocks_apart_confirmed.symm.get?_put]
  · rcases List.mem_append.mp later with carried | last
    · rcases List.mem_map.mp carried with ⟨transaction, _, same⟩
      rw [← same, confirmEdit, RecordStore.get?_put, if_neg]
      intro keys
      exact different (StoreKey.transaction_inj.mp (RecordStore.fullKey_inj.mp keys)).1.symm
    · rw [List.mem_singleton.mp last, cursors_apart_confirmed.symm.get?_put]

/-- Blocks are added above the chain. -/
theorem Picture.ExtendedBy.length_le_of_mem {before after : Picture}
    {parcels : List WaitingBlock} (extended : before.ExtendedBy parcels after)
    {parcel : WaitingBlock} (member : parcel ∈ parcels) :
    before.chain.length ≤ parcel.block.height.toNat := by
  rcases List.getElem_of_mem member with ⟨index, within, same⟩
  have inside : before.chain.length + index < after.chain.length := by
    rw [extended.chain, List.length_append, List.length_map]
    exact Nat.add_lt_add_left within _
  have height := after.linked.height_eq inside
  simp only [extended.chain, List.getElem_append_right (Nat.le_add_right _ _),
    Nat.add_sub_cancel_left, List.getElem_map, same] at height
  omega

theorem Picture.ExtendedBy.confirmedAs {before after : Picture} {parcels : List WaitingBlock}
    (extended : before.ExtendedBy parcels after) {contents : Contents} {height : UInt64}
    {hash : String} {record : Transaction} (inside : height.toNat < before.chain.length)
    (confirmed : ConfirmedAs contents height hash record) :
    ConfirmedAs (Edit.applyAll contents (parcels.flatMap commitEdits)) height hash record := by
  refine (Edit.get?_applyAll_of_forall ?_).trans confirmed
  intro edit member
  rcases List.mem_flatMap.mp member with ⟨parcel, added, written⟩
  have above := extended.length_le_of_mem added
  apply get?_commitEdits_of_ne _ hash edit written
  intro same
  rw [same] at above
  omega

/-! ## Transactions that come without a block -/

/-- The record after a transaction was sent. -/
def resent (height : UInt64) (hash : String) (record transaction : Transaction) : Transaction :=
  if transaction.blockHeight = height ∧ transaction.hash = hash then transaction else record

/-- The transactions that a call sends without a block. -/
def FreeCall.sent : FreeCall → List Transaction
  | acceptTransactions transactions _ => transactions
  | addPending _ => []

/-- The block of a height is stored, and so is a transaction of it. -/
structure Anchored (contents : Contents) (height : UInt64) (hash : String)
    (record : Transaction) : Prop where
  positive : 0 < height.toNat
  block : contents.contains (RecordStore.blocks.fullKey (StoreKey.block height)) = true
  confirmed : ConfirmedAs contents height hash record

section Sent

variable {contents : Contents} {height : UInt64} {hash : String} {record : Transaction}

theorem Anchored.put_pending (anchored : Anchored contents height hash record) (key : String)
    (transaction : Transaction) :
    Anchored (Edit.apply contents (RecordStore.pending.putEdit key transaction)) height hash
      record where
  positive := anchored.positive
  block := by
    rcases OrderedMap.contains_iff.mp anchored.block with ⟨value, found⟩
    apply OrderedMap.contains_iff.mpr ⟨value, _⟩
    rw [blocks_apart_pending.get?_put, found]
  confirmed := by
    rw [ConfirmedAs, confirmed_apart_pending.get?_put]
    exact anchored.confirmed

theorem Anchored.put_confirmed (anchored : Anchored contents height hash record)
    (transaction : Transaction) :
    Anchored (Edit.apply contents (RecordStore.confirmed.putEdit
      (StoreKey.transaction transaction.blockHeight transaction.hash) transaction)) height hash
      (resent height hash record transaction) where
  positive := anchored.positive
  block := by
    rcases OrderedMap.contains_iff.mp anchored.block with ⟨value, found⟩
    apply OrderedMap.contains_iff.mpr ⟨value, _⟩
    rw [blocks_apart_confirmed.get?_put, found]
  confirmed := by
    rw [ConfirmedAs, RecordStore.get?_put, resent]
    by_cases here : transaction.blockHeight = height ∧ transaction.hash = hash
    · rw [if_pos here, if_pos (by rw [here.1, here.2])]
      rfl
    · rw [if_neg here, if_neg]
      · exact anchored.confirmed
      · intro keys
        have same := StoreKey.transaction_inj.mp (RecordStore.fullKey_inj.mp keys)
        exact here ⟨same.1.symm, same.2.symm⟩

theorem addTransaction_alone (anchored : Anchored contents height hash record)
    (transaction : Transaction) :
    (addTransaction transaction).Meets alone (StoreAction.Returns fun _ after =>
      Anchored after height hash (resent height hash record transaction)) contents := by
  -- a transaction that is not stored under the height is not the record either
  have unnamed (elsewhere : transaction.blockHeight ≠ height) :
      resent height hash record transaction = record :=
    if_neg fun both => elsewhere both.1
  rw [addTransaction]
  cases pending : transaction.isPending with
  | true =>
      rw [if_pos rfl, addPending, RecordStore.put]
      apply StoreAction.alone_write_bind
      rw [unnamed]
      · exact anchored.put_pending _ transaction
      · intro same
        have zero : transaction.blockHeight = 0 := eq_of_beq pending
        have positive := anchored.positive
        rw [← same, zero] at positive
        cases positive
  | false =>
      rw [if_neg Bool.false_ne_true, addConfirmed, RecordStore.has_eq_reading]
      apply StoreAction.alone_reading_bind
      dsimp only
      cases stored : contents.contains
          (RecordStore.blocks.fullKey (StoreKey.block transaction.blockHeight)) with
      | true =>
          rw [if_pos rfl, RecordStore.put]
          apply StoreAction.alone_write_bind
          exact anchored.put_confirmed transaction
      | false =>
          rw [if_neg Bool.false_ne_true, unnamed]
          · exact anchored
          · intro same
            rw [same, anchored.block] at stored
            cases stored

theorem acceptTransactions_alone (anchored : Anchored contents height hash record)
    (transactions : List Transaction) :
    (acceptTransactions transactions).Meets alone (StoreAction.Returns fun _ after =>
      Anchored after height hash (transactions.foldl (resent height hash) record)) contents := by
  induction transactions generalizing contents record with
  | nil => exact anchored
  | cons transaction rest ih =>
      rw [acceptTransactions]
      apply StoreAction.Meets.bind_returns (addTransaction_alone anchored transaction)
      intro stored after next
      apply StoreAction.Meets.bind_returns (ih next)
      intro others last reached
      exact reached

theorem FreeCall.perform_alone (anchored : Anchored contents height hash record)
    (call : FreeCall) :
    call.perform.Meets alone (StoreAction.Returns fun _ after =>
      Anchored after height hash (call.sent.foldl (resent height hash) record)) contents := by
  cases call with
  | acceptTransactions transactions fits =>
      apply StoreAction.Meets.bind_returns (acceptTransactions_alone anchored transactions)
      intro count after reached
      exact reached
  | addPending transaction =>
      change StoreAction.Meets alone _ (Ledger.addPending transaction >>= _) contents
      rw [Ledger.addPending, RecordStore.put]
      apply StoreAction.alone_write_bind
      exact anchored.put_pending _ transaction

end Sent

end Ledger

namespace Session

open Ledger

/-! ## Whole histories -/

/-- The transactions that an event sends without a block.  What is sent while
the store is closed is not taken. -/
def Event.sent : Event → List Transaction
  | .call (.free action) => action.sent
  | .call (.locked _) => []
  | .restart _ => []

variable {session : Session} {picture : Picture} {height : UInt64} {hash : String}
  {record : Transaction}

theorem Event.sent_fits (event : Event) : ∀ transaction ∈ event.sent, transaction.Fits := by
  intro transaction member
  cases event with
  | restart meanwhile => cases member
  | call action =>
      cases action with
      | locked action => cases member
      | free action =>
          cases action with
          | acceptTransactions transactions fits => exact fits transaction member
          | addPending pending => cases member

theorem resent_fits {sent : List Transaction} (fits : record.Fits)
    (others : ∀ transaction ∈ sent, transaction.Fits) :
    (sent.foldl (resent height hash) record).Fits := by
  induction sent generalizing record with
  | nil => exact fits
  | cons transaction rest ih =>
      rcases List.forall_mem_cons.mp others with ⟨head, tail⟩
      apply ih _ tail
      rw [resent]
      split
      · exact head
      · exact fits

/-- Only what is sent without a block replaces a confirmed transaction. -/
theorem Sound.step_confirmed (sound : session.Sound picture)
    (positive : 0 < height.toNat) (inside : height.toNat < picture.chain.length)
    (confirmed : ConfirmedAs session.engine.contents height hash record) (event : Event) :
    ∃ after, (session.step event).Sound after ∧ picture.chain <+: after.chain ∧
      ConfirmedAs (session.step event).engine.contents height hash
        (event.sent.foldl (resent height hash) record) := by
  cases event with
  | call action =>
      cases action with
      | locked action =>
          have standing : picture.chain ≠ [] :=
            List.ne_nil_of_length_pos (Nat.lt_of_le_of_lt (Nat.zero_le _) inside)
          rcases sound.perform_locked action with
            ⟨edits, after, next, performed, grown, wrote, engine⟩
          rcases performed.extendedBy sound.settled standing with ⟨parcels, extended, _⟩
          have edited : edits = parcels.flatMap commitEdits :=
            List.append_cancel_left (wrote.symm.trans extended.written)
          refine ⟨after, next, grown, ?_⟩
          rw [Session.step, engine, edited]
          exact extended.confirmedAs inside confirmed
      | free action =>
          have anchored : Anchored session.engine.contents height hash record :=
            ⟨positive, (Shows.contains_block sound.depicts picture.linked height).mpr inside,
              confirmed⟩
          have meets : (LedgerAction.ofStore action.perform).Meets alone (fun _ _ after =>
              Anchored after height hash (action.sent.foldl (resent height hash) record))
              session.waiting session.engine.contents := by
            apply LedgerAction.meets_ofStore
            apply (action.perform_alone anchored).imp
            intro outcome after reached
            cases outcome with
            | ok answer => exact reached
            | error fault => exact reached.elim
          rcases Procedure.run_alone meets sound.isOpen with ⟨contents, ran, reached⟩
          have engine : (session.perform (.free action)).2.engine =
              { session.engine with contents } := ran
          refine ⟨picture, (sound.perform_free action).1, List.prefix_refl _, ?_⟩
          rw [Session.step, engine]
          exact reached.confirmed
  | restart meanwhile =>
      rw [step_restart sound.isOpen]
      exact ⟨picture, sound.unattended, List.prefix_refl _, confirmed⟩

theorem Sound.run_confirmed (sound : session.Sound picture)
    (positive : 0 < height.toNat) (inside : height.toNat < picture.chain.length)
    (confirmed : ConfirmedAs session.engine.contents height hash record)
    (events : List Event) :
    ∃ after, (session.run events).Sound after ∧
      ConfirmedAs (session.run events).engine.contents height hash
        ((events.flatMap Event.sent).foldl (resent height hash) record) := by
  induction events generalizing session picture record with
  | nil => exact ⟨picture, sound, confirmed⟩
  | cons event rest ih =>
      rcases sound.step_confirmed positive inside confirmed event with
        ⟨middle, next, grown, still⟩
      rw [List.flatMap_cons, List.foldl_append]
      exact ih next (Nat.lt_of_lt_of_le inside grown.length_le) still

/-- A confirmed transaction is the same after any further history, except that
the last transaction that was sent without a block under its height and its
hash has taken its place. -/
theorem confirmed_until_resent (path : String) (events more : List Event) (height : UInt64)
    (hash : String) (record : Transaction)
    (stored : (RecordStore.confirmed.get (StoreKey.transaction height hash)).run
      ((start path).run events).engine = (.ok record, ((start path).run events).engine)) :
    (RecordStore.confirmed.get (StoreKey.transaction height hash)).run
        ((start path).run (events ++ more)).engine =
      (.ok ((more.flatMap Event.sent).foldl (resent height hash) record),
        ((start path).run (events ++ more)).engine) := by
  rcases run_start_sound path events with ⟨picture, _, sound, _⟩
  rw [RecordStore.get_eq_reading, StoreAction.run_reading sound.isOpen] at stored
  rcases Shows.confirmed_of_find sound.depicts (congrArg Prod.fst stored) with
    ⟨confirmed, below, here⟩
  have positive : 0 < height.toNat := here ▸ below.positive
  have inside : height.toNat < picture.chain.length := here ▸ below.below
  rcases sound.run_confirmed positive inside confirmed more with ⟨after, last, reached⟩
  have fits : ((more.flatMap Event.sent).foldl (resent height hash) record).Fits := by
    apply resent_fits below.fits
    intro transaction member
    rcases List.mem_flatMap.mp member with ⟨event, _, sent⟩
    exact event.sent_fits transaction sent
  rw [run_append, RecordStore.get_eq_reading, StoreAction.run_reading last.isOpen,
    reached.find fits]

/-- A transaction of the first block, with the given amount. -/
def samplePayment (amount : UInt64) : Transaction :=
  { (default : Transaction) with hash := "first", blockHeight := 1, amount }

theorem samplePayment_fits (amount : UInt64) : (samplePayment amount).Fits := by
  have empty : TextFits "" := by decide
  have short : TextFits "first" := by decide
  exact ⟨short, empty, empty, empty, empty, empty⟩

/-- The call that stores the first block with its transaction. -/
def sampleCommit : Event :=
  .call (.locked (.accept (sampleParcel 1 "first" Block.genesisHash)
    (sampleParcel_fits (by decide) (by decide))))

/-- The call that sends a payment without a block. -/
def samplePaymentSent (amount : UInt64) : Event :=
  .call (.free (.acceptTransactions [samplePayment amount]
    (List.forall_mem_singleton.mpr (samplePayment_fits amount))))

/-- A payment that was sent twice is stored as it was sent last. -/
theorem confirmed_until_resent_twice :
    (RecordStore.confirmed.get (StoreKey.transaction 1 "first")).run
        ((start "ledger").run [sampleCommit]).engine =
      (.ok (samplePayment 0), ((start "ledger").run [sampleCommit]).engine) ∧
    (RecordStore.confirmed.get (StoreKey.transaction 1 "first")).run
        ((start "ledger").run [sampleCommit, samplePaymentSent 7, samplePaymentSent 5]).engine =
      (.ok (samplePayment 5),
        ((start "ledger").run
          [sampleCommit, samplePaymentSent 7, samplePaymentSent 5]).engine) := by
  have stored : (RecordStore.confirmed.get (StoreKey.transaction 1 "first")).run
      ((start "ledger").run [sampleCommit]).engine =
        (.ok (samplePayment 0), ((start "ledger").run [sampleCommit]).engine) := by
    cbv
  refine ⟨stored, ?_⟩
  exact confirmed_until_resent "ledger" [sampleCommit]
    [samplePaymentSent 7, samplePaymentSent 5] 1 "first" (samplePayment 0) stored

/-- A payment that was sent replaces the transaction that the commit of its
block stored, and changes the amount. -/
theorem committed_amount_replaced :
    let before := ((start "ledger").run [sampleCommit]).engine
    let after := ((start "ledger").run [sampleCommit, samplePaymentSent 999]).engine
    ((RecordStore.confirmed.get (StoreKey.transaction 1 "first")).run before).1 =
        .ok (samplePayment 0) ∧
      ((RecordStore.confirmed.get (StoreKey.transaction 1 "first")).run after).1 =
        .ok (samplePayment 999) ∧ (samplePayment 0).amount ≠ (samplePayment 999).amount := by
  refine ⟨?_, ?_, ?_⟩
  · cbv
  · cbv
  · decide

end Session

end LedgerNode
