import LedgerNode.Proofs.Ledger.Succession

namespace LedgerNode

/-!
# What commits add to the confirmed transactions

The transactions of a block lie under its height.  So the commits of blocks
that follow one another add all their transactions to what was confirmed
before and replace nothing, as long as no block carries two transactions of one
hash.
-/

/-- The transactions that come with a block have different hashes. -/
def WaitingBlock.Distinct (parcel : WaitingBlock) : Prop :=
  (parcel.transactions.map (·.hash)).Nodup

namespace Ledger

/-- The entries of the transactions that come with a block. -/
def carried (parcel : WaitingBlock) : List (Bytes × Bytes) :=
  parcel.transactions.map fun transaction =>
    confirmedEntry (transaction.confirmedAt parcel.block.height)

/-- The confirmed transactions lie under heights up to the bound. -/
def ConfirmedUpTo (bound : Nat) (contents : Contents) : Prop :=
  ∀ entry ∈ RecordStore.confirmed.entriesIn contents, ∃ height : UInt64, ∃ hash,
    height.toNat ≤ bound ∧
      entry.1 = RecordStore.confirmed.fullKey (StoreKey.transaction height hash)

theorem Shows.confirmedUpTo {chain : List Block} {cursor : Option Cursor} {contents : Contents}
    (shows : Shows chain cursor contents) {bound : Nat} (length : chain.length = bound + 1) :
    ConfirmedUpTo bound contents := by
  intro entry member
  rcases shows.confirmed entry member with ⟨transaction, confirmed, same⟩
  have below := confirmed.below
  exact ⟨transaction.blockHeight, transaction.hash, by omega, congrArg Prod.fst same⟩

theorem ConfirmedUpTo.fresh {bound : Nat} {contents : Contents}
    (upTo : ConfirmedUpTo bound contents) {height : UInt64} (above : bound < height.toNat)
    (hash : String) :
    contents.get? (RecordStore.confirmed.fullKey (StoreKey.transaction height hash)) = none := by
  rw [← RecordStore.get?_part_fullKey]
  apply OrderedMap.get?_eq_none_iff.mpr
  intro value member
  rcases upTo _ member with ⟨other, _, low, same⟩
  have keys := StoreKey.transaction_inj.mp (RecordStore.fullKey_inj.mp same)
  rw [← keys.1] at low
  omega

/-- Transactions of different hashes are all added. -/
theorem confirm_perm {height : UInt64} {transactions : List Transaction} {contents : Contents}
    (distinct : (transactions.map (·.hash)).Nodup)
    (fresh : ∀ transaction ∈ transactions, contents.get?
      (RecordStore.confirmed.fullKey (StoreKey.transaction height transaction.hash)) = none) :
    (RecordStore.confirmed.entriesIn
      (Edit.applyAll contents (transactions.map (confirmEdit height)))).Perm
      (RecordStore.confirmed.entriesIn contents ++
        transactions.map fun transaction => confirmedEntry (transaction.confirmedAt height)) := by
  induction transactions generalizing contents with
  | nil =>
      rw [List.map_nil, List.map_nil, List.append_nil]
      rfl
  | cons transaction rest ih =>
      rcases List.nodup_cons.mp distinct with ⟨different, others⟩
      rcases List.forall_mem_cons.mp fresh with ⟨head, tail⟩
      have still : ∀ other ∈ rest,
          (Edit.apply contents (confirmEdit height transaction)).get?
            (RecordStore.confirmed.fullKey (StoreKey.transaction height other.hash)) = none := by
        intro other member
        rw [confirmEdit, RecordStore.get?_put, if_neg, tail other member]
        intro same
        have keys := StoreKey.transaction_inj.mp (RecordStore.fullKey_inj.mp same)
        exact different (List.mem_map.mpr ⟨other, member, keys.2⟩)
      have added := RecordStore.entriesIn_put_perm head (transaction.confirmedAt height)
      rw [List.map_cons, List.map_cons, List.append_cons]
      exact (ih others still).trans (added.append_right _)

/-- A commit adds the transactions that come with its block. -/
theorem commit_perm {parcel : WaitingBlock} {bound : Nat} {contents : Contents}
    (distinct : parcel.Distinct) (upTo : ConfirmedUpTo bound contents)
    (above : bound < parcel.block.height.toNat) :
    (RecordStore.confirmed.entriesIn (Edit.applyAll contents (commitEdits parcel))).Perm
      (RecordStore.confirmed.entriesIn contents ++ carried parcel) := by
  have block := blocks_apart_confirmed.symm.part_put contents
    (StoreKey.block parcel.block.height) parcel.block
  have fresh : ∀ transaction ∈ parcel.transactions,
      (Edit.apply contents (RecordStore.blocks.putEdit
        (StoreKey.block parcel.block.height) parcel.block)).get?
        (RecordStore.confirmed.fullKey
          (StoreKey.transaction parcel.block.height transaction.hash)) = none := by
    intro transaction _
    rw [blocks_apart_confirmed.symm.get?_put]
    exact upTo.fresh above _
  have added := confirm_perm distinct fresh
  rw [RecordStore.entriesIn_eq, RecordStore.entriesIn_eq, block] at added
  rw [commitEdits, Edit.applyAll, List.foldl_cons, List.foldl_append, List.foldl_cons,
    List.foldl_nil, RecordStore.entriesIn_eq, cursors_apart_confirmed.symm.part_put]
  exact added

/-- The commits of blocks that follow one another add all their transactions. -/
theorem commits_perm {tip : Cursor} {parcels : List WaitingBlock} {contents : Contents}
    (follows : Follows tip parcels) (distinct : ∀ parcel ∈ parcels, parcel.Distinct)
    (upTo : ConfirmedUpTo tip.height.toNat contents) :
    (RecordStore.confirmed.entriesIn
      (Edit.applyAll contents (parcels.flatMap commitEdits))).Perm
      (RecordStore.confirmed.entriesIn contents ++ parcels.flatMap carried) := by
  induction parcels generalizing tip contents with
  | nil =>
      rw [List.flatMap_nil, List.flatMap_nil, List.append_nil]
      rfl
  | cons parcel rest ih =>
      rcases follows with ⟨links, others⟩
      rcases List.forall_mem_cons.mp distinct with ⟨head, tail⟩
      have height : (Cursor.ofBlock parcel.block).height.toNat = tip.height.toNat + 1 := links.1
      have above : tip.height.toNat < parcel.block.height.toNat := by
        rw [links.1]
        exact Nat.lt_succ_self _
      have added := commit_perm head upTo above
      have later : ConfirmedUpTo (Cursor.ofBlock parcel.block).height.toNat
          (Edit.applyAll contents (commitEdits parcel)) := by
        intro entry member
        rcases List.mem_append.mp (added.mem_iff.mp member) with before | here
        · rcases upTo entry before with ⟨low, hash, bound, same⟩
          exact ⟨low, hash, by omega, same⟩
        · rcases List.mem_map.mp here with ⟨transaction, _, same⟩
          exact ⟨parcel.block.height, transaction.hash, Nat.le_refl _,
            congrArg Prod.fst same.symm⟩
      rw [List.flatMap_cons, List.flatMap_cons, Edit.applyAll, List.foldl_append,
        ← List.append_assoc]
      exact (ih others tail later).trans (added.append_right _)

end Ledger

end LedgerNode
