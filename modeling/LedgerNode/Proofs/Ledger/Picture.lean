import LedgerNode.Ledger.Integrity
import LedgerNode.Proofs.Ledger.Chain
import LedgerNode.Proofs.Ledger.Format
import LedgerNode.Proofs.Store.Layout
import LedgerNode.Proofs.Store.RecordStore

namespace LedgerNode

/-!
# What the contents of a store show of a ledger

Contents show a chain and a cursor when the entries of the block store are
those of the chain's blocks, the cursor store has that cursor, and every
confirmed transaction lies under its own key and belongs to a block of the
chain above genesis.  Whatever else is stored does not matter.

Each write of the ledger leads from one chain and cursor to the next.  Reading
goes the other way: what the record stores answer is determined by the chain
and the cursor, up to the choice of the confirmed transactions.
-/

namespace Ledger

/-! ## Entries and keyspaces -/

/-- The entry of a stored block. -/
def blockEntry (block : Block) : Bytes × Bytes :=
  RecordStore.blocks.entry (StoreKey.block block.height) block

/-- The entry of a confirmed transaction. -/
def confirmedEntry (transaction : Transaction) : Bytes × Bytes :=
  RecordStore.confirmed.entry
    (StoreKey.transaction transaction.blockHeight transaction.hash) transaction

/-- A transaction of a block above genesis in a chain of the given length. -/
structure ConfirmedBelow (length : Nat) (transaction : Transaction) : Prop where
  fits : transaction.Fits
  positive : 0 < transaction.blockHeight.toNat
  below : transaction.blockHeight.toNat < length

theorem ConfirmedBelow.mono {length longer : Nat} {transaction : Transaction}
    (confirmed : ConfirmedBelow length transaction) (grows : length ≤ longer) :
    ConfirmedBelow longer transaction where
  fits := confirmed.fits
  positive := confirmed.positive
  below := Nat.lt_of_lt_of_le confirmed.below grows

theorem blocks_apart_cursors : RecordStore.blocks.Apart RecordStore.cursors :=
  NodeStore.apart .blocks .cursors (by decide)

theorem blocks_apart_confirmed : RecordStore.blocks.Apart RecordStore.confirmed :=
  NodeStore.apart .blocks .confirmed (by decide)

theorem blocks_apart_pending : RecordStore.blocks.Apart RecordStore.pending :=
  NodeStore.apart .blocks .pending (by decide)

theorem cursors_apart_confirmed : RecordStore.cursors.Apart RecordStore.confirmed :=
  NodeStore.apart .cursors .confirmed (by decide)

theorem cursors_apart_pending : RecordStore.cursors.Apart RecordStore.pending :=
  NodeStore.apart .cursors .pending (by decide)

theorem confirmed_apart_pending : RecordStore.confirmed.Apart RecordStore.pending :=
  NodeStore.apart .confirmed .pending (by decide)

/-! ## Contents of a ledger -/

/-- The contents show this chain and this cursor. -/
structure Shows (chain : List Block) (cursor : Option Cursor) (contents : Contents) : Prop where
  blocks : (RecordStore.blocks.entriesIn contents).Perm (chain.map blockEntry)
  cursor : contents.get? (RecordStore.cursors.fullKey StoreKey.cursor) =
    cursor.map Cursor.codec.encode
  confirmed : ∀ entry ∈ RecordStore.confirmed.entriesIn contents,
    ∃ transaction, ConfirmedBelow chain.length transaction ∧ entry = confirmedEntry transaction

theorem shows_empty : Shows [] none (∅ : Contents) where
  blocks := List.Perm.nil
  cursor := rfl
  confirmed := by
    intro entry member
    cases member

namespace Shows

variable {chain : List Block} {cursor : Option Cursor} {contents : Contents}

/-! ## Writes -/

theorem put_block (shows : Shows chain cursor contents) (linked : Chain.Linked chain)
    {block : Block} (next : block.height.toNat = chain.length) :
    Shows (chain ++ [block]) cursor
      (Edit.apply contents (RecordStore.blocks.putEdit (StoreKey.block block.height) block)) where
  blocks := by
    have fresh : contents.get? (RecordStore.blocks.fullKey (StoreKey.block block.height)) =
        none := by
      rw [← RecordStore.get?_part_fullKey]
      apply OrderedMap.get?_eq_none_iff.mpr
      intro value member
      rcases List.mem_map.mp (shows.blocks.mem_iff.mp member) with ⟨other, inChain, same⟩
      have keys := RecordStore.fullKey_inj.mp (congrArg Prod.fst same)
      have lower := linked.height_lt inChain
      rw [StoreKey.block_inj.mp keys, next] at lower
      exact Nat.lt_irrefl _ lower
    rw [List.map_append]
    apply (RecordStore.entriesIn_put_perm fresh block).trans
    exact shows.blocks.append_right [blockEntry block]
  cursor := by
    rw [blocks_apart_cursors.symm.get?_put, shows.cursor]
  confirmed := by
    rw [RecordStore.entriesIn_eq, blocks_apart_confirmed.symm.part_put]
    intro entry member
    rcases shows.confirmed entry member with ⟨transaction, confirmed, same⟩
    refine ⟨transaction, confirmed.mono ?_, same⟩
    rw [List.length_append]
    exact Nat.le_add_right _ _

theorem put_confirmed (shows : Shows chain cursor contents) {transaction : Transaction}
    (confirmed : ConfirmedBelow chain.length transaction) :
    Shows chain cursor (Edit.apply contents (RecordStore.confirmed.putEdit
      (StoreKey.transaction transaction.blockHeight transaction.hash) transaction)) where
  blocks := by
    rw [RecordStore.entriesIn_eq, blocks_apart_confirmed.part_put]
    exact shows.blocks
  cursor := by
    rw [cursors_apart_confirmed.get?_put, shows.cursor]
  confirmed := by
    rintro ⟨key, value⟩ member
    rw [RecordStore.mem_entriesIn, RecordStore.part_put, OrderedMap.get?_insert] at member
    by_cases here : key = RecordStore.confirmed.fullKey
        (StoreKey.transaction transaction.blockHeight transaction.hash)
    · rw [if_pos here] at member
      cases member
      exact ⟨transaction, confirmed, Prod.ext here rfl⟩
    · rw [if_neg here] at member
      exact shows.confirmed _ (RecordStore.mem_entriesIn.mpr member)

theorem put_pending (shows : Shows chain cursor contents) (key : String)
    (transaction : Transaction) :
    Shows chain cursor
      (Edit.apply contents (RecordStore.pending.putEdit key transaction)) where
  blocks := by
    rw [RecordStore.entriesIn_eq, blocks_apart_pending.part_put]
    exact shows.blocks
  cursor := by
    rw [cursors_apart_pending.get?_put, shows.cursor]
  confirmed := by
    rw [RecordStore.entriesIn_eq, confirmed_apart_pending.part_put]
    exact shows.confirmed

theorem put_cursor (shows : Shows chain cursor contents) (tip : Cursor) :
    Shows chain (some tip)
      (Edit.apply contents (RecordStore.cursors.putEdit StoreKey.cursor tip)) where
  blocks := by
    rw [RecordStore.entriesIn_eq, blocks_apart_cursors.part_put]
    exact shows.blocks
  cursor := by
    rw [RecordStore.get?_put, if_pos rfl]
    rfl
  confirmed := by
    rw [RecordStore.entriesIn_eq, cursors_apart_confirmed.symm.part_put]
    exact shows.confirmed

/-! ## Reads -/

/-- The store of a chain has as many blocks as the chain. -/
theorem count (shows : Shows chain cursor contents) :
    (RecordStore.blocks.entriesIn contents).length = chain.length := by
  rw [shows.blocks.length_eq, List.length_map]

theorem get?_block (shows : Shows chain cursor contents) (linked : Chain.Linked chain)
    {height : UInt64} (inside : height.toNat < chain.length) :
    contents.get? (RecordStore.blocks.fullKey (StoreKey.block height)) =
      some (Block.codec.encode chain[height.toNat]) := by
  have same : chain[height.toNat].height = height :=
    UInt64.toNat_inj.mp (linked.height_eq inside)
  have member : blockEntry chain[height.toNat] ∈ RecordStore.blocks.entriesIn contents :=
    shows.blocks.mem_iff.mpr (List.mem_map_of_mem (List.getElem_mem inside))
  have found := RecordStore.mem_entriesIn.mp member
  rw [RecordStore.get?_part_fullKey, same] at found
  exact found

/-- The block store has the heights of the chain and no others. -/
theorem contains_block (shows : Shows chain cursor contents) (linked : Chain.Linked chain)
    (height : UInt64) :
    contents.contains (RecordStore.blocks.fullKey (StoreKey.block height)) = true ↔
      height.toNat < chain.length := by
  constructor
  · intro stored
    rcases OrderedMap.contains_iff.mp stored with ⟨value, found⟩
    rw [← RecordStore.get?_part_fullKey] at found
    rcases List.mem_map.mp (shows.blocks.mem_iff.mp (RecordStore.mem_entriesIn.mpr found)) with
      ⟨block, member, same⟩
    have keys := RecordStore.fullKey_inj.mp (congrArg Prod.fst same)
    rw [← StoreKey.block_inj.mp keys]
    exact linked.height_lt member
  · intro inside
    exact OrderedMap.contains_iff.mpr ⟨_, shows.get?_block linked inside⟩

theorem find_block (shows : Shows chain cursor contents) (linked : Chain.Linked chain)
    (fits : ∀ block ∈ chain, block.Fits) {height : UInt64}
    (inside : height.toNat < chain.length) :
    RecordStore.blocks.find (StoreKey.block height) contents = .ok chain[height.toNat] := by
  rw [RecordStore.find, shows.get?_block linked inside]
  exact RecordStore.readRecord_encode Block.codec_roundTrips
    (fits _ (List.getElem_mem inside))

theorem find_block_none (shows : Shows chain cursor contents) (linked : Chain.Linked chain)
    {height : UInt64} (outside : chain.length ≤ height.toNat) :
    RecordStore.blocks.find (StoreKey.block height) contents =
      .error (.notFound (RecordStore.blocks.keyspace ++ StoreKey.block height)) := by
  have absent : contents.get? (RecordStore.blocks.fullKey (StoreKey.block height)) = none := by
    cases found : contents.get? (RecordStore.blocks.fullKey (StoreKey.block height)) with
    | none => rfl
    | some bytes =>
        have stored := (shows.contains_block linked height).mp
          (OrderedMap.contains_iff.mpr ⟨bytes, found⟩)
        omega
  rw [RecordStore.find, absent]

theorem find_cursor {tip : Cursor} (shows : Shows chain (some tip) contents)
    (fits : tip.Fits) : RecordStore.cursors.find StoreKey.cursor contents = .ok tip := by
  rw [RecordStore.find, shows.cursor]
  exact RecordStore.readRecord_encode Cursor.codec_roundTrips fits

theorem find_cursor_none (shows : Shows chain none contents) :
    RecordStore.cursors.find StoreKey.cursor contents =
      .error (.notFound (RecordStore.cursors.keyspace ++ StoreKey.cursor)) := by
  rw [RecordStore.find, shows.cursor]
  rfl

/-- Above the chain nothing is confirmed. -/
theorem get?_confirmed_none (shows : Shows chain cursor contents) {height : UInt64}
    (above : chain.length ≤ height.toNat) (hash : String) :
    contents.get? (RecordStore.confirmed.fullKey (StoreKey.transaction height hash)) = none := by
  rw [← RecordStore.get?_part_fullKey]
  apply OrderedMap.get?_eq_none_iff.mpr
  intro value member
  rcases shows.confirmed _ (RecordStore.mem_entriesIn.mpr (OrderedMap.mem_entries_iff.mp member))
    with ⟨transaction, confirmed, same⟩
  have keys := StoreKey.transaction_inj.mp (RecordStore.fullKey_inj.mp (congrArg Prod.fst same))
  have below := confirmed.below
  rw [← keys.1] at below
  omega

/-- Contents that show the same chain have the same entries of blocks. -/
theorem entriesIn_blocks_eq {other : Option Cursor} {later : Contents}
    (shows : Shows chain cursor contents) (again : Shows chain other later) :
    RecordStore.blocks.entriesIn later = RecordStore.blocks.entriesIn contents :=
  OrderedMap.eq_of_perm (again.blocks.trans shows.blocks.symm)
    (RecordStore.blocks.part later).increasing (RecordStore.blocks.part contents).increasing

/-- Below sixteen digits the block store lists the chain in its order. -/
theorem entriesIn_blocks (shows : Shows chain cursor contents) (linked : Chain.Linked chain)
    (short : chain.length ≤ 10 ^ 16) :
    RecordStore.blocks.entriesIn contents = chain.map blockEntry := by
  have increasing : (chain.map blockEntry).Pairwise
      fun earlier later => compare earlier.1 later.1 = .lt := by
    apply List.pairwise_iff_getElem.mpr
    intro first second inFirst inSecond less
    rw [List.length_map] at inFirst inSecond
    rw [List.getElem_map, List.getElem_map, blockEntry, blockEntry]
    simp only [RecordStore.entry]
    rw [RecordStore.fullKey_eq_append, RecordStore.fullKey_eq_append,
      Bytes.compare_append_left]
    apply StoreKey.compare_block_of_lt
    · rw [linked.height_eq inFirst, linked.height_eq inSecond]
      exact less
    · rw [linked.height_eq inSecond]
      omega
  exact OrderedMap.eq_of_perm shows.blocks (RecordStore.blocks.part contents).increasing
    increasing

/-- Below sixteen digits the blocks are read as the chain. -/
theorem read_blocks (shows : Shows chain cursor contents) (linked : Chain.Linked chain)
    (fits : ∀ block ∈ chain, block.Fits) (short : chain.length ≤ 10 ^ 16) :
    (RecordStore.blocks.entriesIn contents).mapM RecordStore.blocks.readEntry =
      .ok (chain.map fun block => (StoreKey.block block.height, block)) := by
  rw [shows.entriesIn_blocks linked short]
  exact RecordStore.mapM_readEntry Block.codec_roundTrips fits
    fun block => StoreKey.block block.height

/-- The confirmed transactions are read as transactions of the chain. -/
theorem read_confirmed (shows : Shows chain cursor contents) :
    ∃ transactions : List Transaction,
      (∀ transaction ∈ transactions, ConfirmedBelow chain.length transaction) ∧
        (RecordStore.confirmed.entriesIn contents).mapM RecordStore.confirmed.readEntry =
          .ok (transactions.map fun transaction =>
            (StoreKey.transaction transaction.blockHeight transaction.hash, transaction)) := by
  rcases RecordStore.exists_map_eq shows.confirmed with ⟨transactions, below, same⟩
  refine ⟨transactions, below, ?_⟩
  rw [same]
  exact RecordStore.mapM_readEntry Transaction.codec_roundTrips
    (fun transaction member => (below transaction member).fits)
    fun transaction => StoreKey.transaction transaction.blockHeight transaction.hash

end Shows

end Ledger

end LedgerNode
