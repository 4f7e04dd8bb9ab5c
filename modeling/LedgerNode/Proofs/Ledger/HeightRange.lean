import Mathlib.Data.List.Nodup
import LedgerNode.Ledger.Action
import LedgerNode.Proofs.Ledger.Format
import LedgerNode.Proofs.Store.Layout
import LedgerNode.Proofs.Store.Tables

namespace LedgerNode

/-!
# Ranges of heights

Blocks lie under keys of sixteen digits, and a range of blocks is a range of
keys.  Keys are compared as bytes.  A bound may be any number, so that its key
can be longer than those of the blocks, and an empty range is found out by
comparing the keys of its bounds.  As long as no block needs the first of its
digits, all this comes to comparing numbers: a bound that is too long begins
with a greater digit than every block does.
-/

namespace Ledger

/-- Store blocks, each under the height that comes with it. -/
def storeAt (blocks : List (UInt64 × Block)) : StoreAction Unit :=
  blocks.forM fun entry => RecordStore.blocks.put (StoreKey.block entry.1) entry.2

/-- The blocks are listed by their heights, and so is every range of them. -/
structure ListsByHeight (engine : Engine) (blocks : List (UInt64 × Block)) : Prop where
  increasing : blocks.Pairwise fun earlier later => earlier.1 < later.1
  keys : RecordStore.blocks.keys.run engine =
    (.ok (blocks.map fun entry => StoreKey.block entry.1), engine)
  between : ∀ first bound : UInt64, (blocksBetween first bound).run engine =
    (.ok ((blocks.filter fun entry => first ≤ entry.1 ∧ entry.1 < bound).map (·.2)), engine)

/-- Blocks that a new block store can take, each under a height of its own that
has at most fifteen digits. -/
structure Storable (engine : Engine) (blocks : List (UInt64 × Block)) : Prop where
  isOpen : engine.isOpen = true
  unused : RecordStore.blocks.entriesIn engine.contents = []
  distinct : (blocks.map (·.1)).Nodup
  low : ∀ entry ∈ blocks, entry.1.toNat < 10 ^ 15
  fits : ∀ entry ∈ blocks, entry.2.Fits

/-! ## Keys and heights -/

variable {engine : Engine} {blocks ordered : List (UInt64 × Block)}

/-- The changes that store the blocks. -/
def changesAt (blocks : List (UInt64 × Block)) : List (TableChange Block) :=
  blocks.map fun entry => .put (StoreKey.block entry.1) entry.2

/-- The keys of a low height and of any two bounds are compared as the numbers
are. -/
theorem within_block {height : UInt64} (low : height.toNat < 10 ^ 15) (first bound : UInt64) :
    Table.within (StoreKey.block first) (StoreKey.block bound) (StoreKey.block height) =
      decide (first ≤ height ∧ height < bound) := by
  have above : compare (Bytes.ofText (StoreKey.block first))
      (Bytes.ofText (StoreKey.block height)) ≠ .gt ↔ first.toNat ≤ height.toNat := by
    rw [Ne, Std.OrientedCmp.gt_iff_lt, StoreKey.compare_block low, Nat.compare_eq_lt, Nat.not_lt]
  have below : compare (Bytes.ofText (StoreKey.block height))
      (Bytes.ofText (StoreKey.block bound)) = .lt ↔ height.toNat < bound.toNat := by
    rw [StoreKey.compare_block low, Nat.compare_eq_lt]
  rw [Bool.eq_iff_iff, Table.within, Bool.and_eq_true, bne_iff_ne, beq_iff_eq, above, below,
    decide_eq_true_eq, UInt64.le_iff_toNat_le, UInt64.lt_iff_toNat_lt]

theorem storeAt_does (isOpen : engine.isOpen = true) (blocks : List (UInt64 × Block)) :
    (storeAt blocks).Does engine ()
      ((changesAt blocks).map RecordStore.blocks.editOf) := by
  induction blocks generalizing engine with
  | nil => exact StoreAction.does_pure engine ()
  | cons entry rest ih =>
      have first := RecordStore.blocks.does_put isOpen (StoreKey.block entry.1) entry.2
      have steps : storeAt (entry :: rest) =
          (RecordStore.blocks.put (StoreKey.block entry.1) entry.2 >>= fun _ => storeAt rest) :=
        rfl
      rw [steps]
      exact first.bind (ih isOpen)

/-- The block store keeps the table of the stored blocks. -/
theorem Storable.keeps (storable : Storable engine blocks) :
    RecordStore.blocks.Keeps Block.Fits (Table.empty.changeAll (changesAt blocks))
      (engine.edited ((changesAt blocks).map RecordStore.blocks.editOf)).contents := by
  apply (RecordStore.Keeps.of_entriesIn_nil storable.unused Block.Fits).applyAll
  intro change member record brought
  rcases List.mem_map.mp member with ⟨entry, inside, rfl⟩
  cases brought
  exact storable.fits entry inside

/-- What the table has under a key is a block that was stored at a height with
this key. -/
theorem Storable.table_iff (storable : Storable engine blocks) {key : String} {block : Block} :
    Table.empty.changeAll (changesAt blocks) key = some block ↔
      ∃ height, (height, block) ∈ blocks ∧ StoreKey.block height = key := by
  have distinct : ((blocks.map fun entry => (StoreKey.block entry.1, entry.2)).map
      (·.1)).Nodup := by
    have injective : Function.Injective StoreKey.block := fun _ _ => StoreKey.block_inj.mp
    have keys := storable.distinct.map injective
    rwa [List.map_map] at keys ⊢
  have filled : _ ↔ (key, block) ∈ _ := Table.changeAll_put_iff distinct
  rw [List.map_map] at filled
  refine filled.trans ?_
  rw [List.mem_map]
  constructor
  · rintro ⟨⟨height, stored⟩, member, same⟩
    cases same
    exact ⟨height, member, rfl⟩
  · rintro ⟨height, member, rfl⟩
    exact ⟨(height, block), member, rfl⟩

/-- Entries of the table in the order of their keys are the stored blocks in the
order of their heights. -/
theorem Storable.exists_ordered (storable : Storable engine blocks)
    {entries : List (String × Block)}
    (lists : (Table.empty.changeAll (changesAt blocks)).Lists entries) :
    ∃ ordered : List (UInt64 × Block), ordered.Perm blocks ∧
      (ordered.Pairwise fun earlier later => earlier.1 < later.1) ∧
      entries = ordered.map fun entry => (StoreKey.block entry.1, entry.2) := by
  have each : ∀ entry ∈ entries, ∃ stored : UInt64 × Block,
      stored ∈ blocks ∧ entry = (StoreKey.block stored.1, stored.2) := by
    intro entry member
    rcases storable.table_iff.mp ((lists.mem_iff _ _).mp member) with ⟨height, inside, same⟩
    exact ⟨(height, entry.2), inside, Prod.ext same.symm rfl⟩
  rcases RecordStore.exists_map_eq each with ⟨ordered, inside, same⟩
  have increasing : ordered.Pairwise fun earlier later => earlier.1 < later.1 := by
    have keys := lists.increasing
    rw [same, List.pairwise_map] at keys
    apply keys.imp_of_mem
    intro earlier later member _ less
    dsimp only at less
    rw [StoreKey.compare_block (storable.low _ (inside _ member)), Nat.compare_eq_lt] at less
    exact UInt64.lt_iff_toNat_lt.mpr less
  refine ⟨ordered, ?_, increasing, same⟩
  have nodup : ordered.Nodup := by
    apply increasing.imp
    rintro earlier later less rfl
    exact UInt64.lt_irrefl _ less
  apply (List.perm_ext_iff_of_nodup nodup (List.Nodup.of_map _ storable.distinct)).mpr
  intro stored
  constructor
  · exact inside stored
  · intro member
    have listed := (lists.mem_iff _ _).mpr (storable.table_iff.mpr ⟨stored.1, member, rfl⟩)
    rw [same] at listed
    rcases List.mem_map.mp listed with ⟨other, there, equal⟩
    rcases Prod.mk.inj equal with ⟨keys, records⟩
    have found : other = stored := Prod.ext (StoreKey.block_inj.mp keys) records
    exact found ▸ there

/-- Whatever the order in which they were stored, the blocks are listed by their
heights. -/
theorem Storable.listsByHeight (storable : Storable engine blocks) :
    ∃ after ordered, (storeAt blocks).run engine = (.ok (), after) ∧ ordered.Perm blocks ∧
      ListsByHeight after ordered := by
  have isOpen := Engine.isOpen_edited storable.isOpen
    ((changesAt blocks).map RecordStore.blocks.editOf)
  rcases (storable.keeps.reports Block.codec_roundTrips isOpen).lists with
    ⟨entries, lists, keys, _, _, _, range⟩
  rcases storable.exists_ordered lists with ⟨ordered, permuted, increasing, same⟩
  refine ⟨_, ordered, storeAt_does storable.isOpen blocks, permuted, increasing, ?_, ?_⟩
  · rw [keys, same, List.map_map]
    rfl
  · intro first bound
    have inside : ∀ entry ∈ ordered, Table.within (StoreKey.block first) (StoreKey.block bound)
        (StoreKey.block entry.1) = decide (first ≤ entry.1 ∧ entry.1 < bound) :=
      fun entry member => within_block (storable.low _ (permuted.mem_iff.mp member)) first bound
    rw [blocksBetween, range, same, List.filter_map, List.map_map, ← List.filter_congr inside]
    rfl

/-- Blocks up to fifteen digits are found by the numbers of their heights, in
the whole store and between any two bounds.  The key of a block tells its
height, and the key of a transaction tells its height and its hash. -/
theorem height_ranges_numeric :
    (∀ engine blocks, Storable engine blocks →
      ∃ after ordered, (storeAt blocks).run engine = (.ok (), after) ∧ ordered.Perm blocks ∧
        ListsByHeight after ordered) ∧
    (∀ first second, StoreKey.block first = StoreKey.block second → first = second) ∧
    ∀ first second left right,
      StoreKey.transaction first left = StoreKey.transaction second right →
        first = second ∧ left = right :=
  ⟨fun _ _ => Storable.listsByHeight, fun _ _ => StoreKey.block_inj.mp,
    fun _ _ _ _ => StoreKey.transaction_inj.mp⟩

/-- Blocks with nothing but their heights. -/
def bareBlocks (heights : List UInt64) : List (UInt64 × Block) :=
  heights.map fun height => (height, { Block.genesis with height })

theorem fits_bareBlocks {heights : List UInt64} :
    ∀ entry ∈ bareBlocks heights, entry.2.Fits := by
  intro entry member
  rcases List.mem_map.mp member with ⟨height, _, rfl⟩
  have genesis := Block.fits_genesis
  exact ⟨genesis.hash, genesis.previousHash, genesis.merkleRoot, genesis.count,
    genesis.transactions⟩

/-- Five blocks that were stored in a mixed order, between one and a number of
twenty digits, and between two bounds that are too long. -/
theorem height_ranges_numeric_mixed :
    Storable (Engine.create "data") (bareBlocks [11, 2, 0, 100, 1]) ∧
      ∃ after, (storeAt (bareBlocks [11, 2, 0, 100, 1])).run (Engine.create "data") =
          (.ok (), after) ∧
        (blocksBetween 1 10000000000000000000).run after =
          (.ok ((bareBlocks [1, 2, 11, 100]).map (·.2)), after) ∧
        (blocksBetween 20000000000000000 100000000000000000).run after = (.ok [], after) := by
  have storable : Storable (Engine.create "data") (bareBlocks [11, 2, 0, 100, 1]) :=
    ⟨rfl, rfl, by decide, by decide, fits_bareBlocks⟩
  rcases height_ranges_numeric.1 _ _ storable with ⟨after, ordered, stored, permuted, lists⟩
  have sorted : (bareBlocks [0, 1, 2, 11, 100]).Pairwise
      fun earlier later => earlier.1 < later.1 := by decide
  have same : ordered = bareBlocks [0, 1, 2, 11, 100] := by
    have shuffled : (bareBlocks [11, 2, 0, 100, 1]).Perm (bareBlocks [0, 1, 2, 11, 100]) := by
      decide
    apply (permuted.trans shuffled).eq_of_pairwise _ lists.increasing sorted
    intro earlier later _ _ less greater
    exact absurd (UInt64.lt_trans less greater) (UInt64.lt_irrefl _)
  subst same
  exact ⟨storable, after, stored, lists.between _ _, lists.between _ _⟩

end Ledger

end LedgerNode
