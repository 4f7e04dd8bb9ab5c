import LedgerNode.Proofs.Ledger.Integrity

namespace LedgerNode

/-!
# What is read from an open store

All that a node reads of its ledger can be told from the picture that the
contents show.  If the cursor is at the tip, the reads agree with each other:
the store is found sound, its blocks have the heights up to the tip, and every
confirmed transaction belongs to one of them.
-/

namespace Ledger

/-- The store is found sound, and its records agree on the tip. -/
structure Consistent (engine : Engine) (tip : Cursor) : Prop where
  /-- The inspection succeeds, and the cursor is at the end of the chain. -/
  report : ∃ report, inspect.run engine = (.ok report, engine) ∧
    report.isCurrent = true ∧ report.tip = some tip
  stored : cursor.run engine = (.ok tip, engine)
  /-- The listed blocks are a chain. -/
  blocks : ∃ blocks, RecordStore.blocks.values.run engine = (.ok blocks, engine) ∧
    Chain.verify blocks = .ok (some tip)
  /-- The keys of the blocks are those of the heights up to the tip. -/
  keys : RecordStore.blocks.keys.run engine =
    (.ok ((List.range (tip.height.toNat + 1)).map fun height =>
      StoreKey.block (UInt64.ofNat height)), engine)
  heights : ∀ height ≤ tip.height, ∃ block, (Ledger.block height).run engine =
    (.ok block, engine) ∧ block.height = height
  /-- Every confirmed transaction lies under its own key and has a stored block
  above genesis. -/
  confirmed : ∃ entries, RecordStore.confirmed.entries.run engine = (.ok entries, engine) ∧
    ∀ entry ∈ entries, entry.1 = StoreKey.transaction entry.2.blockHeight entry.2.hash ∧
      1 ≤ entry.2.blockHeight ∧ entry.2.blockHeight ≤ tip.height ∧
      (RecordStore.blocks.has (StoreKey.block entry.2.blockHeight)).run engine =
        (.ok true, engine)

namespace Shows

variable {chain : List Block} {cursor : Option Cursor} {engine : Engine}

theorem run_block (shows : Shows chain cursor engine.contents) (linked : Chain.Linked chain)
    (fits : ∀ block ∈ chain, block.Fits) (isOpen : engine.isOpen = true) {height : UInt64}
    (inside : height.toNat < chain.length) :
    (Ledger.block height).run engine = (.ok chain[height.toNat], engine) := by
  rw [Ledger.block, RecordStore.get_eq_reading, StoreAction.run_reading isOpen,
    shows.find_block linked fits inside]

theorem run_block_none (shows : Shows chain cursor engine.contents)
    (linked : Chain.Linked chain) (isOpen : engine.isOpen = true) {height : UInt64}
    (outside : chain.length ≤ height.toNat) :
    (Ledger.block height).run engine =
      (.error (.notFound (RecordStore.blocks.keyspace ++ StoreKey.block height)), engine) := by
  rw [Ledger.block, RecordStore.get_eq_reading, StoreAction.run_reading isOpen,
    shows.find_block_none linked outside]

theorem run_values (shows : Shows chain cursor engine.contents) (linked : Chain.Linked chain)
    (fits : ∀ block ∈ chain, block.Fits) (isOpen : engine.isOpen = true)
    (short : chain.length ≤ 10 ^ 16) :
    RecordStore.blocks.values.run engine = (.ok chain, engine) := by
  rw [RecordStore.values_eq_reading, StoreAction.run_reading isOpen,
    shows.read_blocks linked fits short]
  simp only [Except.map, RecordStore.map_snd_keyed]

end Shows

namespace Picture.Depicts

variable {picture : Picture} {engine : Engine} {tip : Cursor}

theorem run_inspect (depicts : picture.Depicts engine.contents) (isOpen : engine.isOpen = true)
    (short : picture.chain.length ≤ 10 ^ 16) :
    inspect.run engine = (.ok ⟨Chain.tip picture.chain, picture.cursor⟩, engine) := by
  rcases run_holder_returns (inspect_meets short) isOpen depicts with
    ⟨report, edits, after, ran, wrote, _, _, same, still⟩
  rw [still] at wrote
  have nothing : edits = [] := List.append_right_eq_self.mp wrote.symm
  rw [ran, same, nothing]
  rfl

theorem run_cursor (depicts : picture.Depicts engine.contents) (isOpen : engine.isOpen = true)
    (stored : picture.cursor = some tip) :
    Ledger.cursor.run engine = (.ok tip, engine) := by
  have seen : Shows picture.chain (some tip) engine.contents := stored ▸ depicts
  rw [Ledger.cursor, RecordStore.get_eq_reading, StoreAction.run_reading isOpen,
    seen.find_cursor (Picture.cursor_fits stored)]

theorem run_block (depicts : picture.Depicts engine.contents) (isOpen : engine.isOpen = true)
    {height : UInt64} (inside : height.toNat < picture.chain.length) :
    (Ledger.block height).run engine = (.ok picture.chain[height.toNat], engine) :=
  Shows.run_block depicts picture.linked picture.fits isOpen inside

theorem run_values (depicts : picture.Depicts engine.contents) (isOpen : engine.isOpen = true)
    (short : picture.chain.length ≤ 10 ^ 16) :
    RecordStore.blocks.values.run engine = (.ok picture.chain, engine) :=
  Shows.run_values depicts picture.linked picture.fits isOpen short

theorem run_keys (depicts : picture.Depicts engine.contents) (isOpen : engine.isOpen = true)
    (short : picture.chain.length ≤ 10 ^ 16) :
    RecordStore.blocks.keys.run engine =
      (.ok ((List.range picture.chain.length).map fun height =>
        StoreKey.block (UInt64.ofNat height)), engine) := by
  rw [RecordStore.keys_eq_reading, StoreAction.run_reading isOpen,
    Shows.entriesIn_blocks depicts picture.linked short]
  have read : (picture.chain.map blockEntry).mapM
      (fun entry => RecordStore.blocks.readKey entry.1) =
      .ok (picture.chain.map fun block => StoreKey.block block.height) := by
    apply RecordStore.mapM_map_eq_ok
    intro block _
    exact RecordStore.readKey_fullKey _ _
  have ordered : (picture.chain.map fun block => StoreKey.block block.height) =
      (List.range picture.chain.length).map fun height =>
        StoreKey.block (UInt64.ofNat height) := by
    apply List.ext_getElem
    · simp
    · intro index inside _
      rw [List.length_map] at inside
      have height := congrArg UInt64.ofNat (picture.linked.height_eq inside)
      rw [UInt64.ofNat_toNat] at height
      rw [List.getElem_map, List.getElem_map, List.getElem_range, height]
  rw [read, ordered]

theorem run_entries (depicts : picture.Depicts engine.contents)
    (isOpen : engine.isOpen = true) :
    ∃ transactions : List Transaction,
      (∀ transaction ∈ transactions, ConfirmedBelow picture.chain.length transaction) ∧
        RecordStore.confirmed.entries.run engine =
          (.ok (transactions.map fun transaction =>
            (StoreKey.transaction transaction.blockHeight transaction.hash, transaction)),
            engine) := by
  rcases Shows.read_confirmed depicts with ⟨transactions, below, read⟩
  refine ⟨transactions, below, ?_⟩
  rw [RecordStore.entries_eq_reading, StoreAction.run_reading isOpen, read]

theorem run_has (depicts : picture.Depicts engine.contents) (isOpen : engine.isOpen = true)
    {height : UInt64} (inside : height.toNat < picture.chain.length) :
    (RecordStore.blocks.has (StoreKey.block height)).run engine = (.ok true, engine) := by
  rw [RecordStore.has_eq_reading, StoreAction.run_reading isOpen,
    (Shows.contains_block depicts picture.linked height).mpr inside]

/-- With the cursor at the tip, the store of a short chain is consistent. -/
theorem consistent (depicts : picture.Depicts engine.contents) (isOpen : engine.isOpen = true)
    (settled : picture.Settled) (last : Chain.tip picture.chain = some tip)
    (short : picture.chain.length ≤ 10 ^ 16) : Consistent engine tip := by
  have length := picture.linked.tip_height last
  have linked : Chain.verify picture.chain = .ok (Chain.tip picture.chain) := picture.linked
  constructor
  · refine ⟨_, depicts.run_inspect isOpen short, ?_, last⟩
    rw [settled, last, Report.isCurrent, Option.isSome_some, Bool.true_and]
    exact beq_self_eq_true _
  · exact depicts.run_cursor isOpen (settled.trans last)
  · exact ⟨_, depicts.run_values isOpen short, linked.trans (congrArg Except.ok last)⟩
  · rw [length]
    exact depicts.run_keys isOpen short
  · intro height below
    have inside : height.toNat < picture.chain.length := by
      have order := UInt64.le_iff_toNat_le.mp below
      omega
    exact ⟨_, depicts.run_block isOpen inside,
      UInt64.toNat_inj.mp (picture.linked.height_eq inside)⟩
  · rcases depicts.run_entries isOpen with ⟨transactions, below, read⟩
    refine ⟨_, read, ?_⟩
    intro entry member
    rcases List.mem_map.mp member with ⟨transaction, inside, same⟩
    have confirmed := below transaction inside
    subst same
    refine ⟨rfl, ?_, ?_, depicts.run_has isOpen confirmed.below⟩
    · exact UInt64.le_iff_toNat_le.mpr confirmed.positive
    · apply UInt64.le_iff_toNat_le.mpr
      have order := confirmed.below
      dsimp only
      omega

end Picture.Depicts

end Ledger

end LedgerNode
