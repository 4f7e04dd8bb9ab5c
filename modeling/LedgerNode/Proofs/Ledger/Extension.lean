import LedgerNode.Proofs.Ledger.Terms

namespace LedgerNode

/-!
# What the calls that extend a ledger do

Each call that takes the lock is described from the picture that it finds.  A
commit puts one block behind the tip and leaves the cursor at it.  What waited
behind that block follows in the same way.  Every other answer leaves the
picture as it was.

Loose transactions are stored by guests.  They leave every picture alone.
-/

/-- A block with its transactions, all of which fit into a machine. -/
structure WaitingBlock.Fits (parcel : WaitingBlock) : Prop where
  block : parcel.block.Fits
  transactions : ∀ transaction ∈ parcel.transactions, transaction.Fits

/-- All waiting blocks fit into a machine. -/
def WaitingBlocks.Fit (waiting : WaitingBlocks) : Prop :=
  ∀ entry ∈ waiting.entries, entry.2.Fits

namespace Ledger

open StoreAction (Returns)

/-! ## Edits and growth -/

/-- The edit that confirms a transaction. -/
def confirmEdit (height : UInt64) (transaction : Transaction) : Edit :=
  RecordStore.confirmed.putEdit (StoreKey.transaction height transaction.hash)
    (transaction.confirmedAt height)

/-- The edits of a commit, in their order. -/
def commitEdits (parcel : WaitingBlock) : List Edit :=
  RecordStore.blocks.putEdit (StoreKey.block parcel.block.height) parcel.block ::
    (parcel.transactions.map (confirmEdit parcel.block.height) ++
      [RecordStore.cursors.putEdit StoreKey.cursor (.ofBlock parcel.block)])

/-- The blocks of the parcels extend a chain one after another. -/
def Follows : Cursor → List WaitingBlock → Prop
  | _, [] => True
  | tip, parcel :: rest => tip.ExtendedBy parcel.block ∧ Follows (.ofBlock parcel.block) rest

/-- One picture leads to another by the commits of these parcels. -/
structure Picture.ExtendedBy (before : Picture) (parcels : List WaitingBlock)
    (after : Picture) : Prop where
  chain : after.chain = before.chain ++ parcels.map (·.block)
  settled : after.Settled
  written : after.written = before.written ++ parcels.flatMap commitEdits

namespace Picture.ExtendedBy

theorem refl {picture : Picture} (settled : picture.Settled) : picture.ExtendedBy [] picture where
  chain := (List.append_nil _).symm
  settled := settled
  written := (List.append_nil _).symm

theorem trans {first second third : Picture} {front back : List WaitingBlock}
    (one : first.ExtendedBy front second) (other : second.ExtendedBy back third) :
    first.ExtendedBy (front ++ back) third where
  chain := by rw [other.chain, one.chain, List.map_append, List.append_assoc]
  settled := other.settled
  written := by rw [other.written, one.written, List.flatMap_append, List.append_assoc]

theorem tip_singleton {before after : Picture} {parcel : WaitingBlock}
    (extended : before.ExtendedBy [parcel] after) :
    Chain.tip after.chain = some (.ofBlock parcel.block) := by
  rw [extended.chain]
  exact Chain.tip_append_singleton _ _

end Picture.ExtendedBy

/-! ## Commits -/

theorem storeConfirmed_cons (height : UInt64) (transaction : Transaction)
    (transactions : List Transaction) :
    storeConfirmed height (transaction :: transactions) = (do
      RecordStore.confirmed.put (StoreKey.transaction height transaction.hash)
        (transaction.confirmedAt height)
      storeConfirmed height transactions) := rfl

theorem storeConfirmed_meets (picture : Picture) {height : UInt64}
    {transactions : List Transaction} (positive : 0 < height.toNat)
    (below : height.toNat < picture.chain.length)
    (fits : ∀ transaction ∈ transactions, transaction.Fits) :
    (storeConfirmed height transactions).Meets holder (Returns fun _ after =>
      after.chain = picture.chain ∧ after.cursor = picture.cursor ∧
        after.written = picture.written ++ transactions.map (confirmEdit height)) picture := by
  induction transactions generalizing picture with
  | nil => exact ⟨rfl, rfl, (List.append_nil _).symm⟩
  | cons transaction transactions ih =>
      rcases List.forall_mem_cons.mp fits with ⟨head, tail⟩
      have confirmed : ConfirmedBelow picture.chain.length (transaction.confirmedAt height) :=
        ⟨head.confirmedAt height, positive, below⟩
      rw [storeConfirmed_cons]
      apply holder_put_confirmed confirmed
      apply (ih (picture.record _) below tail).weaken
      rintro _ after ⟨chain, cursor, written⟩
      refine ⟨chain, cursor, ?_⟩
      rw [written, List.map_cons, List.append_cons]
      rfl

/-- A commit puts its block behind the tip and moves the cursor to it. -/
theorem commit_meets {parcel : WaitingBlock} {tip : Cursor} {picture : Picture}
    (settled : picture.Settled) (last : Chain.tip picture.chain = some tip)
    (follows : tip.ExtendedBy parcel.block) (fits : parcel.Fits) :
    (commit parcel.block parcel.transactions).Meets holder (Returns fun cursor after =>
      cursor = .ofBlock parcel.block ∧ picture.ExtendedBy [parcel] after) picture := by
  have linked := picture.linked.append last follows
  have height : parcel.block.height.toNat = picture.chain.length := by
    rw [follows.1, picture.linked.tip_height last]
  have positive : 0 < parcel.block.height.toNat := by
    rw [follows.1]
    exact Nat.succ_pos _
  have below : parcel.block.height.toNat < (picture.chain ++ [parcel.block]).length := by
    rw [height, List.length_append]
    exact Nat.lt_succ_self _
  rw [commit]
  apply holder_put_block settled linked fits.block
  apply StoreAction.Meets.bind_returns (storeConfirmed_meets _ positive below fits.transactions)
  rintro _ stored ⟨chain, -, written⟩
  have reached : Chain.tip stored.chain = some (.ofBlock parcel.block) := by
    rw [chain]
    exact Chain.tip_append_singleton _ _
  apply holder_put_cursor reached
  refine ⟨rfl, ⟨chain, reached.symm, ?_⟩⟩
  simp [Picture.settle, written, Picture.push, commitEdits]

/-- The edits that start a chain. -/
def startEdits : List Edit :=
  [RecordStore.blocks.putEdit (StoreKey.block 0) Block.genesis,
    RecordStore.cursors.putEdit StoreKey.cursor Cursor.genesis]

theorem start_meets {picture : Picture} (settled : picture.Settled)
    (nothing : picture.chain = []) :
    start.Meets holder (Returns fun cursor after => cursor = Cursor.genesis ∧
      after.chain = [Block.genesis] ∧ after.Settled ∧
        after.written = picture.written ++ startEdits) picture := by
  have linked : Chain.Linked (picture.chain ++ [Block.genesis]) := by
    rw [nothing]
    exact Chain.linked_genesis
  have last : Chain.tip (picture.chain ++ [Block.genesis]) = some Cursor.genesis :=
    Chain.tip_append_singleton _ _
  rw [start]
  apply holder_put_block settled linked Block.fits_genesis
  apply holder_put_cursor last
  refine ⟨rfl, ?_, last.symm, ?_⟩
  · change picture.chain ++ [Block.genesis] = [Block.genesis]
    rw [nothing]
    rfl
  · exact List.append_assoc _ _ _

/-! ## Blocks of this node -/

/-- A block of this node, with its own transactions. -/
def ownParcel (block : Block) : WaitingBlock := ⟨block, block.transactions⟩

theorem ownParcel_fits {block : Block} (fits : block.Fits) : (ownParcel block).Fits :=
  ⟨fits, fits.transactions⟩

/-- An append stores its block behind the tip, or nothing. -/
theorem append_meets {block : Block} {picture : Picture} (settled : picture.Settled)
    (fits : block.Fits) :
    (append block).Meets holder (fun outcome after =>
      match outcome with
      | .ok tip => tip = .ofBlock block ∧ picture.ExtendedBy [ownParcel block] after
      | .error _ => after = picture) picture := by
  rw [append]
  apply StoreAction.Meets.bind
  apply cursor_meets settled
  · intro nothing
    rfl
  · intro tip last
    dsimp only
    by_cases follows : tip.ExtendedBy block
    · rw [if_pos follows]
      apply (commit_meets settled last follows (ownParcel_fits fits)).imp
      intro outcome after reached
      cases outcome with
      | ok tip => exact reached
      | error fault => exact reached.elim
    · rw [if_neg follows]
      rfl

/-- A built block is stored behind the tip that it was built for, or nothing
is. -/
theorem appendBuilt_meets {build : Cursor → Block} {picture : Picture}
    (settled : picture.Settled) (fits : ∀ tip : Cursor, tip.Fits → (build tip).Fits) :
    (appendBuilt build).Meets holder (fun outcome after =>
      match outcome with
      | .ok block => (∃ tip : Cursor, tip.ExtendedBy block ∧ build tip = block) ∧
          picture.ExtendedBy [ownParcel block] after
      | .error _ => after = picture) picture := by
  rw [appendBuilt]
  apply StoreAction.Meets.bind
  apply cursor_meets settled
  · intro nothing
    rfl
  · intro tip last
    dsimp only
    by_cases follows : tip.ExtendedBy (build tip)
    · have fitting := fits tip (Picture.cursor_fits (settled.trans last))
      rw [if_pos follows]
      apply StoreAction.Meets.bind_returns
        (commit_meets settled last follows (ownParcel_fits fitting))
      rintro _ after ⟨-, extended⟩
      exact ⟨⟨tip, follows, rfl⟩, extended⟩
    · rw [if_neg follows]
      rfl

end Ledger

end LedgerNode
