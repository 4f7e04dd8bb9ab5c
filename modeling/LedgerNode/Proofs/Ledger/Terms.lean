import LedgerNode.Proofs.Ledger.Picture

namespace LedgerNode

/-!
# The terms on which calls share a ledger

Calls that move the cursor exclude each other by a lock.  The holder of the
lock relies on nobody else touching the chain or the cursor, and grants that
the chain only grows and that the cursor is never more than one block behind.
Its picture also remembers what it wrote.  The storing of loose transactions
needs no lock.  Such a guest relies on the growth of the chain only, and grants
that chain and cursor stay as they are.

Every picture in between is one that a crash may leave behind.
-/

namespace Ledger

/-- A chain with its cursor, and the edits that the holder of the lock has
written.  While a block is being committed, the cursor still names the block
before it. -/
@[ext]
structure Picture where
  chain : List Block
  cursor : Option Cursor
  written : List Edit
  linked : Chain.Linked chain
  fits : ∀ block ∈ chain, block.Fits
  near : cursor = Chain.tip chain ∨ cursor = Chain.tip chain.dropLast

namespace Picture

/-- Nothing is stored and nothing was written. -/
def empty : Picture where
  chain := []
  cursor := none
  written := []
  linked := Chain.linked_nil
  fits := List.forall_mem_nil _
  near := .inl rfl

/-- The cursor names the last block. -/
def Settled (picture : Picture) : Prop := picture.cursor = Chain.tip picture.chain

theorem cursor_fits {picture : Picture} {cursor : Cursor}
    (stored : picture.cursor = some cursor) : cursor.Fits := by
  have ⟨block, member, same⟩ : ∃ block ∈ picture.chain, Cursor.ofBlock block = cursor := by
    rcases picture.near with atTip | before
    · exact Chain.mem_of_tip (atTip.symm.trans stored)
    · rcases Chain.mem_of_tip (before.symm.trans stored) with ⟨block, member, same⟩
      exact ⟨block, List.dropLast_subset _ member, same⟩
  rw [← same]
  exact Cursor.fits_ofBlock (picture.fits block member)

/-- The contents show the chain and the cursor of the picture. -/
def Depicts (picture : Picture) (contents : Contents) : Prop :=
  Shows picture.chain picture.cursor contents

/-- The picture after a write that changes neither chain nor cursor. -/
def record (picture : Picture) (edit : Edit) : Picture :=
  { picture with written := picture.written ++ [edit] }

/-- The picture after a block was put on top of the chain. -/
def push (picture : Picture) (block : Block) (settled : picture.Settled)
    (linked : Chain.Linked (picture.chain ++ [block])) (fits : block.Fits) : Picture where
  chain := picture.chain ++ [block]
  cursor := picture.cursor
  written := picture.written ++
    [RecordStore.blocks.putEdit (StoreKey.block block.height) block]
  linked := linked
  fits := List.forall_mem_append.mpr ⟨picture.fits, List.forall_mem_singleton.mpr fits⟩
  near := .inr (by
    rw [List.dropLast_concat]
    exact settled)

/-- The picture after the cursor was moved to the tip. -/
def settle (picture : Picture) (tip : Cursor) (last : Chain.tip picture.chain = some tip) :
    Picture where
  chain := picture.chain
  cursor := some tip
  written := picture.written ++ [RecordStore.cursors.putEdit StoreKey.cursor tip]
  linked := picture.linked
  fits := picture.fits
  near := .inl last.symm

end Picture

/-- The terms of the holder of the lock. -/
def holder : Terms Picture where
  shows := Picture.Depicts
  rely before later := later = before
  guarantee edits before after :=
    before.chain <+: after.chain ∧ after.written = before.written ++ edits

/-- The terms of those who store loose transactions. -/
def guest : Terms Picture where
  shows := Picture.Depicts
  rely before later := before.chain <+: later.chain
  guarantee _ before after := after = before

/-! ## Writes of the holder -/

section Writes

variable {goal : Except Fault Value → Picture → Prop} {next : Unit → StoreAction Value}
  {picture : Picture}

/-- A write of the holder leads from its picture to another that shows what
the write did. -/
theorem holder_write {edit : Edit} (after : Picture)
    (grown : picture.chain <+: after.chain) (wrote : after.written = picture.written ++ [edit])
    (shows : ∀ contents, picture.Depicts contents → after.Depicts (Edit.apply contents edit))
    (holds : (next ()).Meets holder goal after) :
    (StoreAction.write [edit] >>= next).Meets holder goal picture := by
  apply StoreAction.meets_write_bind
  rintro later rfl
  exact ⟨after, ⟨grown, wrote⟩, shows, holds⟩

theorem holder_put_block {block : Block} (settled : picture.Settled)
    (linked : Chain.Linked (picture.chain ++ [block])) (fits : block.Fits)
    (holds : (next ()).Meets holder goal (picture.push block settled linked fits)) :
    (RecordStore.blocks.put (StoreKey.block block.height) block >>= next).Meets holder goal
      picture := by
  apply holder_write (picture.push block settled linked fits) (List.prefix_append _ _) rfl _
    holds
  intro contents shown
  exact shown.put_block picture.linked linked.height_last

theorem holder_put_confirmed {transaction : Transaction}
    (confirmed : ConfirmedBelow picture.chain.length transaction)
    (holds : (next ()).Meets holder goal (picture.record (RecordStore.confirmed.putEdit
      (StoreKey.transaction transaction.blockHeight transaction.hash) transaction))) :
    (RecordStore.confirmed.put (StoreKey.transaction transaction.blockHeight transaction.hash)
      transaction >>= next).Meets holder goal picture := by
  refine holder_write (picture.record _) ?_ rfl ?_ holds
  · exact List.prefix_refl _
  · intro contents shown
    exact shown.put_confirmed confirmed

theorem holder_put_cursor {tip : Cursor} (last : Chain.tip picture.chain = some tip)
    (holds : (next ()).Meets holder goal (picture.settle tip last)) :
    (RecordStore.cursors.put StoreKey.cursor tip >>= next).Meets holder goal picture := by
  refine holder_write (picture.settle tip last) ?_ rfl ?_ holds
  · exact List.prefix_refl _
  · intro contents shown
    exact shown.put_cursor tip

end Writes

/-! ## Reads of the holder -/

section Reads

variable {World : Type} {terms : Terms World} {world : World} {picture : Picture}

/-- The others leave the world as it is, and what it shows is a picture. -/
def Sees (terms : Terms World) (world : World) (picture : Picture) : Prop :=
  ∀ later contents, terms.rely world later → terms.shows later contents →
    later = world ∧ picture.Depicts contents

theorem holder_sees (picture : Picture) : Sees holder picture picture :=
  fun _ _ same shown => ⟨same, same ▸ shown⟩

theorem Sees.reading_bind {goal : Except Fault β → World → Prop}
    {answer : Contents → Except Fault α} {next : α → StoreAction β}
    (sees : Sees terms world picture)
    (holds : ∀ contents, picture.Depicts contents →
      match answer contents with
      | .ok value => (next value).Meets terms goal world
      | .error fault => goal (.error fault) world) :
    (StoreAction.reading answer >>= next).Meets terms goal world := by
  apply StoreAction.meets_reading_bind
  intro later contents moved allowed
  rcases sees later contents moved allowed with ⟨rfl, shown⟩
  exact holds contents shown

/-- In a settled picture one finds the tip, or nothing if there is no chain. -/
theorem Sees.cursor_meets {goal : Except Fault Cursor → World → Prop}
    (sees : Sees terms world picture) (settled : picture.Settled)
    (absent : picture.chain = [] →
      goal (.error (.notFound (RecordStore.cursors.keyspace ++ StoreKey.cursor))) world)
    (present : ∀ tip, Chain.tip picture.chain = some tip → goal (.ok tip) world) :
    cursor.Meets terms goal world := by
  rw [cursor, RecordStore.get_eq_reading]
  apply StoreAction.meets_reading
  intro later contents moved allowed
  rcases sees later contents moved allowed with ⟨rfl, shown⟩
  cases stored : picture.cursor with
  | none =>
      have shows : Shows picture.chain none contents := stored ▸ shown
      rw [shows.find_cursor_none]
      exact absent (Chain.tip_eq_none_iff.mp (settled.symm.trans stored))
  | some tip =>
      have shows : Shows picture.chain (some tip) contents := stored ▸ shown
      rw [shows.find_cursor (Picture.cursor_fits stored)]
      exact present tip (settled.symm.trans stored)

theorem holder_reading_bind {goal : Except Fault β → Picture → Prop}
    {answer : Contents → Except Fault α} {next : α → StoreAction β}
    (holds : ∀ contents, picture.Depicts contents →
      match answer contents with
      | .ok value => (next value).Meets holder goal picture
      | .error fault => goal (.error fault) picture) :
    (StoreAction.reading answer >>= next).Meets holder goal picture :=
  (holder_sees picture).reading_bind holds

theorem cursor_meets {goal : Except Fault Cursor → Picture → Prop} (settled : picture.Settled)
    (absent : picture.chain = [] →
      goal (.error (.notFound (RecordStore.cursors.keyspace ++ StoreKey.cursor))) picture)
    (present : ∀ tip, Chain.tip picture.chain = some tip → goal (.ok tip) picture) :
    cursor.Meets holder goal picture :=
  (holder_sees picture).cursor_meets settled absent present

/-- The holder reads the blocks of its picture. -/
theorem block_meets {goal : Except Fault Block → Picture → Prop} {height : UInt64}
    (inside : height.toNat < picture.chain.length)
    (holds : goal (.ok picture.chain[height.toNat]) picture) :
    (block height).Meets holder goal picture := by
  rw [block, RecordStore.get_eq_reading]
  apply StoreAction.meets_reading
  rintro later contents rfl shown
  rw [shown.find_block later.linked later.fits inside]
  exact holds

end Reads

/-! ## Running alone -/

section Alone

variable {goal : Value → Picture → Prop} {procedure : Procedure Value} {picture : Picture}
  {engine : Engine}

/-- The writes of a holder lead from a picture and its contents to others. -/
def LeadsTo (picture : Picture) (before : Contents) (after : Picture)
    (contents : Contents) : Prop :=
  ∃ edits, after.written = picture.written ++ edits ∧ picture.chain <+: after.chain ∧
    contents = Edit.applyAll before edits

theorem leadsTo_refl (picture : Picture) (contents : Contents) :
    LeadsTo picture contents picture contents :=
  ⟨[], (List.append_nil _).symm, List.prefix_refl _, rfl⟩

theorem LeadsTo.write {before contents : Contents} {middle after : Picture}
    {more : List Edit} (leads : LeadsTo picture before middle contents)
    (granted : holder.guarantee more middle after) :
    LeadsTo picture before after (Edit.applyAll contents more) := by
  rcases leads with ⟨edits, written, grown, made⟩
  rcases granted with ⟨further, wrote⟩
  refine ⟨edits ++ more, ?_, grown.trans further, ?_⟩
  · rw [wrote, written, List.append_assoc]
  · rw [Edit.applyAll_append, made]

/-- A holder that runs alone leaves the contents as its writes make them. -/
theorem run_holder (meets : procedure.Meets holder goal picture)
    (isOpen : engine.isOpen = true) (shown : picture.Depicts engine.contents) :
    ∃ edits after, (procedure.run engine).2 =
        { engine with contents := Edit.applyAll engine.contents edits } ∧
      after.written = picture.written ++ edits ∧ picture.chain <+: after.chain ∧
      after.Depicts (Edit.applyAll engine.contents edits) ∧
      goal (procedure.run engine).1 after := by
  have kept : ∀ {edits before after contents}, holder.guarantee edits before after →
      LeadsTo picture engine.contents before contents →
      LeadsTo picture engine.contents after (Edit.applyAll contents edits) := by
    intro edits before after contents granted leads
    exact leads.write granted
  rcases meets.run (fun _ => rfl) isOpen shown _ kept (leadsTo_refl _ _) with
    ⟨contents, after, ran, shows, reached, edits, wrote, grown, same⟩
  subst same
  exact ⟨edits, after, ran, wrote, grown, shows, reached⟩

/-- The writes of a holder are recorded in their order. -/
theorem written_of_granted {log : List (List Edit)} {after : Picture}
    (granted : Procedure.Granted holder log picture after) :
    after.written = picture.written ++ log.flatten := by
  induction log generalizing picture with
  | nil => rw [granted, List.flatten_nil, List.append_nil]
  | cons edits rest ih =>
      rcases granted with ⟨middle, ⟨_, wrote⟩, others⟩
      rw [ih others, wrote, List.flatten_cons, List.append_assoc]

/-- An action of a holder that does not fail and runs alone. -/
theorem run_holder_returns {post : Value → Picture → Prop} {action : StoreAction Value}
    (meets : action.Meets holder (StoreAction.Returns post) picture)
    (isOpen : engine.isOpen = true) (shown : picture.Depicts engine.contents) :
    ∃ value edits after, action.run engine =
        (.ok value, { engine with contents := Edit.applyAll engine.contents edits }) ∧
      after.written = picture.written ++ edits ∧ picture.chain <+: after.chain ∧
      after.Depicts (Edit.applyAll engine.contents edits) ∧ post value after := by
  rcases run_holder meets isOpen shown with ⟨edits, after, ran, wrote, grown, shows, reached⟩
  cases outcome : (Procedure.run engine (ExceptT.run action)).1 with
  | error fault =>
      rw [outcome] at reached
      exact reached.elim
  | ok value =>
      rw [outcome] at reached
      exact ⟨value, edits, after, Prod.ext outcome ran, wrote, grown, shows, reached⟩

/-- A guest that runs alone leaves the picture as it was. -/
theorem run_guest (meets : procedure.Meets guest goal picture)
    (isOpen : engine.isOpen = true) (shown : picture.Depicts engine.contents) :
    ∃ contents, (procedure.run engine).2 = { engine with contents } ∧
      picture.Depicts contents ∧ goal (procedure.run engine).1 picture := by
  have still : ∀ {edits before after}, guest.guarantee edits before after →
      before = picture → after = picture := by
    intro edits before after granted same
    exact granted.trans same
  rcases meets.run (fun _ => List.prefix_refl _) isOpen shown (fun later _ => later = picture)
      (fun granted => still granted) rfl with
    ⟨contents, after, ran, shows, reached, same⟩
  subst same
  exact ⟨contents, ran, shows, reached⟩

end Alone

end Ledger

end LedgerNode
