import LedgerNode.Proofs.Ledger.History
import LedgerNode.Proofs.Ledger.Inspection
import LedgerNode.Proofs.Ledger.Interleaving

namespace LedgerNode

/-!
# Every state that a ledger can get into

A ledger is open as a session, or down with what its disk holds.  It starts on
an empty disk.  An opening checks what the disk holds; it may fail, and a crash
may cut it short.  While it is open, calls come one after another or at the same
time, and the rest of the node writes to its own record stores.  It goes down
by a crash or in an orderly way, with any number of the first writes done.

A picture shows what the disk holds at any time, and the cursor of an open
ledger is at the tip.  No length of the chain is assumed: the blocks of a very
long chain are listed out of order, but a check that passes all the same has
found the same last block.
-/

namespace System

open Ledger

/-- A session with nobody at work. -/
def around (session : Session) : System := ⟨session.engine, session.waiting, none, [], []⟩

variable {session : Session} {picture : Picture}

theorem around_sound (sound : session.Sound picture) :
    (around session).Sound session.engine.contents picture.chain where
  recorded := by
    refine ⟨rfl, fun count => ⟨picture, ?_⟩⟩
    rw [around, List.take_nil]
    exact sound.depicts
  shared := by
    intro _
    refine ⟨picture, List.prefix_refl _, sound.depicts, ⟨sound.settled, sound.waiting⟩, ?_⟩
    intro procedure member
    cases member

end System

namespace Ledger

/-- Where a ledger is: in an open store, or on a disk. -/
inductive Stage where
  | up (session : Session)
  | down (contents : Contents)

/-- The chain, the cursor and the confirmed transactions stay. -/
structure SameLedger (before after : Contents) : Prop where
  blocks : RecordStore.blocks.part after = RecordStore.blocks.part before
  cursors : RecordStore.cursors.part after = RecordStore.cursors.part before
  confirmed : RecordStore.confirmed.part after = RecordStore.confirmed.part before

/-- The stages that a ledger can get into. -/
inductive Reachable : Stage → Prop where
  | blank : Reachable (.down ∅)
  | opened {contents : Contents} (down : Reachable (.down contents)) {path : String}
    {outcome : StartOutcome} {engine : Engine}
    (checked : check.run ⟨path, contents, true⟩ = (.ok outcome, engine)) :
    Reachable (.up ⟨engine, ∅⟩)
  /-- The check of an opening failed, or got no further. -/
  | cutShort {contents : Contents} (down : Reachable (.down contents)) (path : String)
    (count : Nat) :
    Reachable (.down (Edit.applyAll contents
      ((check.log ⟨path, contents, true⟩).take count).flatten))
  | called {session : Session} (up : Reachable (.up session)) (call : Call) :
    Reachable (.up (session.perform call).2)
  /-- Calls came at the same time.  Some without the lock may still be at work. -/
  | interleaved {session : Session} (up : Reachable (.up session))
    (schedule : List System.Move)
    (isOpen : ((System.around session).run schedule).engine.isOpen = true)
    (unlocked : ((System.around session).run schedule).holding = none) :
    Reachable (.up ⟨((System.around session).run schedule).engine,
      ((System.around session).run schedule).waiting⟩)
  | stopped {session : Session} (up : Reachable (.up session)) (schedule : List System.Move)
    (count : Nat) :
    Reachable (.down (Edit.applyAll session.engine.contents
      (((System.around session).run schedule).log.take count).flatten))
  /-- The other record stores of the node change. -/
  | beside {session : Session} (up : Reachable (.up session)) {contents : Contents}
    (same : SameLedger session.engine.contents contents) :
    Reachable (.up ⟨{ session.engine with contents }, session.waiting⟩)

/-! ## What the check makes of a cursor that is behind -/

theorem Picture.Depicts.beside {picture : Picture} {before after : Contents}
    (depicts : picture.Depicts before) (same : SameLedger before after) :
    picture.Depicts after where
  blocks := by
    rw [RecordStore.entriesIn_eq, same.blocks]
    exact depicts.blocks
  cursor := by
    rw [← RecordStore.get?_part_fullKey, same.cursors, RecordStore.get?_part_fullKey]
    exact depicts.cursor
  confirmed := by
    rw [RecordStore.entriesIn_eq, same.confirmed]
    exact depicts.confirmed

section Stale

variable {picture : Picture} {engine : Engine}

/-- The blocks of a chain are listed, though maybe not in their order. -/
theorem Picture.Depicts.listed (depicts : picture.Depicts engine.contents)
    (isOpen : engine.isOpen = true) {blocks : List Block}
    (read : (RecordStore.blocks.values.run engine).1 = .ok blocks) :
    blocks.length = picture.chain.length ∧ ∀ block ∈ blocks, block ∈ picture.chain := by
  have each : ∀ entry ∈ RecordStore.blocks.entriesIn engine.contents,
      ∃ block, block ∈ picture.chain ∧ entry = blockEntry block := by
    intro entry member
    rcases List.mem_map.mp (depicts.blocks.mem_iff.mp member) with ⟨block, inside, same⟩
    exact ⟨block, inside, same.symm⟩
  rcases RecordStore.exists_map_eq each with ⟨stored, inside, entries⟩
  have fits : ∀ block ∈ stored, block.Fits :=
    fun block member => picture.fits block (inside block member)
  have answers : (stored.map blockEntry).mapM RecordStore.blocks.readEntry = _ :=
    RecordStore.mapM_readEntry Block.codec_roundTrips fits
      fun block => StoreKey.block block.height
  rw [RecordStore.values_eq_reading, StoreAction.run_reading isOpen, entries, answers] at read
  simp only [Except.map, RecordStore.map_snd_keyed] at read
  cases read
  have count := Shows.count depicts
  rw [entries, List.length_map] at count
  exact ⟨count, inside⟩

/-- An inspection that finds a tip has found the tip of the chain. -/
theorem Picture.Depicts.tip_of_inspect (depicts : picture.Depicts engine.contents)
    (isOpen : engine.isOpen = true) {tip : Cursor} {stored : Option Cursor}
    (reports : (inspect.run engine).1 = .ok ⟨some tip, stored⟩) :
    Chain.tip picture.chain = some tip := by
  rcases verified_of_ok (inspect_eq_ok_iff.mp reports).1 with ⟨blocks, _, verified⟩
  have linked := verified.linked
  have ends : Chain.tip blocks = some tip := verified.tip
  rcases depicts.listed isOpen verified.readBlocks with ⟨length, inside⟩
  -- the last of the listed blocks stands at the greatest height
  rcases Option.map_eq_some_iff.mp ends with ⟨block, final, names⟩
  have member := inside block (List.mem_of_getLast? final)
  have height : block.height.toNat + 1 = picture.chain.length := by
    rw [← length, ← linked.tip_height ends, ← names]
    rfl
  have within : block.height.toNat < picture.chain.length := by omega
  have found := picture.linked.getElem_height member within
  rw [Chain.tip, List.getLast?_eq_getElem?, ← height, Nat.add_sub_cancel,
    List.getElem?_eq_getElem within, found, ← names]
  rfl

/-- If the cursor is behind, the check moves it to the tip or fails, and writes
nothing else. -/
theorem check_of_stale (depicts : picture.Depicts engine.contents)
    (isOpen : engine.isOpen = true) (stale : ¬ picture.Settled) :
    (∃ fault, (check.run engine).1 = .error fault ∧ check.log engine = []) ∨
      ∃ tip, Chain.tip picture.chain = some tip ∧
        check.log engine = [[RecordStore.cursors.putEdit StoreKey.cursor tip]] := by
  have readable : (storedCursor.run engine).1 = .ok picture.cursor := by
    rw [storedCursor_eq_reading, StoreAction.run_reading isOpen, depicts.cursorIn]
  have finding := check_finding readable
  generalize (check.run engine).1 = outcome, check.log engine = log at finding
  cases finding with
  | started absent no_blocks =>
      have nothing : picture.chain = [] := by
        have count := Shows.count depicts
        rw [no_blocks] at count
        exact List.length_eq_zero_iff.mp count.symm
      rcases picture.near with atTip | before
      · exact absurd atTip stale
      · rw [nothing] at before
        exact absurd (before.trans (congrArg Chain.tip nothing).symm) stale
  | trusted present counts =>
      rw [Shows.count depicts] at counts
      exact absurd ((Picture.settled_iff present).mpr counts) stale
  | failed => exact .inl ⟨_, rfl, rfl⟩
  | moved reports => exact .inr ⟨_, depicts.tip_of_inspect isOpen reports, rfl⟩
  | dangling => exact .inl ⟨_, rfl, rfl⟩

end Stale

/-! ## Openings -/

/-- What a check has written when it is cut short shows a chain. -/
theorem Picture.Depicts.cutShort {picture : Picture} {engine : Engine}
    (depicts : picture.Depicts engine.contents) (isOpen : engine.isOpen = true) (count : Nat) :
    ∃ after : Picture,
      after.Depicts (Edit.applyAll engine.contents ((check.log engine).take count).flatten) := by
  by_cases settled : picture.Settled
  · exact Procedure.Meets.log (check_meets (.inl settled)) (fun _ => rfl) isOpen depicts count
  · rcases check_of_stale depicts isOpen settled with ⟨_, _, silent⟩ | ⟨tip, last, wrote⟩
    · rw [silent, List.take_nil]
      exact ⟨picture, depicts⟩
    · rw [wrote]
      cases count with
      | zero => exact ⟨picture, depicts⟩
      | succ count =>
          rw [List.take_succ_cons, List.take_nil]
          exact ⟨picture.settle tip last, Shows.put_cursor depicts tip⟩

/-- A check that succeeds leaves a chain with the cursor at its tip. -/
theorem Picture.Depicts.opened {picture : Picture} {engine after : Engine}
    (depicts : picture.Depicts engine.contents) (isOpen : engine.isOpen = true)
    {outcome : StartOutcome} (checked : check.run engine = (.ok outcome, after)) :
    ∃ reached tip, Session.Sound ⟨after, ∅⟩ reached ∧ Chain.tip reached.chain = some tip := by
  by_cases settled : picture.Settled
  · rcases run_holder_returns (check_meets (.inl settled)) isOpen depicts with
      ⟨answer, edits, reached, ran, _, _, shows, found⟩
    cases checked.symm.trans ran
    exact ⟨reached, outcome.cursor, ⟨isOpen, found.settled, shows, fit_empty⟩, found.last⟩
  · rcases check_of_stale depicts isOpen settled with ⟨fault, failed, _⟩ | ⟨tip, last, wrote⟩
    · rw [checked] at failed
      cases failed
    · have ran := StoreAction.run_eq_edited isOpen check
      rw [checked, wrote] at ran
      change after = engine.edited _ at ran
      refine ⟨picture.settle tip last, tip, ?_, last⟩
      rw [ran]
      exact ⟨isOpen, last.symm, Shows.put_cursor depicts tip, fit_empty⟩

/-! ## All stages -/

/-- The disk holds a chain, and an open ledger has its cursor at the tip. -/
def Stage.Sound : Stage → Prop
  | up session => ∃ picture tip, session.Sound picture ∧ Chain.tip picture.chain = some tip
  | down contents => ∃ picture : Picture, picture.Depicts contents

/-- A chain that has grown from one with a tip has a tip. -/
theorem exists_tip_of_grown {picture after : Picture} {tip : Cursor}
    (last : Chain.tip picture.chain = some tip) (grown : picture.chain <+: after.chain) :
    ∃ later, Chain.tip after.chain = some later := by
  cases reached : Chain.tip after.chain with
  | some later => exact ⟨later, rfl⟩
  | none =>
      rw [Chain.tip_eq_none_iff.mp reached] at grown
      exact absurd (List.prefix_nil.mp grown) (Chain.ne_nil_of_tip last)

theorem Reachable.sound {stage : Stage} (reachable : Reachable stage) : stage.Sound := by
  induction reachable with
  | blank => exact ⟨Picture.empty, shows_empty⟩
  | opened _ checked ih =>
      rcases ih with ⟨picture, depicts⟩
      exact depicts.opened rfl checked
  | @cutShort contents _ path count ih =>
      rcases ih with ⟨picture, depicts⟩
      have isOpen : (⟨path, contents, true⟩ : Engine).isOpen = true := rfl
      exact depicts.cutShort isOpen count
  | called _ call ih =>
      rcases ih with ⟨picture, tip, sound, last⟩
      rcases sound.perform call with ⟨after, next, grown, _⟩
      rcases exists_tip_of_grown last grown with ⟨later, reached⟩
      exact ⟨after, later, next, reached⟩
  | interleaved _ schedule isOpen unlocked ih =>
      rcases ih with ⟨picture, tip, sound, last⟩
      have system := System.run_sound (System.around_sound sound) schedule
      rcases system.shared isOpen with ⟨after, grown, shared⟩
      have free := shared.lock
      rw [unlocked] at free
      rcases exists_tip_of_grown last grown with ⟨later, reached⟩
      exact ⟨after, later, ⟨isOpen, free.1, shared.depicts, free.2⟩, reached⟩
  | stopped _ schedule count ih =>
      rcases ih with ⟨picture, _, sound, _⟩
      exact (System.run_sound (System.around_sound sound) schedule).recorded.survives count
  | beside _ same ih =>
      rcases ih with ⟨picture, tip, sound, last⟩
      exact ⟨picture, tip,
        ⟨sound.isOpen, sound.settled, sound.depicts.beside same, sound.waiting⟩, last⟩

end Ledger

namespace Session

open Ledger

/-- A new ledger is one of the stages. -/
theorem reachable_start (path : String) : Reachable (.up (start path)) := by
  have settled : Picture.empty.Settled := rfl
  have isOpen : (Engine.create path).isOpen = true := rfl
  rcases run_holder_returns (check_meets (.inl settled)) isOpen shows_empty with
    ⟨outcome, edits, _, checked, _⟩
  have same : start path = ⟨(Engine.create path).edited edits, ∅⟩ := by
    change (perform ⟨Engine.create path, ∅⟩ (.locked .check)).2 = _
    rw [perform, Call.perform, LockedCall.perform, LedgerAction.run_bind_return,
      LedgerAction.run_ofStore, checked]
    rfl
  rw [same]
  exact .opened .blank checked

end Session

end LedgerNode
