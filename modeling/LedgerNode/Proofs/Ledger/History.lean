import LedgerNode.Proofs.Ledger.Reading
import LedgerNode.Proofs.Ledger.Session

namespace LedgerNode

/-!
# Histories of a ledger

A history starts with the check of an empty store.  After it the store is found
consistent at any time, and the chain that it stores only ever grows.
-/

/-- An open store with the blocks that wait beside it. -/
@[ext]
structure Session where
  engine : Engine
  waiting : WaitingBlocks

/-- What happens to a session. -/
inductive Session.Event where
  | call (call : Ledger.Call)
  /-- The store is closed and opened again.  Calls that come meanwhile find it
  closed, and what waited is lost. -/
  | restart (meanwhile : List Ledger.Call)

namespace Session

open Ledger

/-- A call with its answer. -/
def perform (session : Session) (call : Call) : Except Fault Answer × Session :=
  let (answer, waiting, engine) := call.perform.run session.waiting session.engine
  (answer, ⟨engine, waiting⟩)

def performAll (session : Session) (calls : List Call) : Session :=
  calls.foldl (fun session call => (session.perform call).2) session

def step (session : Session) : Event → Session
  | .call call => (session.perform call).2
  | .restart meanwhile =>
    let closed := performAll ⟨session.engine.close.1, session.waiting⟩ meanwhile
    ⟨closed.engine.reopen, ∅⟩

def run (session : Session) (events : List Event) : Session := events.foldl step session

/-- The session on a new store, after its first check. -/
def start (path : String) : Session :=
  (perform ⟨Engine.create path, ∅⟩ (.locked .check)).2

/-! ## Sound sessions -/

/-- The store is open and shows a picture with the cursor at the tip. -/
structure Sound (session : Session) (picture : Picture) : Prop where
  isOpen : session.engine.isOpen = true
  settled : picture.Settled
  depicts : picture.Depicts session.engine.contents
  waiting : session.waiting.Fit

variable {session : Session} {picture : Picture}

theorem Sound.next (sound : session.Sound picture) {next : Session} {after : Picture}
    {contents : Contents} (engine : next.engine = { session.engine with contents })
    (settled : after.Settled) (shows : after.Depicts contents) (fit : next.waiting.Fit) :
    next.Sound after := by
  refine ⟨?_, settled, ?_, fit⟩
  · rw [engine]
    exact sound.isOpen
  · rw [engine]
    exact shows

/-- A call that takes the lock leads from picture to picture, and the contents
change by what it wrote. -/
theorem Sound.perform_locked (sound : session.Sound picture) (call : LockedCall) :
    ∃ edits after, (session.perform (.locked call)).2.Sound after ∧
      Performed picture session.waiting call (session.perform (.locked call)).1
        (session.perform (.locked call)).2.waiting after ∧
      picture.chain <+: after.chain ∧ after.written = picture.written ++ edits ∧
      (session.perform (.locked call)).2.engine =
        { session.engine with contents := Edit.applyAll session.engine.contents edits } := by
  have meets := call.perform_meets sound.settled sound.waiting
  rcases run_holder meets sound.isOpen sound.depicts with
    ⟨edits, after, ran, wrote, grown, shows, performed⟩
  have engine : (session.perform (.locked call)).2.engine =
      { session.engine with contents := Edit.applyAll session.engine.contents edits } := ran
  have next := sound.next engine (performed.settled sound.settled) shows
    (performed.fit sound.waiting)
  exact ⟨edits, after, next, performed, grown, wrote, engine⟩

/-- A call without the lock leaves the picture and the waiting blocks alone. -/
theorem Sound.perform_free (sound : session.Sound picture) (call : FreeCall) :
    (session.perform (.free call)).2.Sound picture ∧
      (session.perform (.free call)).2.waiting = session.waiting ∧
      tellsExtension (session.perform (.free call)).1 = false := by
  have meets : (LedgerAction.ofStore call.perform).Meets guest (fun outcome kept _ =>
      kept = session.waiting ∧ tellsExtension outcome = false) session.waiting picture := by
    apply LedgerAction.meets_ofStore
    apply (call.perform_meets picture).imp
    intro outcome after reached
    cases outcome with
    | ok answer => exact ⟨rfl, reached⟩
    | error fault => exact reached.elim
  rcases run_guest meets sound.isOpen sound.depicts with ⟨contents, ran, shows, kept, silent⟩
  have engine : (session.perform (.free call)).2.engine = { session.engine with contents } := ran
  have waiting : (session.perform (.free call)).2.waiting = session.waiting := kept
  have fit : (session.perform (.free call)).2.waiting.Fit := waiting ▸ sound.waiting
  exact ⟨sound.next engine sound.settled shows fit, waiting, silent⟩

theorem Sound.perform (sound : session.Sound picture) (call : Call) :
    ∃ after, (session.perform call).2.Sound after ∧ picture.chain <+: after.chain ∧
      (picture.chain ≠ [] → tellsExtension (session.perform call).1 = false →
        after.chain = picture.chain) := by
  cases call with
  | locked call =>
      rcases sound.perform_locked call with ⟨_, after, next, performed, grown, _⟩
      exact ⟨after, next, grown, performed.chain_eq⟩
  | free call =>
      exact ⟨picture, (sound.perform_free call).1, List.prefix_refl _, fun _ _ => rfl⟩

/-- Calls leave a closed store as it is. -/
theorem performAll_of_closed (closed : session.engine.isOpen = false) (calls : List Call) :
    (session.performAll calls).engine = session.engine := by
  induction calls generalizing session with
  | nil => rfl
  | cons call rest ih =>
      have same : (session.perform call).2.engine = session.engine :=
        LedgerAction.run_of_closed closed call.perform session.waiting
      exact (ih (same ▸ closed)).trans same

theorem step_restart (isOpen : session.engine.isOpen = true) (meanwhile : List Call) :
    session.step (.restart meanwhile) = ⟨session.engine, ∅⟩ := by
  have closed : (performAll ⟨session.engine.close.1, session.waiting⟩ meanwhile).engine =
      session.engine.close.1 := performAll_of_closed rfl meanwhile
  have reopened : session.engine.close.1.reopen = session.engine := by
    rw [Engine.close, Engine.reopen, ← isOpen]
  rw [step, closed, reopened]

/-- The session is as sound when nothing waits any more. -/
theorem Sound.unattended (sound : session.Sound picture) : Sound ⟨session.engine, ∅⟩ picture :=
  ⟨sound.isOpen, sound.settled, sound.depicts, fit_empty⟩

theorem Sound.step (sound : session.Sound picture) (event : Event) :
    ∃ after, (session.step event).Sound after ∧ picture.chain <+: after.chain := by
  cases event with
  | call call =>
      rcases sound.perform call with ⟨after, next, grown, _⟩
      exact ⟨after, next, grown⟩
  | restart meanwhile =>
      rw [step_restart sound.isOpen]
      exact ⟨picture, sound.unattended, List.prefix_refl _⟩

theorem Sound.run (sound : session.Sound picture) (events : List Event) :
    ∃ after, (session.run events).Sound after ∧ picture.chain <+: after.chain := by
  induction events generalizing session picture with
  | nil => exact ⟨picture, sound, List.prefix_refl _⟩
  | cons event rest ih =>
      rcases sound.step event with ⟨middle, next, grown⟩
      rcases ih next with ⟨after, last, further⟩
      exact ⟨after, last, grown.trans further⟩

theorem run_append (session : Session) (events more : List Event) :
    session.run (events ++ more) = (session.run events).run more :=
  List.foldl_append

/-- A fact about the events so far that every event keeps holds after every
history. -/
theorem Sound.run_keeps {Holds : List Event → Picture → Prop} {past : List Event}
    (sound : (session.run past).Sound picture) (standing : picture.chain ≠ [])
    (holds : Holds past picture)
    (next : ∀ {past picture} event, (session.run past).Sound picture → picture.chain ≠ [] →
      Holds past picture → ∃ after, (session.run (past ++ [event])).Sound after ∧
        picture.chain <+: after.chain ∧ Holds (past ++ [event]) after)
    (events : List Event) :
    ∃ after, (session.run (past ++ events)).Sound after ∧ picture.chain <+: after.chain ∧
      Holds (past ++ events) after := by
  induction events generalizing past picture with
  | nil =>
      rw [List.append_nil]
      exact ⟨picture, sound, List.prefix_refl _, holds⟩
  | cons event rest ih =>
      rcases next event sound standing holds with ⟨middle, reached, grown, kept⟩
      have still : middle.chain ≠ [] := by
        intro nothing
        rw [nothing] at grown
        exact standing (List.prefix_nil.mp grown)
      rcases ih reached still kept with ⟨after, last, further, held⟩
      rw [List.append_cons]
      exact ⟨after, last, grown.trans further, held⟩

theorem start_sound (path : String) :
    ∃ picture, (start path).Sound picture ∧ picture.chain = [Block.genesis] := by
  have empty : Sound ⟨Engine.create path, ∅⟩ Picture.empty :=
    ⟨rfl, rfl, shows_empty, fit_empty⟩
  rcases empty.perform_locked .check with ⟨_, after, sound, performed, _⟩
  refine ⟨after, sound, ?_⟩
  cases answer : (perform ⟨Engine.create path, ∅⟩ (.locked .check)).1 with
  | error fault =>
      rw [answer] at performed
      cases performed with
      | failed mayFail => exact mayFail.elim
  | ok outcome =>
      rw [answer] at performed
      cases performed with
      | checked found =>
          cases found with
          | started _ chain => exact chain
          | trusted last => cases last
          | rescanned last => cases last

/-- After every history the store shows a chain with the cursor at its tip. -/
theorem run_start_sound (path : String) (events : List Event) :
    ∃ picture tip, ((start path).run events).Sound picture ∧
      Chain.tip picture.chain = some tip := by
  rcases start_sound path with ⟨first, sound, genesis⟩
  rcases sound.run events with ⟨picture, last, grown⟩
  cases reached : Chain.tip picture.chain with
  | some tip => exact ⟨picture, tip, last, reached⟩
  | none =>
      rw [Chain.tip_eq_none_iff.mp reached, genesis] at grown
      cases List.prefix_nil.mp grown

/-- After every history the store has a cursor, and the ledger is consistent
with it. -/
theorem consistent_run (path : String) (events : List Event) :
    ∃ tip, cursor.run ((start path).run events).engine =
        (.ok tip, ((start path).run events).engine) ∧
      (tip.height.toNat < 10 ^ 16 → Consistent ((start path).run events).engine tip) := by
  rcases run_start_sound path events with ⟨picture, tip, sound, last⟩
  refine ⟨tip, sound.depicts.run_cursor sound.isOpen (sound.settled.trans last), ?_⟩
  intro short
  have length := picture.linked.tip_height last
  exact sound.depicts.consistent sound.isOpen sound.settled last (by omega)

/-- A fact about a new ledger that every event keeps. -/
theorem run_start_keeps {Holds : List Event → Picture → Prop} (path : String)
    (first : ∀ picture : Picture, picture.chain = [Block.genesis] → Holds [] picture)
    (next : ∀ {past picture} event, ((start path).run past).Sound picture →
      picture.chain ≠ [] → Holds past picture →
      ∃ after, ((start path).run (past ++ [event])).Sound after ∧
        picture.chain <+: after.chain ∧ Holds (past ++ [event]) after)
    (events : List Event) :
    ∃ picture tip, ((start path).run events).Sound picture ∧
      Chain.tip picture.chain = some tip ∧ Holds events picture := by
  rcases start_sound path with ⟨begun, sound, genesis⟩
  have standing : begun.chain ≠ [] := genesis ▸ List.cons_ne_nil _ _
  have reached : ((start path).run []).Sound begun := sound
  rcases reached.run_keeps standing (first begun genesis) next events with
    ⟨picture, last, grown, holds⟩
  cases ends : Chain.tip picture.chain with
  | some tip => exact ⟨picture, tip, last, ends, holds⟩
  | none =>
      rw [Chain.tip_eq_none_iff.mp ends] at grown
      exact absurd (List.prefix_nil.mp grown) standing

/-! ## The first block of each height stays -/

/-- What a call leaves as it was. -/
structure KeepsBlocks (before : Session) (answer : Except Fault Answer)
    (after : Session) : Prop where
  /-- The cursor does not go back, and no record up to it changes. -/
  stored : ∃ tip later, cursor.run before.engine = (.ok tip, before.engine) ∧
    cursor.run after.engine = (.ok later, after.engine) ∧ tip.height ≤ later.height ∧
    ∀ height ≤ tip.height, ∃ record,
      before.engine.contents.get? (RecordStore.blocks.fullKey (StoreKey.block height)) =
        some record ∧
      after.engine.contents.get? (RecordStore.blocks.fullKey (StoreKey.block height)) =
        some record
  /-- Without an extension neither the blocks nor the cursor change. -/
  silent : tellsExtension answer = false →
    RecordStore.blocks.entriesIn after.engine.contents =
        RecordStore.blocks.entriesIn before.engine.contents ∧
      after.engine.contents.get? (RecordStore.cursors.fullKey StoreKey.cursor) =
        before.engine.contents.get? (RecordStore.cursors.fullKey StoreKey.cursor)

/-- The stored blocks in the order of their heights.  Up to sixteen digits this
is the order in which the store lists them. -/
structure Stores (session : Session) (blocks : List Block) : Prop where
  heights : ∀ height : UInt64, (Ledger.block height).run session.engine =
    (match blocks[height.toNat]? with
      | some block => .ok block
      | none => .error (.notFound (RecordStore.blocks.keyspace ++ StoreKey.block height)),
      session.engine)
  listed : blocks.length ≤ 10 ^ 16 →
    RecordStore.blocks.values.run session.engine = (.ok blocks, session.engine)

theorem stores_of_shows {session : Session} {chain : List Block} {cursor : Option Cursor}
    (isOpen : session.engine.isOpen = true) (shows : Shows chain cursor session.engine.contents)
    (linked : Chain.Linked chain) (fits : ∀ block ∈ chain, block.Fits) :
    session.Stores chain where
  heights := by
    intro height
    by_cases inside : height.toNat < chain.length
    · rw [shows.run_block linked fits isOpen inside, List.getElem?_eq_getElem inside]
    · have outside : chain.length ≤ height.toNat := Nat.le_of_not_lt inside
      rw [shows.run_block_none linked isOpen outside, List.getElem?_eq_none outside]
  listed := shows.run_values linked fits isOpen

theorem Sound.stores {session : Session} {picture : Picture}
    (sound : session.Sound picture) : session.Stores picture.chain :=
  stores_of_shows sound.isOpen sound.depicts picture.linked picture.fits

theorem Sound.keepsBlocks {session : Session} {picture : Picture} {tip : Cursor}
    (sound : session.Sound picture) (last : Chain.tip picture.chain = some tip) (call : Call) :
    session.KeepsBlocks (session.perform call).1 (session.perform call).2 := by
  rcases sound.perform call with ⟨after, next, grown, unchanged⟩
  have standing := Chain.ne_nil_of_tip last
  have length := picture.linked.tip_height last
  constructor
  · cases reached : Chain.tip after.chain with
    | none =>
        rw [Chain.tip_eq_none_iff.mp reached] at grown
        exact absurd (List.prefix_nil.mp grown) standing
    | some later =>
        have longer := after.linked.tip_height reached
        have more := grown.length_le
        refine ⟨tip, later, sound.depicts.run_cursor sound.isOpen (sound.settled.trans last),
          next.depicts.run_cursor next.isOpen (next.settled.trans reached), ?_, ?_⟩
        · apply UInt64.le_iff_toNat_le.mpr
          omega
        · intro height below
          have order := UInt64.le_iff_toNat_le.mp below
          have inside : height.toNat < picture.chain.length := by omega
          have still : height.toNat < after.chain.length := by omega
          have same : after.chain[height.toNat] = picture.chain[height.toNat] :=
            (grown.getElem inside).symm
          refine ⟨_, Shows.get?_block sound.depicts picture.linked inside, ?_⟩
          rw [Shows.get?_block next.depicts after.linked still, same]
  · intro silent
    have same := unchanged standing silent
    have blocks : Shows picture.chain after.cursor
        (session.perform call).2.engine.contents := same ▸ next.depicts
    refine ⟨Shows.entriesIn_blocks_eq sound.depicts blocks, ?_⟩
    rw [Shows.cursor next.depicts, Shows.cursor sound.depicts, next.settled, sound.settled,
      same]

/-- After every history, a call changes no stored block and takes back no
cursor, and what is stored at any time is the beginning of what is stored
later. -/
theorem chain_append_only (path : String) (events : List Event) :
    (∀ call : Call, ((start path).run events).KeepsBlocks
      (((start path).run events).perform call).1
      (((start path).run events).perform call).2) ∧
    ∀ more : List Event, ∃ earlier later, earlier <+: later ∧
      ((start path).run events).Stores earlier ∧
      ((start path).run (events ++ more)).Stores later := by
  rcases run_start_sound path events with ⟨picture, tip, sound, last⟩
  refine ⟨sound.keepsBlocks last, ?_⟩
  intro more
  rcases sound.run more with ⟨after, further, grown⟩
  refine ⟨picture.chain, after.chain, grown, sound.stores, ?_⟩
  rw [run, List.foldl_append]
  exact further.stores

/-! ## Sample blocks -/

/-- A block with one transaction. -/
def sampleParcel (height : UInt64) (hash previousHash : String) : WaitingBlock where
  block := { height, hash, previousHash, timestamp := 0, merkleRoot := "", transactions := [] }
  transactions := [{ (default : Transaction) with hash }]

theorem sampleParcel_fits {height : UInt64} {hash previousHash : String}
    (short : TextFits hash) (before : TextFits previousHash) :
    (sampleParcel height hash previousHash).Fits := by
  have empty : TextFits "" := by decide
  have none : 0 < 2 ^ 64 := by decide
  exact
    { block := ⟨short, before, empty, none, List.forall_mem_nil _⟩
      transactions := List.forall_mem_singleton.mpr ⟨short, empty, empty, empty, empty, empty⟩ }

end Session

end LedgerNode
