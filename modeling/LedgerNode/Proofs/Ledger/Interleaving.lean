import LedgerNode.Proofs.Ledger.Reading
import LedgerNode.Proofs.Ledger.Session

namespace LedgerNode

/-!
# Interleaved calls and crashes

Calls that take the lock exclude each other.  The others may act between any
two reads or writes, and the store may be closed at any time.  A schedule says
who acts next.

Every write that the store takes is logged.  A crash leaves the contents that
result from some of the first writes.  Whatever the schedule was, a picture
shows these contents, so the check of the next start puts the ledger right.
-/

namespace Procedure

/-- The next read or write of a procedure, with the writes that the store
took. -/
def advance (engine : Engine) : Procedure Value → Engine × Procedure Value × List (List Edit)
  | done value => (engine, done value, [])
  | read next => (engine, next engine.view, [])
  | write edits next =>
    let (engine, taken) := engine.write edits
    (engine, next taken, if taken then [edits] else [])

variable {World : Type} {terms : Terms World}

theorem advance_of_closed {engine : Engine} (closed : engine.isOpen = false)
    (procedure : Procedure Value) :
    (procedure.advance engine).1 = engine ∧ (procedure.advance engine).2.2 = [] := by
  cases procedure with
  | done value => exact ⟨rfl, rfl⟩
  | read next => exact ⟨rfl, rfl⟩
  | write edits next =>
      rw [advance, Engine.write_of_closed closed]
      exact ⟨rfl, rfl⟩

/-- One step of a procedure writes nothing, or keeps its guarantee with one
write. -/
theorem Meets.advance {goal : Value → World → Prop} {procedure : Procedure Value}
    {world : World} {engine : Engine} (meets : procedure.Meets terms goal world)
    (reflexive : ∀ world, terms.rely world world) (isOpen : engine.isOpen = true)
    (shown : terms.shows world engine.contents) :
    ((procedure.advance engine).1 = engine ∧ (procedure.advance engine).2.2 = [] ∧
      (procedure.advance engine).2.1.Meets terms goal world) ∨
    ∃ edits after, (procedure.advance engine).1 =
        { engine with contents := Edit.applyAll engine.contents edits } ∧
      (procedure.advance engine).2.2 = [edits] ∧ terms.guarantee edits world after ∧
      terms.shows after (Edit.applyAll engine.contents edits) ∧
      (procedure.advance engine).2.1.Meets terms goal after := by
  cases procedure with
  | done value => exact .inl ⟨rfl, rfl, meets⟩
  | read next =>
      have rest := meets world engine.contents (reflexive world) shown
      rw [Procedure.advance, Engine.view_of_open isOpen]
      exact .inl ⟨rfl, rfl, rest⟩
  | write edits next =>
      rcases meets world (reflexive world) with ⟨after, granted, keeps, rest⟩
      rw [Procedure.advance, Engine.write_of_open isOpen]
      exact .inr ⟨edits, after, rfl, rfl, granted, keeps _ shown, rest⟩

end Procedure

/-- A store with all that is going on around it. -/
structure System where
  engine : Engine
  waiting : WaitingBlocks
  /-- The call that has the lock. -/
  holding : Option (Procedure (Except Fault Ledger.Answer × WaitingBlocks))
  /-- The calls without the lock. -/
  guests : List (Procedure (Except Fault Ledger.Answer))
  /-- The writes that the store took. -/
  log : List (List Edit)

/-- Who acts next. -/
inductive System.Move where
  /-- A call takes the lock, unless another call has it. -/
  | take (call : Ledger.LockedCall)
  | advanceHolder
  /-- A call that is done gives the lock back. -/
  | release
  | join (call : Ledger.FreeCall)
  | advanceGuest (index : Nat)
  | close

namespace System

open Ledger

/-- The system on a new store. -/
def start (path : String) : System := ⟨Engine.create path, ∅, none, [], []⟩

def step (system : System) : Move → System
  | .take call =>
    match system.holding with
    | none => { system with holding := some (ExceptT.run call.perform system.waiting) }
    | some _ => system
  | .advanceHolder =>
    match system.holding with
    | none => system
    | some procedure =>
      let (engine, rest, taken) := procedure.advance system.engine
      { system with engine, holding := some rest, log := system.log ++ taken }
  | .release =>
    match system.holding with
    | some (.done (_, waiting)) => { system with waiting, holding := none }
    | _ => system
  | .join call => { system with guests := system.guests ++ [ExceptT.run call.perform] }
  | .advanceGuest index =>
    match system.guests[index]? with
    | none => system
    | some procedure =>
      let (engine, rest, taken) := procedure.advance system.engine
      { system with
        engine, guests := system.guests.set index rest, log := system.log ++ taken }
  | .close => { system with engine := system.engine.close.1 }

def run (system : System) (schedule : List Move) : System := schedule.foldl step system

/-- The contents after the first writes of the log. -/
def survivors (system : System) (count : Nat) : Contents :=
  Edit.applyAll ∅ (system.log.take count).flatten

/-! ## Sound systems -/

/-- All calls that are going on meet their terms from this picture. -/
structure Shared (system : System) (picture : Picture) : Prop where
  depicts : picture.Depicts system.engine.contents
  lock : match system.holding with
    | none => picture.Settled ∧ system.waiting.Fit
    | some procedure => procedure.Meets holder (fun outcome after =>
        after.Settled ∧ outcome.2.Fit) picture
  guests : ∀ procedure ∈ system.guests, procedure.Meets guest (fun _ _ => True) picture

/-- A picture shows the contents after any of the first writes since the given
ones. -/
structure Recorded (base : Contents) (engine : Engine) (log : List (List Edit)) : Prop where
  contents : engine.contents = Edit.applyAll base log.flatten
  survives : ∀ count, ∃ picture : Picture,
    picture.Depicts (Edit.applyAll base (log.take count).flatten)

/-- The writes since the given contents are recorded, and the store shows a chain
that has grown from the given one. -/
structure Sound (base : Contents) (chain : List Block) (system : System) : Prop where
  recorded : Recorded base system.engine system.log
  shared : system.engine.isOpen = true → ∃ picture : Picture, chain <+: picture.chain ∧
    system.Shared picture

variable {base : Contents} {chain : List Block}

theorem Recorded.append {engine : Engine} {log : List (List Edit)} {edits : List Edit}
    {picture : Picture} (recorded : Recorded base engine log)
    (shown : picture.Depicts (Edit.applyAll engine.contents edits)) :
    Recorded base { engine with contents := Edit.applyAll engine.contents edits }
      (log ++ [edits]) := by
  have all : Edit.applyAll engine.contents edits =
      Edit.applyAll base (log ++ [edits]).flatten := by
    rw [List.flatten_append, List.flatten_singleton, Edit.applyAll_append, recorded.contents]
  refine ⟨all, ?_⟩
  intro count
  by_cases short : count ≤ log.length
  · rw [List.take_append_of_le_length short]
    exact recorded.survives count
  · have long : (log ++ [edits]).length ≤ count := by
      rw [List.length_append, List.length_singleton]
      omega
    rw [List.take_of_length_le long, ← all]
    exact ⟨picture, shown⟩

/-- The guests go on when the chain grew. -/
theorem guests_later {guests : List (Procedure (Except Fault Answer))}
    {before after : Picture}
    (meet : ∀ procedure ∈ guests, procedure.Meets guest (fun _ _ => True) before)
    (grown : before.chain <+: after.chain) :
    ∀ procedure ∈ guests, procedure.Meets guest (fun _ _ => True) after := by
  intro procedure member
  exact (meet procedure member).later grown List.IsPrefix.trans fun _ _ _ _ _ => trivial

variable {system : System}

/-- On a closed store nothing that happens counts. -/
theorem Sound.of_closed {next : System} (sound : system.Sound base chain)
    (closed : system.engine.isOpen = false) (engine : next.engine = system.engine)
    (log : next.log = system.log) : next.Sound base chain := by
  constructor
  · rw [engine, log]
    exact sound.recorded
  · intro isOpen
    rw [engine, closed] at isOpen
    cases isOpen

theorem take_sound (sound : system.Sound base chain) (call : LockedCall) :
    (system.step (.take call)).Sound base chain := by
  rw [step]
  cases lock : system.holding with
  | some _ => exact sound
  | none =>
      refine ⟨sound.recorded, fun isOpen => ?_⟩
      rcases sound.shared isOpen with ⟨picture, grown, shared⟩
      have free := shared.lock
      rw [lock] at free
      have meets : call.perform.Meets holder (fun _ kept after => after.Settled ∧ kept.Fit)
          system.waiting picture := by
        apply (call.perform_meets free.1 free.2).imp
        intro outcome kept after performed
        exact ⟨performed.settled free.1, performed.fit free.2⟩
      exact ⟨picture, grown, shared.depicts, meets, shared.guests⟩

theorem advanceHolder_sound (sound : system.Sound base chain) :
    (system.step .advanceHolder).Sound base chain := by
  rw [step]
  cases lock : system.holding with
  | none => exact sound
  | some procedure =>
      dsimp only
      cases isOpen : system.engine.isOpen with
      | false =>
          rcases procedure.advance_of_closed isOpen with ⟨engine, taken⟩
          apply sound.of_closed isOpen engine
          rw [taken, List.append_nil]
      | true =>
          rcases sound.shared isOpen with ⟨picture, grown, shared⟩
          have meets := shared.lock
          rw [lock] at meets
          rcases meets.advance (fun _ => rfl) isOpen shared.depicts with
            ⟨engine, taken, rest⟩ | ⟨edits, after, engine, taken, granted, shows, rest⟩
          · rw [engine, taken, List.append_nil]
            exact ⟨sound.recorded,
              fun _ => ⟨picture, grown, shared.depicts, rest, shared.guests⟩⟩
          · rw [engine, taken]
            exact ⟨sound.recorded.append shows,
              fun _ => ⟨after, grown.trans granted.1, shows, rest,
                guests_later shared.guests granted.1⟩⟩

theorem release_sound (sound : system.Sound base chain) :
    (system.step .release).Sound base chain := by
  rw [step]
  split
  next outcome waiting lock =>
    refine ⟨sound.recorded, fun isOpen => ?_⟩
    rcases sound.shared isOpen with ⟨picture, grown, shared⟩
    have done := shared.lock
    rw [lock] at done
    exact ⟨picture, grown, shared.depicts, done, shared.guests⟩
  next => exact sound

theorem join_sound (sound : system.Sound base chain) (call : FreeCall) :
    (system.step (.join call)).Sound base chain := by
  refine ⟨sound.recorded, fun isOpen => ?_⟩
  rcases sound.shared isOpen with ⟨picture, grown, shared⟩
  have meets : call.perform.Meets guest (fun _ _ => True) picture :=
    (call.perform_meets picture).imp fun _ _ _ => trivial
  have guests : ∀ procedure ∈ system.guests ++ [ExceptT.run call.perform],
      procedure.Meets guest (fun _ _ => True) picture :=
    List.forall_mem_append.mpr ⟨shared.guests, List.forall_mem_singleton.mpr meets⟩
  exact ⟨picture, grown, shared.depicts, shared.lock, guests⟩

theorem advanceGuest_sound (sound : system.Sound base chain) (index : Nat) :
    (system.step (.advanceGuest index)).Sound base chain := by
  rw [step]
  cases found : system.guests[index]? with
  | none => exact sound
  | some procedure =>
      dsimp only
      cases isOpen : system.engine.isOpen with
      | false =>
          rcases procedure.advance_of_closed isOpen with ⟨engine, taken⟩
          apply sound.of_closed isOpen engine
          rw [taken, List.append_nil]
      | true =>
          rcases sound.shared isOpen with ⟨picture, grown, shared⟩
          have meets := shared.guests procedure (List.mem_of_getElem? found)
          have others : ∀ rest : Procedure (Except Fault Answer),
              rest.Meets guest (fun _ _ => True) picture →
              ∀ other ∈ system.guests.set index rest,
                other.Meets guest (fun _ _ => True) picture := by
            intro rest goesOn other member
            rcases List.mem_or_eq_of_mem_set member with before | here
            · exact shared.guests other before
            · exact here ▸ goesOn
          rcases meets.advance (fun _ => List.prefix_refl _) isOpen shared.depicts with
            ⟨engine, taken, rest⟩ | ⟨edits, after, engine, taken, same, shows, rest⟩
          · rw [engine, taken, List.append_nil]
            exact ⟨sound.recorded,
              fun _ => ⟨picture, grown, shared.depicts, shared.lock, others _ rest⟩⟩
          · have here : after = picture := same
            subst here
            rw [engine, taken]
            exact ⟨sound.recorded.append shows,
              fun _ => ⟨after, grown, shows, shared.lock, others _ rest⟩⟩

theorem step_sound (sound : system.Sound base chain) (move : Move) :
    (system.step move).Sound base chain := by
  cases move with
  | take call => exact take_sound sound call
  | advanceHolder => exact advanceHolder_sound sound
  | release => exact release_sound sound
  | join call => exact join_sound sound call
  | advanceGuest index => exact advanceGuest_sound sound index
  | close =>
      refine ⟨⟨sound.recorded.contents, sound.recorded.survives⟩, fun isOpen => ?_⟩
      cases isOpen

theorem run_sound (sound : system.Sound base chain) (schedule : List Move) :
    (system.run schedule).Sound base chain := by
  induction schedule generalizing system with
  | nil => exact sound
  | cons move rest ih => exact ih (step_sound sound move)

theorem start_sound (path : String) : (start path).Sound ∅ [] where
  recorded := by
    refine ⟨rfl, fun count => ⟨Picture.empty, ?_⟩⟩
    rw [start, List.take_nil]
    exact shows_empty
  shared := by
    intro _
    refine ⟨Picture.empty, List.prefix_refl _, shows_empty, ⟨rfl, fit_empty⟩, ?_⟩
    intro procedure member
    cases member

/-! ## The start after a crash -/

/-- What a start finds in the contents that a crash left, and makes of them. -/
structure Recovers (contents : Contents) : Prop where
  /-- Every confirmed transaction has its block. -/
  noOrphan : ∀ entry ∈ RecordStore.confirmed.entriesIn contents, ∃ transaction,
    RecordStore.confirmed.readEntry entry =
        .ok (StoreKey.transaction transaction.blockHeight transaction.hash, transaction) ∧
      contents.contains
        (RecordStore.blocks.fullKey (StoreKey.block transaction.blockHeight)) = true
  /-- The check succeeds, keeps all blocks, and answers the highest one. -/
  check : (∀ height : UInt64, contents.contains (RecordStore.blocks.fullKey
        (StoreKey.block height)) = true → height.toNat < 10 ^ 16) →
    ∀ path, ∃ blocks outcome recovered,
      RecordStore.blocks.values.run ⟨path, contents, true⟩ =
          (.ok blocks, ⟨path, contents, true⟩) ∧
        Ledger.check.run ⟨path, contents, true⟩ = (.ok outcome, recovered) ∧
        RecordStore.blocks.values.run recovered =
          (.ok (if blocks = [] then [Block.genesis] else blocks), recovered) ∧
        Consistent recovered outcome.cursor ∧
        (blocks = [] → outcome.cursor = Cursor.genesis) ∧
        (blocks ≠ [] → ∃ block ∈ blocks, Cursor.ofBlock block = outcome.cursor ∧
          ∀ other ∈ blocks, other.height ≤ block.height)

theorem length_le_of_heights {picture : Picture} {contents : Contents}
    (depicts : picture.Depicts contents)
    (below : ∀ height : UInt64, contents.contains (RecordStore.blocks.fullKey
      (StoreKey.block height)) = true → height.toNat < 10 ^ 16) :
    picture.chain.length ≤ 10 ^ 16 := by
  cases last : Chain.tip picture.chain with
  | none =>
      rw [Chain.tip_eq_none_iff.mp last]
      exact Nat.zero_le _
  | some tip =>
      have length := picture.linked.tip_height last
      have stored := (Shows.contains_block depicts picture.linked tip.height).mpr (by omega)
      have bound := below tip.height stored
      omega

theorem recovers_of_depicts {picture : Picture} {contents : Contents}
    (depicts : picture.Depicts contents) : Recovers contents where
  noOrphan := by
    intro entry member
    rcases Shows.confirmed depicts entry member with ⟨transaction, confirmed, same⟩
    refine ⟨transaction, ?_, ?_⟩
    · rw [same]
      exact RecordStore.readEntry_entry Transaction.codec_roundTrips _ confirmed.fits
    · exact (Shows.contains_block depicts picture.linked _).mpr confirmed.below
  check := by
    intro below path
    have short := length_le_of_heights depicts below
    have isOpen : (⟨path, contents, true⟩ : Engine).isOpen = true := rfl
    rcases run_holder_returns (check_meets (.inr short)) isOpen depicts with
      ⟨outcome, edits, after, ran, _, _, shows, checked⟩
    have few : after.chain.length ≤ 10 ^ 16 := by
      rw [checked.chain_eq]
      split
      · decide
      · exact short
    refine ⟨picture.chain, outcome, _, depicts.run_values rfl short, ran, ?_, ?_, ?_, ?_⟩
    · rw [← checked.chain_eq]
      exact shows.run_values rfl few
    · exact shows.consistent rfl checked.settled checked.last few
    · intro nothing
      have last := checked.last
      rw [checked.chain_eq, if_pos nothing] at last
      exact (Option.some.inj last).symm
    · intro standing
      have last := checked.last
      rw [checked.chain_eq, if_neg standing] at last
      rcases Chain.mem_of_tip last with ⟨block, member, same⟩
      refine ⟨block, member, same, ?_⟩
      intro other inside
      have lower := picture.linked.height_lt inside
      have highest := picture.linked.tip_height last
      rw [← same] at highest
      apply UInt64.le_iff_toNat_le.mpr
      change block.height.toNat + 1 = _ at highest
      omega

/-- Whatever the schedule was, a start recovers after a crash that any number
of the first writes survived, and after an orderly closing. -/
theorem crash_recovers (path : String) (schedule : List Move) :
    (∀ count, Recovers (((start path).run schedule).survivors count)) ∧
      Recovers ((start path).run schedule).engine.contents := by
  have sound := run_sound (start_sound path) schedule
  constructor
  · intro count
    rcases sound.recorded.survives count with ⟨picture, depicts⟩
    exact recovers_of_depicts depicts
  · rcases sound.recorded.survives ((start path).run schedule).log.length with
      ⟨picture, depicts⟩
    rw [List.take_length, ← sound.recorded.contents] at depicts
    exact recovers_of_depicts depicts

end System

end LedgerNode
