import Mathlib
import LedgerNode.Node.Producer
import LedgerNode.Proofs.Ledger.History
import LedgerNode.Proofs.Ledger.RecordHash

namespace LedgerNode

/-!
# What a crash leaves of a node's own transactions

A commit writes its block before its transactions, and the cursor last.  The
check of the next start looks for transactions without a block.  Nobody looks
for blocks without their transactions.  So if a crash cuts a commit off, its
block stays, with as many of its first transactions as were written, and the
rest is not missed.

This can happen to the highest block only.  The cursor then still names the
block before it, so that the next start rescans the ledger.  All other blocks
have all their transactions.
-/

/-- The transactions of the block have different hashes. -/
def Block.Distinct (block : Block) : Prop := (block.transactions.map (·.hash)).Nodup

namespace Ledger

open StoreAction (Returns)

/-! ## The transactions of a block -/

/-- The first transactions of a block are confirmed, and the others are not. -/
def FirstConfirmed (contents : Contents) (block : Block) (count : Nat) : Prop :=
  ∀ index (inside : index < block.transactions.length),
    contents.get? (RecordStore.confirmed.fullKey
        (StoreKey.transaction block.height block.transactions[index].hash)) =
      if index < count then
        some (Transaction.codec.encode (block.transactions[index].confirmedAt block.height))
      else none

namespace FirstConfirmed

variable {contents later : Contents} {block : Block} {count : Nat}

/-- What happens to other heights does not matter. -/
theorem of_same (first : FirstConfirmed contents block count)
    (same : ∀ hash, later.get? (RecordStore.confirmed.fullKey
        (StoreKey.transaction block.height hash)) =
      contents.get? (RecordStore.confirmed.fullKey
        (StoreKey.transaction block.height hash))) :
    FirstConfirmed later block count :=
  fun index inside => (same _).trans (first index inside)

theorem all (first : FirstConfirmed contents block count)
    (enough : block.transactions.length ≤ count) :
    FirstConfirmed contents block block.transactions.length := by
  intro index inside
  rw [first index inside, if_pos inside, if_pos (Nat.lt_of_lt_of_le inside enough)]

/-- The next transaction is confirmed. -/
theorem confirm (first : FirstConfirmed contents block count) (distinct : block.Distinct)
    (inside : count < block.transactions.length) :
    FirstConfirmed (Edit.apply contents (confirmEdit block.height block.transactions[count]))
      block (count + 1) := by
  intro index within
  rw [confirmEdit, RecordStore.get?_put]
  by_cases here : index = count
  · subst here
    rw [if_pos rfl, if_pos (Nat.lt_succ_self _)]
    rfl
  · rw [if_neg, first index within]
    · have same : index < count + 1 ↔ index < count := by omega
      simp only [same]
    · intro keys
      have hashes := (StoreKey.transaction_inj.mp (RecordStore.fullKey_inj.mp keys)).2
      have length : (block.transactions.map (·.hash)).length = block.transactions.length :=
        List.length_map _
      have same : (block.transactions.map (·.hash))[index] =
          (block.transactions.map (·.hash))[count] := by
        rw [List.getElem_map, List.getElem_map]
        exact hashes
      exact here ((List.getElem_inj distinct).mp same)

theorem of_fresh {chain : List Block} {cursor : Option Cursor}
    (shows : Shows chain cursor contents) (above : chain.length ≤ block.height.toNat) :
    FirstConfirmed contents block 0 :=
  fun _ _ => shows.get?_confirmed_none above _

end FirstConfirmed

/-! ## Commits, write by write -/

/-- The contents show a picture.  All blocks have their transactions, except
that of the last block only the first ones are confirmed as long as the cursor
does not name it. -/
structure Fills (picture : Picture) (count : Nat) (contents : Contents) : Prop where
  depicts : picture.Depicts contents
  earlier : ∀ block ∈ picture.chain.dropLast,
    FirstConfirmed contents block block.transactions.length
  last : ∀ block, picture.chain.getLast? = some block → FirstConfirmed contents block count
  settled : picture.Settled → ∀ block, picture.chain.getLast? = some block →
    block.transactions.length ≤ count

theorem Picture.not_settled_push {picture : Picture} {block : Block} (settled : picture.Settled)
    (linked : Chain.Linked (picture.chain ++ [block])) (fits : block.Fits) :
    ¬ (picture.push block settled linked fits).Settled := by
  intro pushed
  have last : Chain.tip picture.chain = some (Cursor.ofBlock block) :=
    settled.symm.trans (pushed.trans (Chain.tip_append_singleton _ _))
  have short := picture.linked.tip_height last
  have long := linked.tip_height (Chain.tip_append_singleton _ _)
  rw [List.length_append, List.length_singleton] at long
  omega

namespace Fills

variable {picture : Picture} {count : Nat} {contents : Contents} {block : Block}

theorem empty : Fills Picture.empty 0 ∅ where
  depicts := shows_empty
  earlier := List.forall_mem_nil _
  last := by
    intro block last
    cases last
  settled := by
    intro _ block last
    cases last

theorem all_of_settled (fills : Fills picture count contents) (settled : picture.Settled) :
    ∀ block ∈ picture.chain, FirstConfirmed contents block block.transactions.length := by
  intro block member
  rcases List.eq_nil_or_concat picture.chain with nothing | ⟨front, tip, same⟩
  · rw [nothing] at member
    cases member
  · rw [List.concat_eq_append] at same
    have last : picture.chain.getLast? = some tip := by rw [same, List.getLast?_concat]
    rw [same] at member
    rcases List.mem_append.mp member with before | here
    · apply fills.earlier
      rw [same, List.dropLast_concat]
      exact before
    · rw [List.mem_singleton.mp here]
      exact (fills.last tip last).all (fills.settled settled tip last)

theorem getElem (fills : Fills picture count contents) {height : Nat}
    (inside : height < picture.chain.length) :
    ∃ stored, FirstConfirmed contents picture.chain[height] stored ∧
      (stored < picture.chain[height].transactions.length →
        height + 1 = picture.chain.length) := by
  by_cases last : height + 1 = picture.chain.length
  · have final : picture.chain.getLast? = some picture.chain[height] := by
      rw [List.getLast?_eq_getElem?, ← last, Nat.add_sub_cancel, List.getElem?_eq_getElem]
    exact ⟨count, fills.last _ final, fun _ => last⟩
  · have before : height < picture.chain.dropLast.length := by
      rw [List.length_dropLast]
      omega
    have member : picture.chain[height] ∈ picture.chain.dropLast := by
      rw [← List.getElem_dropLast before]
      exact List.getElem_mem before
    exact ⟨_, fills.earlier _ member, fun missing => absurd missing (Nat.lt_irrefl _)⟩

theorem put_block (fills : Fills picture count contents) (settled : picture.Settled)
    (linked : Chain.Linked (picture.chain ++ [block])) (fits : block.Fits) :
    Fills (picture.push block settled linked fits) 0
      (Edit.apply contents
        (RecordStore.blocks.putEdit (StoreKey.block block.height) block)) where
  depicts := Shows.put_block fills.depicts picture.linked linked.height_last
  earlier := by
    intro other member
    have inside : other ∈ picture.chain := by
      have front : (picture.chain ++ [block]).dropLast = picture.chain := List.dropLast_concat
      exact front ▸ member
    apply (fills.all_of_settled settled other inside).of_same
    intro hash
    exact blocks_apart_confirmed.symm.get?_put _ _ _ _
  last := by
    intro other last
    have final : (picture.chain ++ [block]).getLast? = some block := List.getLast?_concat
    cases final.symm.trans last
    apply (FirstConfirmed.of_fresh fills.depicts (Nat.le_of_eq linked.height_last.symm)).of_same
    intro hash
    exact blocks_apart_confirmed.symm.get?_put _ _ _ _
  settled := fun pushed => absurd pushed (Picture.not_settled_push settled linked fits)

theorem put_confirmed (fills : Fills picture count contents)
    (last : picture.chain.getLast? = some block) (positive : 0 < block.height.toNat)
    (fits : block.Fits) (distinct : block.Distinct) (inside : count < block.transactions.length) :
    Fills picture (count + 1)
      (Edit.apply contents (confirmEdit block.height block.transactions[count])) := by
  rcases List.getLast?_eq_some_iff.mp last with ⟨front, chain⟩
  have height : block.height.toNat = front.length := (chain ▸ picture.linked).height_last
  constructor
  · have confirmed : ConfirmedBelow picture.chain.length
        (block.transactions[count].confirmedAt block.height) :=
      { fits := (fits.transactions _ (List.getElem_mem inside)).confirmedAt _
        positive := positive
        below := picture.linked.height_lt (List.mem_of_getLast? last) }
    have shows := Shows.put_confirmed fills.depicts confirmed
    rw [confirmEdit]
    exact shows
  · intro other member
    apply (fills.earlier other member).of_same
    intro hash
    rw [confirmEdit, RecordStore.get?_put, if_neg]
    intro keys
    -- the block stands above the other one, so their transactions have different keys
    have heights := (StoreKey.transaction_inj.mp (RecordStore.fullKey_inj.mp keys)).1
    rw [chain, List.dropLast_concat] at member
    have lower := (chain ▸ picture.linked).front.height_lt member
    rw [heights] at lower
    omega
  · intro other tip
    cases last.symm.trans tip
    exact (fills.last block last).confirm distinct inside
  · intro settled other tip
    exact Nat.le_succ_of_le (fills.settled settled other tip)

/-- A write apart from the confirmed transactions leaves them as they are. -/
theorem of_same (fills : Fills picture count contents) {other : Picture} {later : Contents}
    (chain : other.chain = picture.chain) (depicts : other.Depicts later)
    (same : ∀ height hash, later.get? (RecordStore.confirmed.fullKey
        (StoreKey.transaction height hash)) =
      contents.get? (RecordStore.confirmed.fullKey (StoreKey.transaction height hash)))
    (enough : other.Settled → ∀ block, picture.chain.getLast? = some block →
      block.transactions.length ≤ count) : Fills other count later where
  depicts := depicts
  earlier := by
    rw [chain]
    intro block member
    exact (fills.earlier block member).of_same (same block.height)
  last := by
    rw [chain]
    intro block final
    exact (fills.last block final).of_same (same block.height)
  settled := by
    rw [chain]
    exact enough

theorem put_cursor (fills : Fills picture count contents) {tip : Cursor}
    (last : Chain.tip picture.chain = some tip)
    (enough : ∀ block, picture.chain.getLast? = some block → block.transactions.length ≤ count) :
    Fills (picture.settle tip last) count
      (Edit.apply contents (RecordStore.cursors.putEdit StoreKey.cursor tip)) :=
  fills.of_same rfl (Shows.put_cursor fills.depicts tip)
    (fun _ _ => cursors_apart_confirmed.symm.get?_put _ _ _ _) fun _ => enough

theorem put_pending (fills : Fills picture count contents) (key : String)
    (transaction : Transaction) :
    Fills picture count
      (Edit.apply contents (RecordStore.pending.putEdit key transaction)) :=
  fills.of_same rfl (Shows.put_pending fills.depicts key transaction)
    (fun _ _ => confirmed_apart_pending.get?_put _ _ _ _) fills.settled

end Fills

/-! ## Production keeps its terms -/

/-- The terms of a node that extends its chain alone: a picture, and how many
transactions of its last block are confirmed. -/
def producer : Terms (Picture × Nat) where
  shows world := Fills world.1 world.2
  rely before later := later = before
  guarantee _ _ _ := True

theorem producer_sees (picture : Picture) (count : Nat) :
    Sees producer (picture, count) picture := by
  rintro _ contents rfl fills
  exact ⟨rfl, fills.depicts⟩

theorem producer_write {goal : Except Fault Value → Picture × Nat → Prop}
    {next : Unit → StoreAction Value} {world : Picture × Nat} {edit : Edit}
    (after : Picture × Nat)
    (fills : ∀ contents, Fills world.1 world.2 contents →
      Fills after.1 after.2 (Edit.apply contents edit))
    (holds : (next ()).Meets producer goal after) :
    (StoreAction.write [edit] >>= next).Meets producer goal world := by
  apply StoreAction.meets_write_bind
  rintro _ rfl
  exact ⟨after, trivial, fills, holds⟩

theorem storeConfirmed_producer {picture : Picture} {block : Block}
    (last : picture.chain.getLast? = some block) (positive : 0 < block.height.toNat)
    (fits : block.Fits) (distinct : block.Distinct) {front rest : List Transaction}
    (all : block.transactions = front ++ rest) :
    (storeConfirmed block.height rest).Meets producer
      (Returns fun _ after => after = (picture, block.transactions.length))
      (picture, front.length) := by
  induction rest generalizing front with
  | nil =>
      rw [all, List.append_nil]
      rfl
  | cons transaction rest ih =>
      have inside : front.length < block.transactions.length := by
        rw [all, List.length_append, List.length_cons]
        omega
      have next : block.transactions[front.length] = transaction := by
        simp only [all, List.getElem_append_right (Nat.le_refl _), Nat.sub_self,
          List.getElem_cons_zero]
      rw [storeConfirmed_cons]
      apply producer_write (picture, front.length + 1)
      · intro contents fills
        exact next ▸ fills.put_confirmed last positive fits distinct inside
      · have more := ih (all.trans (List.append_cons front transaction rest))
        rwa [List.length_append] at more

theorem commit_producer {picture : Picture} {count : Nat} {block : Block} {tip : Cursor}
    (settled : picture.Settled) (last : Chain.tip picture.chain = some tip)
    (follows : tip.ExtendedBy block) (fits : block.Fits) (distinct : block.Distinct) :
    (commit block block.transactions).Meets producer (Returns fun _ after => after.1.Settled)
      (picture, count) := by
  have linked := picture.linked.append last follows
  have positive : 0 < block.height.toNat := by
    rw [follows.1]
    exact Nat.succ_pos _
  let pushed := picture.push block settled linked fits
  have top : pushed.chain.getLast? = some block := List.getLast?_concat
  have reached : Chain.tip pushed.chain = some (.ofBlock block) :=
    Chain.tip_append_singleton _ _
  rw [commit]
  apply producer_write (pushed, 0)
  · intro contents fills
    exact fills.put_block settled linked fits
  · apply StoreAction.Meets.bind_returns
      (storeConfirmed_producer top positive fits distinct (List.nil_append _).symm)
    rintro _ _ rfl
    apply producer_write (pushed.settle (.ofBlock block) reached, block.transactions.length)
    · intro contents fills
      apply fills.put_cursor reached
      intro other final
      cases top.symm.trans final
      exact Nat.le_refl _
    · exact reached.symm

theorem start_producer {picture : Picture} {count : Nat} (settled : picture.Settled)
    (nothing : picture.chain = []) :
    start.Meets producer (Returns fun _ after => after.1.Settled) (picture, count) := by
  have linked : Chain.Linked (picture.chain ++ [Block.genesis]) := by
    rw [nothing]
    exact Chain.linked_genesis
  have last : Chain.tip (picture.chain ++ [Block.genesis]) = some Cursor.genesis :=
    Chain.tip_append_singleton _ _
  have top : (picture.chain ++ [Block.genesis]).getLast? = some Block.genesis :=
    List.getLast?_concat
  rw [start]
  let begun := picture.push Block.genesis settled linked Block.fits_genesis
  apply producer_write (begun, 0)
  · intro contents fills
    exact fills.put_block settled linked Block.fits_genesis
  · apply producer_write (begun.settle Cursor.genesis last, 0)
    · intro contents fills
      apply fills.put_cursor last
      intro other final
      cases top.symm.trans final
      exact Nat.le_refl _
    · exact last.symm

theorem check_producer {picture : Picture} {count : Nat} (settled : picture.Settled) :
    check.Meets producer (fun _ after => after.1.Settled) (picture, count) := by
  apply (producer_sees picture count).check_meets
  · intro nothing _
    apply StoreAction.Meets.bind_returns (start_producer settled nothing)
    intro _ after final
    exact final
  · intro _ _ _
    exact settled
  · intro _ _ _ stale
    exact absurd settled stale

theorem append_producer {picture : Picture} {count : Nat} (settled : picture.Settled)
    {block : Block} (fits : block.Fits) (distinct : block.Distinct) :
    (append block).Meets producer (fun _ after => after.1.Settled) (picture, count) := by
  rw [append]
  apply StoreAction.Meets.bind
  apply (producer_sees picture count).cursor_meets settled
  · intro _
    exact settled
  · intro tip last
    dsimp only
    split
    next follows =>
      apply (commit_producer settled last follows fits distinct).imp
      intro outcome after reached
      cases outcome with
      | ok _ => exact reached
      | error _ => exact reached.elim
    next => exact settled

theorem appendBuilt_producer {picture : Picture} {count : Nat} (settled : picture.Settled)
    {build : Cursor → Block} (fits : ∀ tip : Cursor, tip.Fits → (build tip).Fits)
    (distinct : ∀ tip, (build tip).Distinct) :
    (appendBuilt build).Meets producer (fun _ after => after.1.Settled) (picture, count) := by
  rw [appendBuilt]
  apply StoreAction.Meets.bind
  apply (producer_sees picture count).cursor_meets settled
  · intro _
    exact settled
  · intro tip last
    dsimp only
    split
    next follows =>
      have fitting := fits tip (Picture.cursor_fits (settled.trans last))
      apply StoreAction.Meets.bind_returns
        (commit_producer settled last follows fitting (distinct tip))
      intro _ after reached
      exact reached
    next => exact settled

end Ledger

namespace Producer

open Ledger

theorem reward_fits (height : UInt64) (timestamp : Int64) : (reward height timestamp).Fits where
  hash := Transaction.computeHash_fits _
  kind := show TextFits Transaction.coinbaseKind by decide
  sender := show TextFits "COINBASE" by decide
  receiver := show TextFits receiver by decide
  publicKey := show TextFits placeholder by decide
  verification := show TextFits placeholder by decide

theorem nextBlock_fits (timestamp : Int64) {tip : Cursor} (fits : tip.Fits) :
    (nextBlock timestamp tip).Fits :=
  Block.build_fits _ timestamp fits (show 1 < 2 ^ 64 by decide)
    (List.forall_mem_singleton.mpr (reward_fits _ timestamp))

theorem nextBlock_distinct (timestamp : Int64) (tip : Cursor) :
    (nextBlock timestamp tip).Distinct :=
  List.pairwise_singleton _ _

/-! ## Runs of production -/

/-- A call by which a node extends its chain on its own. -/
inductive Call where
  | append (block : Block) (fits : block.Fits) (distinct : block.Distinct)
  | appendBuilt (build : Cursor → Block) (fits : ∀ tip : Cursor, tip.Fits → (build tip).Fits)
    (distinct : ∀ tip, (build tip).Distinct)
  | synthesize (timestamp : Int64)

def Call.perform : Call → StoreAction Unit
  | append block _ _ => do let _ ← Ledger.append block
  | appendBuilt build _ _ => do let _ ← Ledger.appendBuilt build
  | synthesize timestamp => do let _ ← Producer.synthesize timestamp

theorem synthesize_producer {picture : Picture} {count : Nat} (settled : picture.Settled)
    (timestamp : Int64) :
    (synthesize timestamp).Meets producer (fun _ after => after.1.Settled) (picture, count) := by
  rw [synthesize]
  apply StoreAction.Meets.bind
  apply (appendBuilt_producer settled (fun _ => nextBlock_fits timestamp)
    (nextBlock_distinct timestamp)).imp
  intro outcome after reached
  cases outcome with
  | error fault => exact reached
  | ok block =>
      dsimp only
      rw [addPending, RecordStore.put]
      apply producer_write after
      · intro contents fills
        exact fills.put_pending _ _
      · exact reached

theorem ignoring_producer {action : StoreAction Value} {world : Picture × Nat}
    (meets : action.Meets producer (fun _ after => after.1.Settled) world) :
    (action >>= fun _ => pure ()).Meets producer (fun _ after => after.1.Settled) world := by
  apply StoreAction.Meets.bind
  apply meets.imp
  intro outcome after reached
  cases outcome with
  | ok _ => exact reached
  | error _ => exact reached

theorem Call.perform_producer {picture : Picture} {count : Nat} (settled : picture.Settled)
    (call : Call) :
    call.perform.Meets producer (fun _ after => after.1.Settled) (picture, count) := by
  cases call with
  | append block fits distinct =>
      exact ignoring_producer (append_producer settled fits distinct)
  | appendBuilt build fits distinct =>
      exact ignoring_producer (appendBuilt_producer settled fits distinct)
  | synthesize timestamp => exact ignoring_producer (synthesize_producer settled timestamp)

/-- A store with the writes that it took since it was new. -/
structure Trail where
  engine : Engine
  log : List (List Edit)

namespace Trail

def act (trail : Trail) (action : StoreAction Value) : Trail :=
  ⟨(action.run trail.engine).2, trail.log ++ (ExceptT.run action).log trail.engine⟩

/-- A new store after its first check. -/
def start (path : String) : Trail := act ⟨Engine.create path, []⟩ Ledger.check

def run (trail : Trail) (calls : List Call) : Trail :=
  calls.foldl (fun trail call => trail.act call.perform) trail

/-- The contents after the first writes of the log. -/
def survivors (trail : Trail) (count : Nat) : Contents :=
  Edit.applyAll ∅ (trail.log.take count).flatten

structure Sound (trail : Trail) : Prop where
  isOpen : trail.engine.isOpen = true
  contents : trail.engine.contents = Edit.applyAll ∅ trail.log.flatten
  fills : ∃ picture count, picture.Settled ∧ Fills picture count trail.engine.contents
  survives : ∀ count, ∃ picture stored, Fills picture stored (trail.survivors count)

theorem Sound.act {trail : Trail} {action : StoreAction Value} (sound : trail.Sound)
    (meets : ∀ {picture count}, picture.Settled →
      action.Meets producer (fun _ after => after.1.Settled) (picture, count)) :
    (trail.act action).Sound := by
  rcases sound.fills with ⟨picture, stored, settled, fills⟩
  have steps : action.Meets producer (fun _ after => after.1.Settled) (picture, stored) :=
    meets settled
  rcases Procedure.Meets.run steps (fun _ => rfl) sound.isOpen fills (fun _ _ => True)
      (fun _ _ => trivial) trivial with ⟨contents, after, ran, shows, final, _⟩
  have engine : (trail.act action).engine = { trail.engine with contents } := ran
  constructor
  · rw [engine]
    exact sound.isOpen
  · have logged := Procedure.run_eq_log sound.isOpen (ExceptT.run action)
    rw [Trail.act, StoreAction.run, logged, List.flatten_append, Edit.applyAll_append,
      sound.contents]
  · rw [engine]
    exact ⟨after.1, after.2, final, shows⟩
  · intro count
    by_cases short : count ≤ trail.log.length
    · rw [survivors, Trail.act, List.take_append_of_le_length short]
      exact sound.survives count
    · -- all earlier writes survived, and some of this action
      have cut := Procedure.Meets.log steps (fun _ => rfl) sound.isOpen fills
        (count - trail.log.length)
      rcases cut with ⟨later, left⟩
      rw [survivors, Trail.act, List.take_append, List.take_of_length_le (by omega),
        List.flatten_append, Edit.applyAll_append, ← sound.contents]
      exact ⟨later.1, later.2, left⟩

theorem start_sound (path : String) : (start path).Sound := by
  apply Sound.act _ check_producer
  constructor
  · rfl
  · rfl
  · exact ⟨Picture.empty, 0, rfl, Fills.empty⟩
  · intro count
    rw [survivors, List.take_nil]
    exact ⟨Picture.empty, 0, Fills.empty⟩

theorem Sound.run {trail : Trail} (sound : trail.Sound) (calls : List Call) :
    (trail.run calls).Sound := by
  induction calls generalizing trail with
  | nil => exact sound
  | cons call rest ih => exact ih (sound.act fun settled => call.perform_producer settled)

end Trail

/-! ## The start after a crash -/

/-- The first transactions of a block are read back, and the others are not
there. -/
def ReadsFirst (engine : Engine) (block : Block) (count : Nat) : Prop :=
  ∀ index (inside : index < block.transactions.length),
    let key := StoreKey.transaction block.height block.transactions[index].hash
    (RecordStore.confirmed.get key).run engine =
      (if index < count then .ok (block.transactions[index].confirmedAt block.height)
        else .error (.notFound (RecordStore.confirmed.keyspace ++ key)), engine)

/-- All stored blocks have all their transactions, except that the highest one
may have only the first ones if the ledger was rescanned. -/
def KeptAll (engine : Engine) (outcome : StartOutcome) : Prop :=
  ∃ blocks, Session.Stores ⟨engine, ∅⟩ blocks ∧ ∀ height (inside : height < blocks.length),
    ∃ count, ReadsFirst engine blocks[height] count ∧
      (count < blocks[height].transactions.length →
        height + 1 = blocks.length ∧ ∃ tip, outcome = .rescanned tip)

/-- What a start makes of the contents that a crash left. -/
structure Keeps (contents : Contents) : Prop where
  starts : (RecordStore.blocks.entriesIn contents).length ≤ 10 ^ 16 →
    ∀ path, ∃ outcome, (Ledger.check.run ⟨path, contents, true⟩).1 = .ok outcome
  kept : ∀ path outcome recovered,
    Ledger.check.run ⟨path, contents, true⟩ = (.ok outcome, recovered) →
      KeptAll recovered outcome

theorem readsFirst {engine : Engine} {block : Block} {count : Nat}
    (isOpen : engine.isOpen = true) (fits : block.Fits)
    (first : FirstConfirmed engine.contents block count) : ReadsFirst engine block count := by
  intro index inside
  dsimp only
  rw [RecordStore.get_eq_reading, StoreAction.run_reading isOpen, RecordStore.find,
    first index inside]
  by_cases stored : index < count
  · have each := (fits.transactions _ (List.getElem_mem inside)).confirmedAt block.height
    rw [if_pos stored, if_pos stored]
    exact Prod.ext (RecordStore.readRecord_encode Transaction.codec_roundTrips each) rfl
  · rw [if_neg stored, if_neg stored]

theorem keptAll_of_shows {engine : Engine} {outcome : StartOutcome} {chain : List Block}
    {cursor : Option Cursor} (isOpen : engine.isOpen = true)
    (shows : Shows chain cursor engine.contents) (linked : Chain.Linked chain)
    (fits : ∀ block ∈ chain, block.Fits)
    (each : ∀ height (inside : height < chain.length), ∃ count,
      FirstConfirmed engine.contents chain[height] count ∧
        (count < chain[height].transactions.length →
          height + 1 = chain.length ∧ ∃ tip, outcome = .rescanned tip)) :
    KeptAll engine outcome := by
  refine ⟨chain, Session.stores_of_shows isOpen shows linked fits, ?_⟩
  intro height inside
  rcases each height inside with ⟨count, first, last⟩
  exact ⟨count, readsFirst isOpen (fits _ (List.getElem_mem inside)) first, last⟩

section Restart

variable {picture : Picture} {count : Nat} {path : String} {outcome : StartOutcome}
  {recovered : Engine} {contents : Contents}

/-- With the cursor at the tip nothing is missing. -/
theorem keptAll_of_settled (fills : Fills picture count contents) (settled : picture.Settled)
    (ran : Ledger.check.run ⟨path, contents, true⟩ = (.ok outcome, recovered)) :
    KeptAll recovered outcome := by
  have isOpen : (⟨path, contents, true⟩ : Engine).isOpen = true := rfl
  rcases run_holder_returns (check_meets (.inl settled)) isOpen fills.depicts with
    ⟨found, edits, after, reached, wrote, _, shows, checked⟩
  cases ran.symm.trans reached
  cases checked with
  | started _ chain =>
      have begun : Shows [Block.genesis] after.cursor (Edit.applyAll contents edits) :=
        chain ▸ shows
      apply keptAll_of_shows rfl begun Chain.linked_genesis
        (List.forall_mem_singleton.mpr Block.fits_genesis)
      intro height inside
      have genesis : [Block.genesis][height].transactions = [] := by
        rw [List.mem_singleton.mp (List.getElem_mem inside)]
        rfl
      refine ⟨0, ?_, ?_⟩
      · intro index within
        rw [genesis] at within
        cases within
      · intro missing
        rw [genesis] at missing
        cases missing
  | trusted last =>
      have nothing : edits = [] := List.append_right_eq_self.mp wrote.symm
      subst nothing
      apply keptAll_of_shows rfl shows picture.linked picture.fits
      intro height inside
      refine ⟨_, fills.all_of_settled settled _ (List.getElem_mem inside), ?_⟩
      intro missing
      exact absurd missing (Nat.lt_irrefl _)
  | rescanned _ stale => exact absurd settled stale

/-- If the cursor is behind, the ledger is rescanned, and only the highest
block can lack transactions. -/
theorem keptAll_of_stale (fills : Fills picture count contents) (stale : ¬ picture.Settled)
    (ran : Ledger.check.run ⟨path, contents, true⟩ = (.ok outcome, recovered)) :
    KeptAll recovered outcome := by
  have isOpen : (⟨path, contents, true⟩ : Engine).isOpen = true := rfl
  rcases Procedure.run_alone (check_alone_of_stale fills.depicts stale) isOpen with
    ⟨after, engine, rescanned⟩
  have answer : (Procedure.run ⟨path, contents, true⟩ (ExceptT.run Ledger.check)).1 =
      .ok outcome := congrArg Prod.fst ran
  have left : recovered = ⟨path, after, true⟩ := (congrArg Prod.snd ran).symm.trans engine
  rcases rescanned outcome answer with ⟨tip, found, wrote⟩
  subst left wrote
  apply keptAll_of_shows rfl (Shows.put_cursor fills.depicts tip) picture.linked picture.fits
  intro height inside
  rcases fills.getElem inside with ⟨stored, first, last⟩
  refine ⟨stored, first.of_same fun hash => ?_, fun missing => ⟨last missing, tip, found⟩⟩
  exact cursors_apart_confirmed.symm.get?_put _ _ _ _

theorem keeps_of_fills (fills : Fills picture count contents) : Keeps contents where
  starts := by
    intro few path
    rw [Shows.count fills.depicts] at few
    have isOpen : (⟨path, contents, true⟩ : Engine).isOpen = true := rfl
    rcases run_holder_returns (check_meets (.inr few)) isOpen fills.depicts with
      ⟨outcome, _, _, ran, _⟩
    exact ⟨outcome, congrArg Prod.fst ran⟩
  kept := by
    intro path outcome recovered ran
    by_cases settled : picture.Settled
    · exact keptAll_of_settled fills settled ran
    · exact keptAll_of_stale fills settled ran

end Restart

/-- Whatever a node produces on its own, after a crash that any number of the
first writes survived the next start finds the transactions of all blocks.  At
most the highest block has lost some of its last ones, if its commit was cut
off. -/
theorem crash_keeps_transactions (path : String) (calls : List Call) (count : Nat) :
    Keeps (((Trail.start path).run calls).survivors count) := by
  rcases ((Trail.start_sound path).run calls).survives count with ⟨picture, stored, fills⟩
  exact keeps_of_fills fills

/-- A block with one transaction. -/
def sampleBlock : Block :=
  { height := 1, hash := "first", previousHash := Block.genesisHash, timestamp := 0
    merkleRoot := "", transactions := [{ (default : Transaction) with hash := "reward" }] }

theorem sampleBlock_fits : sampleBlock.Fits where
  hash := show TextFits "first" by decide
  previousHash := show TextFits Block.genesisHash by decide
  merkleRoot := show TextFits "" by decide
  count := show 1 < 2 ^ 64 by decide
  transactions := by
    have empty : TextFits "" := by decide
    have reward : TextFits "reward" := by decide
    exact List.forall_mem_singleton.mpr ⟨reward, empty, empty, empty, empty, empty⟩

/-- After a crash between the two, a block is there without its transaction,
and the check succeeds. -/
theorem interrupted_commit_loses_transaction :
    let trail := (Trail.start "ledger").run
      [.append sampleBlock sampleBlock_fits (List.pairwise_singleton _ _)]
    let checked := Ledger.check.run ⟨"ledger", trail.survivors 3, true⟩
    checked.1 = .ok (.rescanned ⟨1, "first"⟩) ∧
      ((Ledger.block 1).run checked.2).1 = .ok sampleBlock ∧
      ((RecordStore.confirmed.get (StoreKey.transaction 1 "reward")).run checked.2).1 =
        .error (.notFound "tx:0000000000000001:reward") := by
  refine ⟨?_, ?_, ?_⟩
  · cbv
  · cbv
  · cbv

end Producer

end LedgerNode
