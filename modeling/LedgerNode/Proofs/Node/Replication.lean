import Mathlib
import LedgerNode.Gossip.Channel
import LedgerNode.Proofs.Ledger.Confluence
import LedgerNode.Proofs.Node.Publication

namespace LedgerNode

/-!
# A follower ends where the producer is

A producer tells of its blocks and of its pending transfers in messages of their
own.  A follower that receives each of them at least once stores the same, in
whatever order they come and however often.

Blocks come in any order, so the blocks alone are the subject of the deliveries
to a session.  Transfers may come between any two of them.  They touch nothing
that blocks depend on, so a follower with them is at any time a follower without
them, on whose contents they were put afterwards.

Two transfers are stored under one key if their hashes are equal.  If they are
then different transfers, the one that comes last stays, and this may be another
one at the follower.  Such two transfers are a collision of the digest.
-/

namespace Ledger

/-! ## Pending transactions -/

/-- Where a pending transaction lies. -/
def pendingKey (transaction : Transaction) : Bytes :=
  RecordStore.pending.fullKey (StoreKey.transaction 0 transaction.hash)

theorem pendingKey_inj {first second : Transaction} :
    pendingKey first = pendingKey second ↔ first.hash = second.hash := by
  rw [pendingKey, pendingKey, RecordStore.fullKey_inj, StoreKey.transaction_inj]
  exact and_iff_right rfl

theorem part_pendingEdits {store : RecordStore Record} (apart : store.Apart RecordStore.pending)
    (contents : Contents) (loose : List Transaction) :
    store.part (Edit.applyAll contents (loose.map pendingEdit)) = store.part contents := by
  induction loose generalizing contents with
  | nil => rfl
  | cons transaction rest ih => exact (ih _).trans (apart.part_put _ _ _)

/-- Of the transactions put under a key the last one stays. -/
theorem get?_pendingEdits (contents : Contents) (loose : List Transaction) (key : Bytes) :
    (Edit.applyAll contents (loose.map pendingEdit)).get? key =
      ((loose.reverse.find? fun transaction => pendingKey transaction = key).map
        Transaction.codec.encode).or (contents.get? key) := by
  induction loose generalizing contents with
  | nil => rfl
  | cons transaction rest ih =>
      have put : (Edit.apply contents (pendingEdit transaction)).get? key =
          if key = pendingKey transaction then some (Transaction.codec.encode transaction)
          else contents.get? key := RecordStore.get?_put _ _ _ _ _
      rw [List.map_cons, List.reverse_cons, List.find?_append]
      refine (ih _).trans ?_
      rw [put]
      by_cases here : key = pendingKey transaction
      · cases rest.reverse.find? fun other => pendingKey other = key <;> simp [here]
      · have there : ¬ pendingKey transaction = key := fun same => here same.symm
        cases rest.reverse.find? fun other => pendingKey other = key <;> simp [here, there]

variable {contents : Contents} {first second : List Transaction}

theorem contains_pendingEdits_iff {loose : List Transaction} {key : Bytes} :
    (Edit.applyAll contents (loose.map pendingEdit)).contains key = true ↔
      (∃ transaction ∈ loose, pendingKey transaction = key) ∨ contents.contains key = true := by
  rw [OrderedMap.contains, get?_pendingEdits, Option.isSome_or, Bool.or_eq_true,
    Option.isSome_map, List.find?_isSome]
  simp [OrderedMap.contains]

/-- The keys depend on which transactions were put only. -/
theorem contains_pendingEdits_congr
    (same : ∀ transaction, transaction ∈ first ↔ transaction ∈ second) (key : Bytes) :
    (Edit.applyAll contents (first.map pendingEdit)).contains key =
      (Edit.applyAll contents (second.map pendingEdit)).contains key := by
  apply Bool.eq_iff_iff.mpr
  simp only [contains_pendingEdits_iff, same]

/-- So do the transactions, if their hashes tell them apart. -/
theorem pendingEdits_congr (same : ∀ transaction, transaction ∈ first ↔ transaction ∈ second)
    (apart : ∀ one ∈ second, ∀ other ∈ second, one.hash = other.hash → one = other) :
    Edit.applyAll contents (first.map pendingEdit) =
      Edit.applyAll contents (second.map pendingEdit) := by
  apply OrderedMap.ext_get?
  intro key
  -- any list of the same transactions finds the one that has the key
  have finds (loose : List Transaction) (members : ∀ one, one ∈ loose ↔ one ∈ second)
      (one : Transaction) : (loose.find? fun other => pendingKey other = key) = some one ↔
        one ∈ second ∧ pendingKey one = key := by
    constructor
    · intro found
      exact ⟨(members one).mp (List.mem_of_find?_eq_some found),
        by simpa using List.find?_some found⟩
    · rintro ⟨inside, here⟩
      cases found : loose.find? fun other => pendingKey other = key with
      | none =>
          have absent := List.find?_eq_none.mp found one ((members one).mpr inside)
          exact absurd here (by simpa using absent)
      | some other =>
          have member := (members other).mp (List.mem_of_find?_eq_some found)
          have there : pendingKey other = key := by simpa using List.find?_some found
          have hashes := pendingKey_inj.mp (there.trans here.symm)
          rw [apart other member one inside hashes]
  have agree : (first.reverse.find? fun other => pendingKey other = key) =
      second.reverse.find? fun other => pendingKey other = key := by
    apply Option.ext
    intro one
    rw [finds _ (by simpa using same), finds _ (by simp)]
  rw [get?_pendingEdits, get?_pendingEdits, agree]

end Ledger

open Ledger

namespace Session

/-! ## Messages -/

/-- A session takes a message as the node with the given id. -/
def take (session : Session) (id : String) (message : Message) :
    Except Fault Delivery × Session :=
  let (answer, waiting, engine) :=
    (Channel.handle id message).run session.waiting session.engine
  (answer, ⟨engine, waiting⟩)

/-- Messages are taken one after another, with their answers. -/
def takeAll (session : Session) (id : String) :
    List Message → List (Except Fault Delivery) × Session
  | [] => ([], session)
  | message :: rest =>
    let (answer, next) := session.take id message
    let (answers, last) := next.takeAll id rest
    (answer :: answers, last)

/-- The block that a message brings. -/
def parcelOf? (message : Message) : Option WaitingBlock :=
  match Envelope.decode message.data with
  | .ok (.newBlock block transactions) => some ⟨block, transactions⟩
  | _ => none

/-- The loose transactions that a message brings. -/
def looseOf (message : Message) : List Transaction :=
  match Envelope.decode message.data with
  | .ok (.newTransactions transactions) => transactions
  | _ => []

variable {session : Session} {id : String} {message : Message}

theorem take_newBlock (foreign : message.origin ≠ id) {parcel : WaitingBlock}
    (read : Envelope.decode message.data = .ok (.newBlock parcel.block parcel.transactions)) :
    session.take id message =
      ((session.deliver parcel).1.map (.block parcel.block.height),
        (session.deliver parcel).2) := by
  have handles : Channel.handle id message = (do
      return .block parcel.block.height (← accept parcel.block parcel.transactions)) := by
    rw [Channel.handle, if_neg foreign, read]
    rfl
  rw [take, handles, LedgerAction.run_bind_return]
  rfl

theorem take_pending (foreign : message.origin ≠ id) (isOpen : session.engine.isOpen = true)
    {transaction : Transaction} (pending : transaction.blockHeight = 0)
    (read : Envelope.decode message.data = .ok (.newTransactions [transaction])) :
    session.take id message =
      (.ok (.transactions 1), ⟨session.engine.edited [pendingEdit transaction],
        session.waiting⟩) := by
  have handles : Channel.handle id message = (do
      return .transactions (← LedgerAction.ofStore (acceptTransactions [transaction]))) := by
    rw [Channel.handle, if_neg foreign, read]
    rfl
  have marked : transaction.isPending = true := by
    rw [Transaction.isPending, pending]
    rfl
  have stores : (addTransaction transaction).Does session.engine true
      [pendingEdit transaction] := by
    rw [addTransaction, if_pos marked]
    exact (addPending_does isOpen transaction).bind_pure fun _ => true
  have accepts : (acceptTransactions [transaction]).Does session.engine 1
      [pendingEdit transaction] := stores.bind_pure fun stored => stored.toNat + 0
  have ran : (acceptTransactions [transaction]).run session.engine = _ := accepts
  rw [take, handles, LedgerAction.run_bind_return, LedgerAction.run_ofStore, ran]
  rfl

/-! ## Followers -/

/-- A follower after some blocks of a family and some pending transactions were
delivered.  It is a session in the midst of the deliveries of the blocks, with
the pending transactions put afterwards. -/
structure Replica (base : Session) (first : Picture) (family delivered : List WaitingBlock)
    (loose : List Transaction) (session : Session) (picture : Picture) : Prop where
  midway : Midway base first family delivered
    ⟨base.engine.edited ((filled family delivered).flatMap commitEdits), session.waiting⟩ picture
  engine : session.engine = base.engine.edited
    ((filled family delivered).flatMap commitEdits ++ loose.map pendingEdit)

/-- What a message may bring to the follower: a block of the family, or a pending
transaction. -/
def Brings (family : List WaitingBlock) (message : Message) : Prop :=
  (∃ parcel ∈ family,
      Envelope.decode message.data = .ok (.newBlock parcel.block parcel.transactions)) ∨
    ∃ transaction : Transaction, transaction.blockHeight = 0 ∧
      Envelope.decode message.data = .ok (.newTransactions [transaction])

namespace Replica

variable {base : Session} {first picture : Picture} {tip : Cursor}
  {family delivered : List WaitingBlock} {loose : List Transaction} {parcel : WaitingBlock}

theorem sound (replica : Replica base first family delivered loose session picture) :
    session.Sound picture := by
  refine ⟨?_, replica.midway.sound.settled, ?_, replica.midway.sound.waiting⟩
  · rw [replica.engine]
    exact replica.midway.sound.isOpen
  · rw [replica.engine, ← Engine.edited_edited]
    exact shows_pendingEdits_iff.mpr replica.midway.sound.depicts

theorem start (sound : base.Sound first) (nothing : base.waiting = ∅)
    (family : List WaitingBlock) : Replica base first family [] [] base first := by
  have midway := Midway.start sound nothing family
  have engine : base.engine = base.engine.edited ((filled family []).flatMap commitEdits) :=
    midway.engine
  refine ⟨?_, ?_⟩
  · rw [← engine]
    exact midway
  · rw [List.map_nil, List.append_nil]
    exact engine

/-- A transfer is put beside what is there. -/
theorem pend (replica : Replica base first family delivered loose session picture)
    (transaction : Transaction) :
    Replica base first family delivered (loose ++ [transaction])
      ⟨session.engine.edited [pendingEdit transaction], session.waiting⟩ picture := by
  refine ⟨replica.midway, ?_⟩
  rw [replica.engine, Engine.edited_edited, List.map_append, List.append_assoc]
  rfl

/-- A delivered block is welcome, whatever transfers were put before. -/
theorem deliver (replica : Replica base first family delivered loose session picture)
    (succession : Succession tip family) (last : Chain.tip first.chain = some tip)
    (member : parcel ∈ family) :
    ∃ answer after, (session.deliver parcel).1 = .ok answer ∧
      Replica base first family (parcel :: delivered) loose (session.deliver parcel).2
        after := by
  rcases replica.sound.deliver (replica.midway.tip_eq last) (succession.fits parcel member) with
    ⟨answer, edits, after, answered, became, sound, wrote, engine⟩
  rcases became.extendedBy replica.sound.settled with ⟨parcels, grown, _⟩
  have commits : edits = parcels.flatMap commitEdits :=
    List.append_cancel_left (wrote.symm.trans grown.written)
  let ghost : Session := ⟨base.engine.edited
    ((filled family delivered).flatMap commitEdits ++ edits), (session.deliver parcel).2.waiting⟩
  -- without the transfers the same edits lead to the same picture
  have beside : (session.deliver parcel).2.engine =
      ghost.engine.edited (loose.map pendingEdit) := by
    have swap := pending_after_commits
      (base.engine.edited ((filled family delivered).flatMap commitEdits)) loose parcels
    rw [← commits, Engine.edited_edited, Engine.edited_edited, ← List.append_assoc,
      ← List.append_assoc] at swap
    have ran : (session.deliver parcel).2.engine = session.engine.edited edits := engine
    rw [ran, replica.engine, Engine.edited_edited, swap, Engine.edited_edited]
  have shown : after.Depicts ghost.engine.contents := by
    have shows := sound.depicts
    rw [beside] at shows
    exact shows_pendingEdits_iff.mp shows
  have ghostSound : ghost.Sound after :=
    ⟨replica.midway.sound.isOpen, sound.settled, shown, sound.waiting⟩
  have became_ghost : Accepted picture _ session.waiting parcel answer ghost.waiting after :=
    became
  have midway := (replica.midway.accepted succession last member became_ghost ghostSound wrote
    (Engine.edited_edited _ _ _).symm).1
  have filling : ghost.engine = base.engine.edited
      ((filled family (parcel :: delivered)).flatMap commitEdits) := midway.engine
  refine ⟨answer, after, answered, ?_, ?_⟩
  · rw [← filling]
    exact midway
  · rw [beside, filling, Engine.edited_edited]

/-- Each message is answered, and the follower stays one. -/
theorem take (replica : Replica base first family delivered loose session picture)
    (succession : Succession tip family) (last : Chain.tip first.chain = some tip)
    (foreign : message.origin ≠ id) (brings : Brings family message) :
    ∃ answer after, (session.take id message).1 = .ok answer ∧
      Replica base first family ((parcelOf? message).toList ++ delivered)
        (loose ++ looseOf message) (session.take id message).2 after := by
  rcases brings with ⟨parcel, member, read⟩ | ⟨transaction, pending, read⟩
  · rcases replica.deliver succession last member with ⟨answer, after, answered, next⟩
    rw [take_newBlock foreign read, parcelOf?, looseOf, read, answered]
    rw [← List.append_nil loose] at next
    exact ⟨_, after, rfl, next⟩
  · rw [take_pending foreign replica.sound.isOpen pending read, parcelOf?, looseOf, read]
    exact ⟨_, picture, rfl, replica.pend transaction⟩

theorem takeAll (replica : Replica base first family delivered loose session picture)
    (succession : Succession tip family) (last : Chain.tip first.chain = some tip)
    {messages : List Message} (foreign : ∀ message ∈ messages, message.origin ≠ id)
    (brings : ∀ message ∈ messages, Brings family message) :
    ∃ after, Replica base first family ((messages.filterMap parcelOf?).reverse ++ delivered)
        (loose ++ messages.flatMap looseOf) (session.takeAll id messages).2 after ∧
      (session.takeAll id messages).1.length = messages.length ∧
      ∀ answer ∈ (session.takeAll id messages).1, ∃ delivery, answer = .ok delivery := by
  induction messages generalizing session picture delivered loose with
  | nil =>
      refine ⟨picture, ?_, rfl, List.forall_mem_nil _⟩
      rw [List.flatMap_nil, List.append_nil]
      exact replica
  | cons message rest ih =>
      rcases List.forall_mem_cons.mp foreign with ⟨fromOther, others⟩
      rcases List.forall_mem_cons.mp brings with ⟨head, tail⟩
      rcases replica.take succession last fromOther head with ⟨answer, middle, answered, next⟩
      rcases ih next others tail with ⟨after, final, count, succeed⟩
      refine ⟨after, ?_, congrArg (· + 1) count,
        List.forall_mem_cons.mpr ⟨⟨answer, answered⟩, succeed⟩⟩
      have parcels : (List.filterMap parcelOf? (message :: rest)).reverse =
          (rest.filterMap parcelOf?).reverse ++ (parcelOf? message).toList := by
        cases found : parcelOf? message <;> simp [found]
      rw [parcels, List.flatMap_cons, List.append_assoc, ← List.append_assoc loose]
      exact final

end Replica

end Session

namespace Producer

/-! ## Collisions -/

theorem transfer_hashInput_inj {first second : Int64} :
    (transfer first).hashInput = (transfer second).hashInput ↔ first = second := by
  constructor
  · intro same
    simp only [Transaction.hashInput, transfer, Transaction.hashed, String.append_left_inj,
      String.append_right_inj] at same
    exact Int64.toInt_inj.mp (Int.repr_injective same)
  · exact congrArg fun timestamp => (transfer timestamp).hashInput

/-- The transfers at two of the times are different texts with one digest. -/
def Collision (timestamps : List Int64) : Prop :=
  ∃ first ∈ timestamps, ∃ second ∈ timestamps,
    (transfer first).hashInput ≠ (transfer second).hashInput ∧
      Sha256.digest (Bytes.ofText (transfer first).hashInput) =
        Sha256.digest (Bytes.ofText (transfer second).hashInput)

theorem collision_of_hash {timestamps : List Int64} {first second : Int64}
    (one : first ∈ timestamps) (other : second ∈ timestamps) (different : first ≠ second)
    (same : (transfer first).hash = (transfer second).hash) : Collision timestamps :=
  ⟨first, one, second, other, mt transfer_hashInput_inj.mp different,
    RecordHash.tagged_inj.mp same⟩

/-! ## Replication -/

/-- The follower has what the producer has. -/
structure Replicates (timestamps : List Int64) (producer follower : Contents) : Prop where
  blocks : RecordStore.blocks.entriesIn follower = RecordStore.blocks.entriesIn producer
  confirmed : RecordStore.confirmed.entriesIn follower = RecordStore.confirmed.entriesIn producer
  cursors : RecordStore.cursors.entriesIn follower = RecordStore.cursors.entriesIn producer
  keys : ∀ key, follower.contains key = producer.contains key
  /-- Pending transactions can differ only where the digest fails to tell two of
  them apart. -/
  pending : RecordStore.pending.entriesIn follower = RecordStore.pending.entriesIn producer ∨
    Collision timestamps

theorem succession_blocksAt {tip : Cursor} (fits : tip.Fits) {timestamps : List Int64}
    (few : timestamps.length ≤ farthestAhead)
    (room : tip.height.toNat + timestamps.length < 2 ^ 64) :
    Succession tip ((blocksAt tip timestamps).map ownParcel) where
  count := by
    rw [List.length_map, length_blocksAt]
    exact few
  follows := follows_blocksAt room
  fits := by
    intro parcel member
    rcases List.mem_map.mp member with ⟨block, inside, same⟩
    exact same ▸ ownParcel_fits (fits_blocksAt fits block inside)
  distinct := by
    intro parcel member
    rcases List.mem_map.mp member with ⟨block, inside, same⟩
    rcases mem_blocksAt inside with ⟨timestamp, _, before, made⟩
    rw [← same, made]
    exact nextBlock_distinct timestamp before

/-- What is told of the blocks can be read. -/
theorem fits_announced {tip : Cursor} (fits : tip.Fits) {timestamps : List Int64} :
    ∀ envelope ∈ announced tip timestamps, envelope.Fits := by
  intro envelope member
  rcases mem_announced_iff.mp member with ⟨block, inside, same⟩ | ⟨timestamp, _, same⟩
  · have fitting := fits_blocksAt fits block inside
    exact same ▸ ⟨fitting, fitting.count, fitting.transactions⟩
  · exact same ▸ ⟨show 1 < 2 ^ 64 by decide,
      List.forall_mem_singleton.mpr (transfer_fits timestamp)⟩

/-- Whoever puts the transfers beside the same contents replicates the producer. -/
theorem replicates_of_transfers {timestamps : List Int64} {loose : List Transaction}
    (same : ∀ transaction, transaction ∈ loose ↔ transaction ∈ timestamps.map transfer)
    (contents : Contents) :
    Replicates timestamps (Edit.applyAll contents ((timestamps.map transfer).map pendingEdit))
      (Edit.applyAll contents (loose.map pendingEdit)) := by
  have part {Record : Type} {store : RecordStore Record}
      (apart : store.Apart RecordStore.pending) :
      store.entriesIn (Edit.applyAll contents (loose.map pendingEdit)) = store.entriesIn
        (Edit.applyAll contents ((timestamps.map transfer).map pendingEdit)) := by
    rw [RecordStore.entriesIn_eq, RecordStore.entriesIn_eq, part_pendingEdits apart,
      part_pendingEdits apart]
  refine ⟨part blocks_apart_pending, part confirmed_apart_pending, part cursors_apart_pending,
    contains_pendingEdits_congr same, ?_⟩
  by_cases clash : ∃ first ∈ timestamps, ∃ second ∈ timestamps, first ≠ second ∧
      (transfer first).hash = (transfer second).hash
  · rcases clash with ⟨first, one, second, other, distinct, hashes⟩
    exact .inr (collision_of_hash one other distinct hashes)
  · left
    have apart : ∀ one ∈ timestamps.map transfer, ∀ other ∈ timestamps.map transfer,
        one.hash = other.hash → one = other := by
      intro one isOne other isOther hashes
      rcases List.mem_map.mp isOne with ⟨first, inside, rfl⟩
      rcases List.mem_map.mp isOther with ⟨second, within, rfl⟩
      by_contra unequal
      exact clash ⟨first, inside, second, within, fun times => unequal (times ▸ rfl), hashes⟩
    rw [pendingEdits_congr same apart]

/-- What a new ledger's producer does. -/
theorem produceAll_start (path : String) {timestamps : List Int64}
    (few : timestamps.length ≤ 256) :
    (produceAll timestamps).Does (Session.start path).engine
      ((announced Cursor.genesis timestamps).map Envelope.encode)
      (((blocksAt Cursor.genesis timestamps).map ownParcel).flatMap commitEdits ++
        (timestamps.map transfer).map pendingEdit) := by
  have stored : RecordStore.cursors.find StoreKey.cursor (Session.start path).engine.contents =
      .ok Cursor.genesis := by cbv
  have genesis : Cursor.genesis.height.toNat = 0 := rfl
  have does := produceAll_does rfl stored Cursor.fits_genesis
    (show Cursor.genesis.height.toNat + timestamps.length < 2 ^ 64 by omega)
  rw [StoreAction.Does, edited_producedEdits] at does
  exact does

section Announced

variable {timestamps : List Int64} {deliveries : List Message}

/-- The messages are read as what was announced. -/
theorem decode_of_announced {data : Bytes}
    (told : data ∈ (announced Cursor.genesis timestamps).map Envelope.encode) :
    ∃ envelope ∈ announced Cursor.genesis timestamps, Envelope.decode data = .ok envelope := by
  rcases List.mem_map.mp told with ⟨envelope, member, same⟩
  have fits := fits_announced Cursor.fits_genesis envelope member
  exact ⟨envelope, member, same ▸ Envelope.decode_encode fits⟩

theorem brings_of_announced {message : Message}
    (told : message.data ∈ (announced Cursor.genesis timestamps).map Envelope.encode) :
    Session.Brings ((blocksAt Cursor.genesis timestamps).map ownParcel) message := by
  rcases decode_of_announced told with ⟨envelope, member, read⟩
  rcases mem_announced_iff.mp member with ⟨block, inside, same⟩ | ⟨timestamp, _, same⟩
  · exact .inl ⟨ownParcel block, List.mem_map_of_mem inside, same ▸ read⟩
  · exact .inr ⟨transfer timestamp, rfl, same ▸ read⟩

variable (told : ∀ message ∈ deliveries,
    message.data ∈ (announced Cursor.genesis timestamps).map Envelope.encode)
  (all : ∀ data ∈ (announced Cursor.genesis timestamps).map Envelope.encode,
    ∃ message ∈ deliveries, message.data = data)

include all

/-- Each envelope is read from one of the messages. -/
theorem delivered_of_announced {envelope : Envelope}
    (member : envelope ∈ announced Cursor.genesis timestamps) :
    ∃ message ∈ deliveries, Envelope.decode message.data = .ok envelope := by
  have fits := fits_announced Cursor.fits_genesis envelope member
  rcases all _ (List.mem_map_of_mem member) with ⟨message, inside, same⟩
  exact ⟨message, inside, same ▸ Envelope.decode_encode fits⟩

/-- All blocks arrive. -/
theorem mem_parcels {parcel : WaitingBlock}
    (member : parcel ∈ (blocksAt Cursor.genesis timestamps).map ownParcel) :
    parcel ∈ deliveries.filterMap Session.parcelOf? := by
  rcases List.mem_map.mp member with ⟨block, inside, same⟩
  rcases delivered_of_announced all (mem_announced_iff.mpr (.inl ⟨block, inside, rfl⟩)) with
    ⟨message, came, read⟩
  refine List.mem_filterMap.mpr ⟨message, came, ?_⟩
  rw [Session.parcelOf?, read, ← same]
  rfl

include told

/-- The transfers arrive, and no other loose transactions. -/
theorem mem_loose_iff (transaction : Transaction) :
    transaction ∈ deliveries.flatMap Session.looseOf ↔
      transaction ∈ timestamps.map transfer := by
  rw [List.mem_flatMap, List.mem_map]
  constructor
  · rintro ⟨message, came, loose⟩
    rcases decode_of_announced (told message came) with ⟨envelope, member, read⟩
    rw [Session.looseOf, read] at loose
    rcases mem_announced_iff.mp member with ⟨block, _, same⟩ | ⟨timestamp, inside, same⟩
    · rw [same] at loose
      cases loose
    · rw [same] at loose
      exact ⟨timestamp, inside, (List.mem_singleton.mp loose).symm⟩
  · rintro ⟨timestamp, inside, same⟩
    rcases delivered_of_announced all (mem_announced_iff.mpr (.inr ⟨timestamp, inside, rfl⟩)) with
      ⟨message, came, read⟩
    refine ⟨message, came, ?_⟩
    rw [Session.looseOf, read, ← same]
    exact List.mem_singleton_self _

end Announced

/-- A producer on a new ledger produces at some times, few enough that its last
block is not too far ahead of a new ledger.  A follower on another new ledger
takes its messages, in any order, some of them more than once, and none of them
not at all.  Every message is taken, and the follower replicates the
producer. -/
theorem follower_replicates (path place producer follower : String)
    (different : follower ≠ producer) (timestamps : List Int64)
    (few : timestamps.length ≤ 256) :
    ∃ messages, ((produceAll timestamps).run (Session.start path).engine).1 = .ok messages ∧
      ∀ deliveries : List Message,
        (∀ message ∈ deliveries, message.origin = producer ∧ message.data ∈ messages) →
        (∀ data ∈ messages, ∃ message ∈ deliveries, message.data = data) →
        let answers := ((Session.start place).takeAll follower deliveries).1
        let session := ((Session.start place).takeAll follower deliveries).2
        answers.length = deliveries.length ∧
          (∀ answer ∈ answers, ∃ delivery, answer = .ok delivery) ∧
          Replicates timestamps
            ((produceAll timestamps).run (Session.start path).engine).2.contents
            session.engine.contents := by
  have does := produceAll_start path few
  refine ⟨_, congrArg Prod.fst does, ?_⟩
  intro deliveries sent all
  have told : ∀ message ∈ deliveries,
      message.data ∈ (announced Cursor.genesis timestamps).map Envelope.encode :=
    fun message member => (sent message member).2
  have foreign : ∀ message ∈ deliveries, message.origin ≠ follower :=
    fun message member same => different (same.symm.trans (sent message member).1)
  have succession := succession_blocksAt Cursor.fits_genesis few
    (show Cursor.genesis.height.toNat + timestamps.length < 2 ^ 64 from
      Nat.lt_of_le_of_lt (Nat.add_le_add_left few _) (by decide))
  rcases Session.start_sound place with ⟨first, sound, genesis⟩
  have last : Chain.tip first.chain = some Cursor.genesis := by rw [genesis]; rfl
  rcases (Session.Replica.start sound rfl _).takeAll succession last foreign
      fun message member => brings_of_announced (told message member) with
    ⟨after, replica, answered, succeed⟩
  refine ⟨answered, succeed, ?_⟩
  have arrived : filled ((blocksAt Cursor.genesis timestamps).map ownParcel)
      ((deliveries.filterMap Session.parcelOf?).reverse ++ []) =
      (blocksAt Cursor.genesis timestamps).map ownParcel := by
    apply List.takeWhile_eq_self_iff.mpr
    intro parcel member
    have came := mem_parcels all member
    simpa using came
  have engine := replica.engine
  rw [arrived, List.nil_append, ← Engine.edited_edited] at engine
  have produced : ((produceAll timestamps).run (Session.start path).engine).2 =
      (Session.start path).engine.edited _ := congrArg Prod.snd does
  rw [engine, produced, ← Engine.edited_edited]
  exact replicates_of_transfers (mem_loose_iff told all) _

/-- Three rounds, two of them at one time, all messages twice and first in
reverse. -/
theorem follower_replicates_reversed :
    "follower" ≠ "producer" ∧ [(5 : Int64), 5, 7].length ≤ 256 ∧
      ∃ messages, ((produceAll [5, 5, 7]).run (Session.start "first").engine).1 = .ok messages ∧
        let deliveries := (messages.reverse ++ messages).map (Message.mk "producer" "relay")
        Replicates [5, 5, 7]
          ((produceAll [5, 5, 7]).run (Session.start "first").engine).2.contents
          ((Session.start "second").takeAll "follower" deliveries).2.engine.contents := by
  have different : "follower" ≠ "producer" := by decide
  have few : [(5 : Int64), 5, 7].length ≤ 256 := by decide
  rcases follower_replicates "first" "second" "producer" "follower" different [5, 5, 7] few with
    ⟨messages, produced, replicates⟩
  refine ⟨different, few, messages, produced, (replicates _ ?_ ?_).2.2⟩
  · intro message member
    rcases List.mem_map.mp member with ⟨data, inside, rfl⟩
    exact ⟨rfl, by simpa using inside⟩
  · intro data told
    exact ⟨_, List.mem_map_of_mem (List.mem_append_right _ told), rfl⟩

end Producer

end LedgerNode
