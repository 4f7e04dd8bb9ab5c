import LedgerNode.Proofs.Ledger.Frame
import LedgerNode.Proofs.Ledger.Reachability

namespace LedgerNode

/-!
# What becomes of loose transactions

A transaction that comes without a block is stored if it is pending, or if its block
is.  The blocks that are stored are those up to the tip, so all it takes is to compare
heights, and what has no block yet leaves no trace.

Pending transactions lie under height zero, and no confirmed transaction does.  So a
transaction is found by its height and its hash, in one record store or in the other,
and of several with the same height and hash the last one stays.
-/

namespace Ledger

/-- A ledger with this tip stores the transaction. -/
def Eligible (tip : Cursor) (transaction : Transaction) : Prop :=
  transaction.isPending = true ∨
    1 ≤ transaction.blockHeight ∧ transaction.blockHeight ≤ tip.height

instance (tip : Cursor) (transaction : Transaction) : Decidable (Eligible tip transaction) :=
  inferInstanceAs (Decidable (_ ∨ _))

theorem eligible_iff {tip : Cursor} {transaction : Transaction} :
    Eligible tip transaction ↔ transaction.blockHeight ≤ tip.height := by
  constructor
  · rintro (pending | ⟨-, below⟩)
    · rw [eq_of_beq pending]
      exact UInt64.zero_le
    · exact below
  · intro below
    cases pending : transaction.isPending with
    | true => exact .inl pending
    | false =>
        refine .inr ⟨?_, below⟩
        rw [UInt64.le_iff_toNat_le]
        exact positive_of_confirmed pending

/-! ## Where a transaction lies -/

/-- The record store of a transaction. -/
def shelf (transaction : Transaction) : RecordStore Transaction :=
  if transaction.isPending then RecordStore.pending else RecordStore.confirmed

/-- The engine's key of a transaction. -/
def place (transaction : Transaction) : Bytes :=
  (shelf transaction).fullKey (StoreKey.transaction transaction.blockHeight transaction.hash)

/-- The edit that stores a transaction. -/
def placeEdit (transaction : Transaction) : Edit :=
  (shelf transaction).putEdit
    (StoreKey.transaction transaction.blockHeight transaction.hash) transaction

section Place

variable {transaction : Transaction}

theorem shelf_of_pending (pending : transaction.isPending = true) :
    shelf transaction = RecordStore.pending := if_pos pending

theorem shelf_of_confirmed (confirmed : transaction.isPending = false) :
    shelf transaction = RecordStore.confirmed := if_neg (Bool.eq_false_iff.mp confirmed)

theorem place_of_pending (pending : transaction.isPending = true) :
    place transaction =
      RecordStore.pending.fullKey (StoreKey.transaction 0 transaction.hash) := by
  have zero : transaction.blockHeight = 0 := eq_of_beq pending
  rw [place, shelf_of_pending pending, zero]

theorem place_of_confirmed (confirmed : transaction.isPending = false) :
    place transaction = RecordStore.confirmed.fullKey
      (StoreKey.transaction transaction.blockHeight transaction.hash) := by
  rw [place, shelf_of_confirmed confirmed]

theorem placeEdit_value? (transaction : Transaction) :
    (placeEdit transaction).value? = some (Transaction.codec.encode transaction) := by
  rw [placeEdit, shelf]
  split <;> rfl

/-- Transactions of one height and one hash, and no others, lie in one place. -/
theorem place_inj {other : Transaction} : place other = place transaction ↔
    other.blockHeight = transaction.blockHeight ∧ other.hash = transaction.hash := by
  constructor
  swap
  · rintro ⟨heights, hashes⟩
    rw [place, place, shelf, shelf, Transaction.isPending, Transaction.isPending, heights, hashes]
  intro same
  cases pending : transaction.isPending <;> cases also : other.isPending
  · rw [place_of_confirmed pending, place_of_confirmed also] at same
    exact StoreKey.transaction_inj.mp (RecordStore.fullKey_inj.mp same)
  · rw [place_of_confirmed pending, place_of_pending also] at same
    exact absurd same.symm (confirmed_apart_pending.fullKey_ne _ _)
  · rw [place_of_pending pending, place_of_confirmed also] at same
    exact absurd same (confirmed_apart_pending.fullKey_ne _ _)
  · rw [place_of_pending pending, place_of_pending also] at same
    have keys := StoreKey.transaction_inj.mp (RecordStore.fullKey_inj.mp same)
    exact ⟨(eq_of_beq also).trans (eq_of_beq pending).symm, keys.2⟩

/-- The pending store has the pending transactions alone. -/
theorem pending_isPrefixOf_place :
    (Bytes.ofText RecordStore.pending.keyspace).isPrefixOf (place transaction) =
      transaction.isPending := by
  cases pending : transaction.isPending with
  | true =>
      rw [place_of_pending pending]
      exact RecordStore.isPrefixOf_fullKey _ _
  | false =>
      rw [place_of_confirmed pending]
      exact confirmed_apart_pending.symm.not_isPrefixOf _

theorem confirmed_isPrefixOf_place :
    (Bytes.ofText RecordStore.confirmed.keyspace).isPrefixOf (place transaction) =
      !transaction.isPending := by
  cases pending : transaction.isPending with
  | true =>
      rw [place_of_pending pending]
      exact confirmed_apart_pending.not_isPrefixOf _
  | false =>
      rw [place_of_confirmed pending]
      exact RecordStore.isPrefixOf_fullKey _ _

end Place

/-! ## What the call does -/

section Call

variable {picture : Picture} {tip : Cursor} {engine : Engine}

theorem Shows.put_place {chain : List Block} {cursor : Option Cursor} {contents : Contents}
    (shows : Shows chain cursor contents) {transaction : Transaction}
    (fits : transaction.Fits) (below : transaction.blockHeight.toNat < chain.length) :
    Shows chain cursor (Edit.apply contents (placeEdit transaction)) := by
  rw [placeEdit]
  cases pending : transaction.isPending with
  | true =>
      rw [shelf_of_pending pending]
      exact shows.put_pending _ transaction
  | false =>
      rw [shelf_of_confirmed pending]
      exact shows.put_confirmed ⟨fits, positive_of_confirmed pending, below⟩

/-- A transaction is stored if and only if its height is not above the tip. -/
theorem addTransaction_does (depicts : picture.Depicts engine.contents)
    (isOpen : engine.isOpen = true) (last : Chain.tip picture.chain = some tip)
    (transaction : Transaction) :
    (addTransaction transaction).Does engine (decide (Eligible tip transaction))
      (if Eligible tip transaction then [placeEdit transaction] else []) := by
  rw [addTransaction, placeEdit]
  cases pending : transaction.isPending with
  | true =>
      have zero : transaction.blockHeight = 0 := eq_of_beq pending
      have eligible : Eligible tip transaction := .inl pending
      rw [if_pos rfl, decide_eq_true eligible, if_pos eligible, shelf_of_pending pending, zero]
      exact (RecordStore.does_put _ isOpen _ transaction).bind_pure fun _ => true
  | false =>
      have stored : engine.contents.contains
          (RecordStore.blocks.fullKey (StoreKey.block transaction.blockHeight)) =
            decide (Eligible tip transaction) := by
        have length := picture.linked.tip_height last
        rw [Bool.eq_iff_iff, decide_eq_true_iff, eligible_iff,
          Shows.contains_block depicts picture.linked, UInt64.le_iff_toNat_le]
        omega
      rw [if_neg Bool.false_ne_true, addConfirmed]
      apply (RecordStore.does_has _ isOpen _).bind_after
      rw [stored]
      by_cases eligible : Eligible tip transaction
      · rw [decide_eq_true eligible, if_pos rfl, if_pos eligible, shelf_of_confirmed pending]
        exact (RecordStore.does_put _ isOpen _ transaction).bind_pure fun _ => true
      · rw [decide_eq_false eligible, if_neg Bool.false_ne_true, if_neg eligible]
        exact StoreAction.does_pure _ _

/-- The eligible transactions of a list. -/
def eligibleOf (tip : Cursor) (transactions : List Transaction) : List Transaction :=
  transactions.filter fun transaction => Eligible tip transaction

theorem mem_eligibleOf {transactions : List Transaction} {transaction : Transaction} :
    transaction ∈ eligibleOf tip transactions ↔
      transaction ∈ transactions ∧ Eligible tip transaction := by
  rw [eligibleOf, List.mem_filter, decide_eq_true_iff]

theorem eligibleOf_cons_of_pos {transaction : Transaction} (eligible : Eligible tip transaction)
    (rest : List Transaction) :
    eligibleOf tip (transaction :: rest) = transaction :: eligibleOf tip rest :=
  List.filter_cons_of_pos (decide_eq_true eligible)

theorem eligibleOf_cons_of_neg {transaction : Transaction}
    (refused : ¬ Eligible tip transaction) (rest : List Transaction) :
    eligibleOf tip (transaction :: rest) = eligibleOf tip rest :=
  List.filter_cons_of_neg (mt of_decide_eq_true refused)

/-- The eligible transactions are stored one after another. -/
theorem acceptTransactions_does (depicts : picture.Depicts engine.contents)
    (isOpen : engine.isOpen = true) (last : Chain.tip picture.chain = some tip)
    {transactions : List Transaction} (fits : ∀ transaction ∈ transactions, transaction.Fits) :
    (acceptTransactions transactions).Does engine (eligibleOf tip transactions).length
      ((eligibleOf tip transactions).map placeEdit) := by
  induction transactions generalizing engine with
  | nil => exact StoreAction.does_pure engine 0
  | cons transaction rest ih =>
      rcases List.forall_mem_cons.mp fits with ⟨head, tail⟩
      have first := addTransaction_does depicts isOpen last transaction
      rw [acceptTransactions]
      by_cases eligible : Eligible tip transaction
      · have below : transaction.blockHeight.toNat < picture.chain.length := by
          have height := UInt64.le_iff_toNat_le.mp (eligible_iff.mp eligible)
          have length := picture.linked.tip_height last
          omega
        -- the tip is the same for the rest, since what is stored leaves the chain alone
        have shown : picture.Depicts (engine.edited [placeEdit transaction]).contents :=
          Shows.put_place depicts head below
        have others := ih shown isOpen tail
        rw [decide_eq_true eligible, if_pos eligible] at first
        rw [eligibleOf_cons_of_pos eligible, List.length_cons, Nat.add_comm]
        exact first.bind (others.bind_pure fun count => 1 + count)
      · have others := ih depicts isOpen tail
        rw [decide_eq_false eligible, if_neg eligible] at first
        rw [eligibleOf_cons_of_neg eligible]
        have counted := others.bind_pure fun count => false.toNat + count
        rw [Bool.toNat_false, Nat.zero_add] at counted
        exact first.bind_after counted

end Call

/-! ## What is stored afterwards -/

/-- The last transaction of a list that has the height and the hash of this one. -/
structure Latest (transactions : List Transaction) (transaction entry : Transaction) :
    Prop where
  height : entry.blockHeight = transaction.blockHeight
  hash : entry.hash = transaction.hash
  last : ∃ front back, transactions = front ++ entry :: back ∧
    ∀ other ∈ back,
      ¬ (other.blockHeight = transaction.blockHeight ∧ other.hash = transaction.hash)

/-- There is one latest transaction. -/
theorem Latest.eq {transactions : List Transaction} {transaction one other : Transaction}
    (first : Latest transactions transaction one)
    (second : Latest transactions transaction other) : one = other := by
  rcases first.last with ⟨front, back, here, none⟩
  rcases second.last with ⟨before, behind, there, nobody⟩
  rcases List.append_eq_append_iff.mp (here.symm.trans there) with
    ⟨between, -, same⟩ | ⟨between, -, same⟩
  · cases between with
    | nil => exact (List.cons.inj same).1
    | cons _ rest =>
        have later : other ∈ back := by
          rw [(List.cons.inj same).2]
          exact List.mem_append_right _ List.mem_cons_self
        exact absurd ⟨second.height, second.hash⟩ (none other later)
  · cases between with
    | nil => exact (List.cons.inj same).1.symm
    | cons _ rest =>
        have later : one ∈ behind := by
          rw [(List.cons.inj same).2]
          exact List.mem_append_right _ List.mem_cons_self
        exact absurd ⟨first.height, first.hash⟩ (nobody one later)

/-- What a list of loose transactions makes of the contents. -/
def withLoose (tip : Cursor) (transactions : List Transaction) (contents : Contents) : Contents :=
  Edit.applyAll contents ((eligibleOf tip transactions).map placeEdit)

section Loose

variable {tip : Cursor} {transactions : List Transaction} {transaction : Transaction}
  {contents : Contents}

theorem withLoose_append_singleton :
    withLoose tip (transactions ++ [transaction]) contents =
      if Eligible tip transaction then
        Edit.apply (withLoose tip transactions contents) (placeEdit transaction)
      else withLoose tip transactions contents := by
  have split : eligibleOf tip (transactions ++ [transaction]) =
      eligibleOf tip transactions ++ eligibleOf tip [transaction] := List.filter_append ..
  rw [withLoose, split, List.map_append, Edit.applyAll_append]
  by_cases eligible : Eligible tip transaction
  · rw [if_pos eligible, eligibleOf_cons_of_pos eligible]
    rfl
  · rw [if_neg eligible, eligibleOf_cons_of_neg eligible]
    rfl

theorem contains_withLoose {key : Bytes} :
    (withLoose tip transactions contents).contains key = true ↔ contents.contains key = true ∨
      ∃ transaction ∈ transactions, Eligible tip transaction ∧ place transaction = key := by
  have puts : ∀ edit ∈ (eligibleOf tip transactions).map placeEdit,
      edit.value?.isSome = true := by
    intro edit member
    rcases List.mem_map.mp member with ⟨transaction, -, rfl⟩
    rw [placeEdit_value?]
    rfl
  rw [withLoose, Edit.contains_applyAll puts]
  apply or_congr_right
  constructor
  · rintro ⟨edit, member, same⟩
    rcases List.mem_map.mp member with ⟨transaction, inside, rfl⟩
    rcases mem_eligibleOf.mp inside with ⟨listed, eligible⟩
    exact ⟨transaction, listed, eligible, same⟩
  · rintro ⟨transaction, listed, eligible, same⟩
    exact ⟨_, List.mem_map_of_mem (mem_eligibleOf.mpr ⟨listed, eligible⟩), same⟩

/-- In the place of an eligible transaction lies the latest with its height and its hash. -/
theorem get?_withLoose (contents : Contents) (eligible : Eligible tip transaction)
    (listed : transaction ∈ transactions) :
    ∃ entry, entry ∈ transactions ∧ Latest transactions transaction entry ∧
      (withLoose tip transactions contents).get? (place transaction) =
        some (Transaction.codec.encode entry) := by
  induction transactions using List.reverseRecOn with
  | nil => cases listed
  | append_singleton front final ih =>
      rw [withLoose_append_singleton]
      by_cases here : final.blockHeight = transaction.blockHeight ∧ final.hash = transaction.hash
      · have taken : Eligible tip final := eligible_iff.mpr (here.1 ▸ eligible_iff.mp eligible)
        refine ⟨final, List.mem_append_right _ (List.mem_singleton_self _),
          ⟨here.1, here.2, front, [], rfl, List.forall_mem_nil _⟩, ?_⟩
        rw [if_pos taken, Edit.get?_apply, placeEdit_value?]
        exact if_pos (place_inj.mpr here).symm
      · have before : transaction ∈ front := by
          rcases List.mem_append.mp listed with before | last
          · exact before
          · rw [List.mem_singleton.mp last] at here
            exact absurd ⟨rfl, rfl⟩ here
        rcases ih before with ⟨entry, member, latest, found⟩
        rcases latest.last with ⟨first, back, rfl, others⟩
        refine ⟨entry, List.mem_append_left _ member, ⟨latest.height, latest.hash, first,
          back ++ [final], ?_, ?_⟩, ?_⟩
        · rw [List.append_assoc, List.cons_append]
        · exact List.forall_mem_append.mpr ⟨others, List.forall_mem_singleton.mpr here⟩
        · split
          · rw [Edit.get?_apply, if_neg, found]
            exact fun same => here (place_inj.mp same.symm)
          · exact found

theorem find_withLoose (contents : Contents)
    (fits : ∀ transaction ∈ transactions, transaction.Fits) (eligible : Eligible tip transaction)
    (listed : transaction ∈ transactions) :
    ∃ entry ∈ transactions, Latest transactions transaction entry ∧
      (shelf transaction).find
        (StoreKey.transaction transaction.blockHeight transaction.hash)
        (withLoose tip transactions contents) = .ok entry := by
  rcases get?_withLoose contents eligible listed with ⟨entry, member, latest, found⟩
  have codec : (shelf transaction).codec = Transaction.codec := by
    rw [shelf]
    split <;> rfl
  refine ⟨entry, member, latest, ?_⟩
  rw [place, ← codec] at found
  rw [RecordStore.find, found]
  exact RecordStore.readRecord_encode (codec ▸ Transaction.codec_roundTrips) (fits entry member)

/-- Everywhere else lies what lay there before. -/
theorem get?_withLoose_of_forall {key : Bytes}
    (others : ∀ transaction ∈ transactions, Eligible tip transaction → place transaction ≠ key) :
    (withLoose tip transactions contents).get? key = contents.get? key := by
  have untouched : Edit.last? ((eligibleOf tip transactions).map placeEdit) key = none := by
    apply Edit.last?_eq_none_iff.mpr
    intro edit member
    rcases List.mem_map.mp member with ⟨transaction, inside, rfl⟩
    rcases mem_eligibleOf.mp inside with ⟨listed, eligible⟩
    exact others transaction listed eligible
  rw [withLoose, Edit.get?_applyAll, untouched]

/-- Record stores of other things are left alone. -/
theorem part_withLoose {Record : Type} {store : RecordStore Record}
    (pending : store.Apart RecordStore.pending) (confirmed : store.Apart RecordStore.confirmed) :
    store.part (withLoose tip transactions contents) = store.part contents := by
  apply RecordStore.Beyond.part_applyAll
  intro edit member
  rcases List.mem_map.mp member with ⟨transaction, -, rfl⟩
  rw [placeEdit, shelf]
  split
  · exact pending.not_isPrefixOf _
  · exact confirmed.not_isPrefixOf _

end Loose

/-! ## The call as a whole -/

/-- What a list of loose transactions changes, and what it leaves alone. -/
structure TakenIn (tip : Cursor) (transactions : List Transaction) (before after : Engine) :
    Prop where
  pendingKeys : ∀ key, key ∈ (RecordStore.pending.part after.contents).keys ↔
    key ∈ (RecordStore.pending.part before.contents).keys ∨
      ∃ transaction ∈ transactions, transaction.isPending = true ∧
        RecordStore.pending.fullKey (StoreKey.transaction 0 transaction.hash) = key
  confirmedKeys : ∀ key, key ∈ (RecordStore.confirmed.part after.contents).keys ↔
    key ∈ (RecordStore.confirmed.part before.contents).keys ∨
      ∃ transaction ∈ transactions,
        (1 ≤ transaction.blockHeight ∧ transaction.blockHeight ≤ tip.height) ∧
        RecordStore.confirmed.fullKey
          (StoreKey.transaction transaction.blockHeight transaction.hash) = key
  pendingRecords : ∀ transaction ∈ transactions, transaction.isPending = true →
    ∃ entry ∈ transactions, Latest transactions transaction entry ∧
      (RecordStore.pending.get (StoreKey.transaction 0 transaction.hash)).run after =
        (.ok entry, after)
  confirmedRecords : ∀ transaction ∈ transactions,
    1 ≤ transaction.blockHeight → transaction.blockHeight ≤ tip.height →
    ∃ entry ∈ transactions, Latest transactions transaction entry ∧
      (RecordStore.confirmed.get
          (StoreKey.transaction transaction.blockHeight transaction.hash)).run after =
        (.ok entry, after)
  otherRecords : ∀ key,
    (∀ transaction ∈ transactions, Eligible tip transaction → place transaction ≠ key) →
      after.contents.get? key = before.contents.get? key
  blocks : RecordStore.blocks.part after.contents = RecordStore.blocks.part before.contents
  cursors : RecordStore.cursors.part after.contents = RecordStore.cursors.part before.contents
  peers : RecordStore.peers.part after.contents = RecordStore.peers.part before.contents

section Whole

variable {tip : Cursor} {transactions : List Transaction}

theorem confirmed_of_positive {transaction : Transaction}
    (positive : 1 ≤ transaction.blockHeight) : transaction.isPending = false := by
  apply Bool.eq_false_iff.mpr
  intro pending
  rw [eq_of_beq pending] at positive
  exact absurd positive (by decide)

/-- The eligible transactions of one of the two record stores are those that add keys to it. -/
theorem mem_keys_withLoose {store : RecordStore Transaction} {contents : Contents} {key : Bytes} :
    key ∈ (store.part (withLoose tip transactions contents)).keys ↔
      key ∈ (store.part contents).keys ∨ ∃ transaction ∈ transactions,
        Eligible tip transaction ∧
          (Bytes.ofText store.keyspace).isPrefixOf (place transaction) = true ∧
          place transaction = key := by
  rw [RecordStore.mem_keys_part, RecordStore.mem_keys_part, contains_withLoose, and_or_left]
  apply or_congr_right
  constructor
  · rintro ⟨inside, transaction, listed, eligible, rfl⟩
    exact ⟨transaction, listed, eligible, inside, rfl⟩
  · rintro ⟨transaction, listed, eligible, inside, rfl⟩
    exact ⟨inside, transaction, listed, eligible, rfl⟩

theorem takenIn_edited {engine : Engine} (isOpen : engine.isOpen = true)
    (fits : ∀ transaction ∈ transactions, transaction.Fits) :
    TakenIn tip transactions engine
      (engine.edited ((eligibleOf tip transactions).map placeEdit)) where
  pendingKeys key := by
    refine mem_keys_withLoose.trans (or_congr_right (exists_congr fun transaction =>
      and_congr_right fun _ => ?_))
    rw [pending_isPrefixOf_place]
    constructor
    · rintro ⟨-, pending, rfl⟩
      exact ⟨pending, (place_of_pending pending).symm⟩
    · rintro ⟨pending, rfl⟩
      exact ⟨.inl pending, pending, place_of_pending pending⟩
  confirmedKeys key := by
    refine mem_keys_withLoose.trans (or_congr_right (exists_congr fun transaction =>
      and_congr_right fun _ => ?_))
    rw [confirmed_isPrefixOf_place, Bool.not_eq_true']
    constructor
    · rintro ⟨pending | within, confirmed, rfl⟩
      · cases pending.symm.trans confirmed
      · exact ⟨within, (place_of_confirmed confirmed).symm⟩
    · rintro ⟨within, rfl⟩
      have confirmed := confirmed_of_positive within.1
      exact ⟨.inr within, confirmed, place_of_confirmed confirmed⟩
  pendingRecords transaction listed pending := by
    rcases find_withLoose engine.contents fits (.inl pending) listed with
      ⟨entry, member, latest, found⟩
    have zero : transaction.blockHeight = 0 := eq_of_beq pending
    rw [shelf_of_pending pending, zero] at found
    exact ⟨entry, member, latest, RecordStore.does_get (Engine.isOpen_edited isOpen _) found⟩
  confirmedRecords transaction listed positive below := by
    rcases find_withLoose engine.contents fits (.inr ⟨positive, below⟩) listed with
      ⟨entry, member, latest, found⟩
    rw [shelf_of_confirmed (confirmed_of_positive positive)] at found
    exact ⟨entry, member, latest, RecordStore.does_get (Engine.isOpen_edited isOpen _) found⟩
  otherRecords key others := get?_withLoose_of_forall others
  blocks := part_withLoose blocks_apart_pending blocks_apart_confirmed
  cursors := part_withLoose cursors_apart_pending cursors_apart_confirmed
  peers := part_withLoose peers_outside.pending peers_outside.confirmed

/-- Transactions may as well come in two lists, one after the other. -/
theorem acceptTransactions_append (first second : List Transaction) :
    acceptTransactions (first ++ second) = do
      let front ← acceptTransactions first
      let back ← acceptTransactions second
      return front + back := by
  induction first with
  | nil =>
      rw [List.nil_append, acceptTransactions]
      simp only [pure_bind, Nat.zero_add, bind_pure]
  | cons transaction rest ih =>
      rw [List.cons_append, acceptTransactions, acceptTransactions, ih]
      simp only [bind_assoc, pure_bind, Nat.add_assoc]

end Whole

/-- A reachable ledger stores those loose transactions that are pending or have a block
up to the tip, and tells how many they were.  Every one of them is under its own key
afterwards, unless a later one has the same.  The others leave no trace, and nothing else
changes.  It makes no difference whether a list comes at once or in parts. -/
theorem loose_stored_exactly {session : Session} (reachable : Reachable (.up session)) :
    (∃ tip, cursor.run session.engine = (.ok tip, session.engine) ∧
      ∀ (transactions : List Transaction) (fits : ∀ entry ∈ transactions, entry.Fits),
        ∃ after, TakenIn tip transactions session.engine after ∧
          (acceptTransactions transactions).run session.engine =
            (.ok (transactions.countP fun entry => Eligible tip entry), after) ∧
          session.perform (.free (.acceptTransactions transactions fits)) =
            (.ok (.stored (transactions.countP fun entry => Eligible tip entry)),
              ⟨after, session.waiting⟩) ∧
          (acceptTransactions
              (transactions.filter fun entry => entry.blockHeight ≤ tip.height)).run
              session.engine =
            (acceptTransactions transactions).run session.engine) ∧
    ∀ first second, acceptTransactions (first ++ second) = do
      let front ← acceptTransactions first
      let back ← acceptTransactions second
      return front + back := by
  rcases reachable.sound with ⟨picture, tip, sound, last⟩
  refine ⟨⟨tip, sound.depicts.run_cursor sound.isOpen (sound.settled.trans last), ?_⟩,
    acceptTransactions_append⟩
  intro transactions fits
  have does := acceptTransactions_does sound.depicts sound.isOpen last fits
  have ran : (acceptTransactions transactions).run session.engine = _ := does
  have count : transactions.countP (fun entry => Eligible tip entry) =
      (eligibleOf tip transactions).length := List.countP_eq_length_filter
  have filtered : (transactions.filter fun entry => entry.blockHeight ≤ tip.height) =
      eligibleOf tip transactions := by
    refine List.filter_congr fun entry _ => ?_
    rw [decide_eq_decide, eligible_iff]
  have again : eligibleOf tip (eligibleOf tip transactions) = eligibleOf tip transactions := by
    rw [eligibleOf, eligibleOf, List.filter_filter]
    simp only [Bool.and_self]
  refine ⟨_, takenIn_edited sound.isOpen fits, ?_, ?_, ?_⟩
  · rw [ran, count]
  · have answered : (FreeCall.acceptTransactions transactions fits).perform.Does
        session.engine _ _ := does.bind_pure Answer.stored
    rw [Session.perform, Call.perform, LedgerAction.run_ofStore, answered, count]
  · have among : ∀ entry ∈ eligibleOf tip transactions, entry.Fits :=
      fun entry member => fits entry (mem_eligibleOf.mp member).1
    have others := acceptTransactions_does sound.depicts sound.isOpen last among
    rw [filtered, ran, others, again]

/-- A transaction with the given hash, height and amount. -/
def sampleLoose (hash : String) (blockHeight amount : UInt64) : Transaction :=
  { (default : Transaction) with hash, blockHeight, amount }

/-- One transaction is pending, one is above the tip, and one comes twice. -/
def sampleLooseList : List Transaction :=
  [sampleLoose "pending" 0 1, sampleLoose "paid" 1 7, sampleLoose "early" 9 1,
    sampleLoose "paid" 1 5]

theorem sampleLooseList_fits : ∀ entry ∈ sampleLooseList, entry.Fits := by
  have empty : TextFits "" := by decide
  have fits {hash : String} (short : TextFits hash) (blockHeight amount : UInt64) :
      (sampleLoose hash blockHeight amount).Fits :=
    ⟨short, empty, empty, empty, empty, empty⟩
  intro entry member
  fin_cases member
  · exact fits (by decide) 0 1
  · exact fits (by decide) 1 7
  · exact fits (by decide) 9 1
  · exact fits (by decide) 1 5

theorem sampleFirst_fits : (Session.sampleParcel 1 "first" Block.genesisHash).Fits :=
  Session.sampleParcel_fits (by decide) (by decide)

/-- A ledger with one block above genesis. -/
def sampleLedger : Session :=
  ((Session.start "ledger").perform (.locked (.accept
    (Session.sampleParcel 1 "first" Block.genesisHash) sampleFirst_fits))).2

/-- Three of the four are stored, and the transaction that came twice is as it came last. -/
theorem loose_stored_exactly_sample :
    Reachable (.up sampleLedger) ∧ (∀ entry ∈ sampleLooseList, entry.Fits) ∧
      ∃ after, (acceptTransactions sampleLooseList).run sampleLedger.engine = (.ok 3, after) ∧
        (RecordStore.confirmed.get (StoreKey.transaction 1 "paid")).run after =
          (.ok (sampleLoose "paid" 1 5), after) := by
  have reachable : Reachable (.up sampleLedger) :=
    .called (Session.reachable_start "ledger") _
  rcases loose_stored_exactly reachable with ⟨⟨tip, stored, whole⟩, -⟩
  have first : (cursor.run sampleLedger.engine).1 = .ok ⟨1, "first"⟩ := by cbv
  rw [stored] at first
  cases first
  rcases whole sampleLooseList sampleLooseList_fits with ⟨after, taken, ran, -, -⟩
  have listed : sampleLoose "paid" 1 5 ∈ sampleLooseList := by decide
  rcases taken.confirmedRecords _ listed (by decide) (by decide) with
    ⟨entry, member, latest, found⟩
  have last : Latest sampleLooseList (sampleLoose "paid" 1 5) (sampleLoose "paid" 1 5) :=
    ⟨rfl, rfl, sampleLooseList.take 3, [], rfl, List.forall_mem_nil _⟩
  rw [latest.eq last] at found
  exact ⟨reachable, sampleLooseList_fits, after, ran, found⟩

end Ledger

end LedgerNode
