import LedgerNode.Proofs.Ledger.Reachability
import LedgerNode.Proofs.Node.Replication

namespace LedgerNode

/-!
# Every message is taken

Messages come from anybody, and their bytes may be anything.  A message of the
node's own and a message that is not one complete envelope are passed over.
Whatever envelope is read from bytes can be stored, so the ledger takes it as it
takes the block or the transactions themselves.

The ledger refuses a peer's block only by an answer.  It would fail if it had no
cursor or lacked a block below it, and no stage of an open ledger is like that.
-/

namespace Codec

theorem decodeExact_eq_ok_iff {codec : Codec Value} {bytes : Bytes} {value : Value} :
    codec.decodeExact bytes = .ok value ↔ codec.decode bytes = .ok (value, []) := by
  rw [Codec.decodeExact]
  cases found : codec.decode bytes with
  | error fault => simp [bind, Except.bind]
  | ok reached =>
      rcases reached with ⟨front, rest⟩
      change (if rest.isEmpty then _ else _) = _ ↔ _
      cases rest <;> simp

end Codec

namespace Session

open Ledger

/-- The bytes are one complete envelope. -/
def Carries (message : Message) (envelope : Envelope) : Prop :=
  Envelope.codec.decode message.data = .ok (envelope, [])

/-- What becomes of a message. -/
structure Handled (session : Session) (id : String) (message : Message) : Prop where
  answered : ∃ delivery, (session.take id message).1 = .ok delivery ∧
    (delivery = .selfOriginated ↔ message.origin = id) ∧
    (delivery = .undecodable ↔ message.origin ≠ id ∧ ∀ envelope, ¬ Carries message envelope)
  /-- A message that is passed over changes nothing. -/
  unchanged : message.origin = id ∨ (∀ envelope, ¬ Carries message envelope) →
    (session.take id message).2 = session
  /-- A block is accepted. -/
  block : message.origin ≠ id → ∀ block transactions,
    Carries message (.newBlock block transactions) →
    let accepted := (accept block transactions).run session.waiting session.engine
    session.take id message =
      (accepted.1.map (.block block.height), ⟨accepted.2.2, accepted.2.1⟩)
  /-- Transactions are accepted. -/
  transactions : message.origin ≠ id → ∀ transactions,
    Carries message (.newTransactions transactions) →
    let accepted := (acceptTransactions transactions).run session.engine
    session.take id message = (accepted.1.map .transactions, ⟨accepted.2, session.waiting⟩)

/-! ## The four cases of a message -/

/-- How a message is taken, and why so. -/
inductive Taking (session : Session) (id : String) (message : Message) :
    Except Fault Delivery × Session → Prop where
  | own (own : message.origin = id) :
    Taking session id message (.ok .selfOriginated, session)
  | unreadable (foreign : message.origin ≠ id)
    (unreadable : ∀ envelope, ¬ Carries message envelope) :
    Taking session id message (.ok .undecodable, session)
  | block (foreign : message.origin ≠ id) {parcel : WaitingBlock} (fits : parcel.Fits)
    (carries : Carries message (.newBlock parcel.block parcel.transactions)) :
    Taking session id message
      ((session.deliver parcel).1.map (.block parcel.block.height), (session.deliver parcel).2)
  | transactions (foreign : message.origin ≠ id) {transactions : List Transaction}
    (fits : ∀ transaction ∈ transactions, transaction.Fits)
    (carries : Carries message (.newTransactions transactions)) :
    Taking session id message
      (((acceptTransactions transactions).run session.engine).1.map .transactions,
        ⟨((acceptTransactions transactions).run session.engine).2, session.waiting⟩)

theorem taking (session : Session) (id : String) (message : Message) :
    Taking session id message (session.take id message) := by
  by_cases own : message.origin = id
  · rw [take, Channel.handle, if_pos own]
    exact .own own
  · cases read : Envelope.decode message.data with
    | error fault =>
        rw [take, Channel.handle, if_neg own, read]
        refine .unreadable own fun envelope carries => ?_
        cases read.symm.trans (Codec.decodeExact_eq_ok_iff.mpr carries)
    | ok envelope =>
        have carries : Carries message envelope := Codec.decodeExact_eq_ok_iff.mp read
        have fits := Envelope.codec_yields _ _ _ carries
        cases envelope with
        | newBlock block transactions =>
            let parcel : WaitingBlock := ⟨block, transactions⟩
            have brought : Envelope.decode message.data =
                .ok (.newBlock parcel.block parcel.transactions) := read
            rw [take_newBlock own brought]
            exact .block own ⟨fits.1, fits.2.2⟩ carries
        | newTransactions transactions =>
            have handles : Channel.handle id message = (do
                return .transactions
                  (← LedgerAction.ofStore (acceptTransactions transactions))) := by
              rw [Channel.handle, if_neg own, read]
              rfl
            rw [take, handles, LedgerAction.run_bind_return, LedgerAction.run_ofStore]
            exact .transactions own fits.2 carries

/-! ## What an open ledger takes -/

section Sound

variable {session : Session} {picture : Picture} {tip : Cursor}

/-- A peer's block never makes an open ledger fail. -/
theorem Sound.accepts (sound : session.Sound picture)
    (last : Chain.tip picture.chain = some tip) {parcel : WaitingBlock} (fits : parcel.Fits) :
    ∃ acceptance, (session.deliver parcel).1 = .ok acceptance := by
  rcases sound.deliver last fits with ⟨acceptance, _, _, answered, _⟩
  exact ⟨acceptance, answered⟩

/-- Nor do its transactions. -/
theorem Sound.acceptsTransactions (sound : session.Sound picture)
    {transactions : List Transaction} (fits : ∀ transaction ∈ transactions, transaction.Fits) :
    ∃ count, ((acceptTransactions transactions).run session.engine).1 = .ok count := by
  rcases run_guest (acceptTransactions_meets fits picture) sound.isOpen sound.depicts with
    ⟨_, _, _, returned⟩
  change StoreAction.Returns _ ((acceptTransactions transactions).run session.engine).1 _
    at returned
  cases outcome : ((acceptTransactions transactions).run session.engine).1 with
  | ok count => exact ⟨count, rfl⟩
  | error fault =>
      rw [outcome] at returned
      exact returned.elim

/-- Whatever a message is, it is taken. -/
theorem Sound.handled (sound : session.Sound picture)
    (last : Chain.tip picture.chain = some tip) (id : String) (message : Message) :
    session.Handled id message := by
  have takes := taking session id message
  constructor
  · generalize session.take id message = taken at takes
    cases takes with
    | own own =>
        exact ⟨.selfOriginated, rfl, iff_of_true rfl own, nofun, fun both => absurd own both.1⟩
    | unreadable foreign unreadable =>
        exact ⟨.undecodable, rfl, iff_of_false nofun foreign,
          iff_of_true rfl ⟨foreign, unreadable⟩⟩
    | @block foreign parcel fits carries =>
        rcases sound.accepts last fits with ⟨acceptance, answered⟩
        refine ⟨.block parcel.block.height acceptance, ?_, iff_of_false nofun foreign, nofun,
          fun both => absurd carries (both.2 _)⟩
        rw [answered]
        rfl
    | transactions foreign fits carries =>
        rcases sound.acceptsTransactions fits with ⟨count, answered⟩
        refine ⟨.transactions count, ?_, iff_of_false nofun foreign, nofun,
          fun both => absurd carries (both.2 _)⟩
        rw [answered]
        rfl
  · generalize session.take id message = taken at takes
    intro passed
    cases takes with
    | own => rfl
    | unreadable => rfl
    | block foreign _ carries => exact absurd carries (passed.resolve_left foreign _)
    | transactions foreign _ carries => exact absurd carries (passed.resolve_left foreign _)
  · intro foreign block transactions carries
    generalize session.take id message = taken at takes
    cases takes with
    | own own => exact absurd own foreign
    | unreadable _ unreadable => exact absurd carries (unreadable _)
    | block _ _ brought =>
        cases carries.symm.trans brought
        rfl
    | transactions _ _ brought => cases carries.symm.trans brought
  · intro foreign transactions carries
    generalize session.take id message = taken at takes
    cases takes with
    | own own => exact absurd own foreign
    | unreadable _ unreadable => exact absurd carries (unreadable _)
    | block _ _ brought => cases carries.symm.trans brought
    | transactions _ _ brought =>
        cases carries.symm.trans brought
        rfl

end Sound

/-! ## Every stage -/

/-- Taking a message comes to the same as a call, or to nothing. -/
theorem take_eq_perform (session : Session) (id : String) (message : Message) :
    (session.take id message).2 = session ∨
      ∃ call, (session.take id message).2 = (session.perform call).2 := by
  have takes := taking session id message
  generalize session.take id message = taken at takes
  cases takes with
  | own => exact .inl rfl
  | unreadable => exact .inl rfl
  | @block _ parcel fits =>
      refine .inr ⟨.locked (.accept parcel fits), ?_⟩
      rw [perform, Call.perform, LockedCall.perform, LedgerAction.run_bind_return]
      rfl
  | @transactions _ transactions fits =>
      refine .inr ⟨.free (.acceptTransactions transactions fits), ?_⟩
      have steps : ((FreeCall.acceptTransactions transactions fits).perform.run
          session.engine).2 = ((acceptTransactions transactions).run session.engine).2 := by
        rw [FreeCall.perform, StoreAction.run_bind_return]
      rw [perform, Call.perform, LedgerAction.run_ofStore, steps]

/-- Messages lead from stage to stage.  Each of them is answered, whoever sent it
and whatever its bytes are.  If it is the node's own, or not one complete
envelope, it changes nothing, and otherwise its block or its transactions are
accepted.  No block of a peer makes the ledger fail, because all blocks up to the
tip are there and can be read. -/
theorem messages_never_fail {session : Session} (reachable : Reachable (.up session)) :
    (∀ id message, session.Handled id message ∧
        Reachable (.up (session.take id message).2)) ∧
      (∀ parcel : WaitingBlock, parcel.Fits → ∃ acceptance,
        ((accept parcel.block parcel.transactions).run session.waiting session.engine).1 =
          .ok acceptance) ∧
      ∃ tip, cursor.run session.engine = (.ok tip, session.engine) ∧
        ∀ height ≤ tip.height, ∃ block,
          (Ledger.block height).run session.engine = (.ok block, session.engine) ∧
            block.height = height := by
  rcases reachable.sound with ⟨picture, tip, sound, last⟩
  refine ⟨?_, ?_, tip, ?_, ?_⟩
  · intro id message
    refine ⟨sound.handled last id message, ?_⟩
    rcases take_eq_perform session id message with same | ⟨call, same⟩
    · rw [same]
      exact reachable
    · rw [same]
      exact reachable.called call
  · intro parcel fits
    exact sound.accepts last fits
  · exact sound.depicts.run_cursor sound.isOpen (sound.settled.trans last)
  · intro height below
    have length := picture.linked.tip_height last
    have order := UInt64.le_iff_toNat_le.mp below
    have inside : height.toNat < picture.chain.length := by omega
    refine ⟨_, sound.depicts.run_block sound.isOpen inside, ?_⟩
    exact UInt64.toNat_inj.mp (picture.linked.height_eq inside)

/-- Bytes that are no envelope reach a new ledger. -/
theorem messages_never_fail_start :
    Reachable (.up (start "ledger")) ∧
      (start "ledger").Handled "me" ⟨"peer", "relay", [7, 255]⟩ :=
  ⟨reachable_start _, ((messages_never_fail (reachable_start _)).1 _ _).1⟩

end Session

end LedgerNode
