import LedgerNode.Gossip.Channel
import LedgerNode.Node.Producer
import LedgerNode.Proofs.Ledger.Inspection
import LedgerNode.Proofs.Store.Frame
import LedgerNode.Proofs.Store.Layout

namespace LedgerNode

/-!
# What the ledger leaves alone

The ledger writes blocks, transactions and its cursor.  A record store apart
from these is spared by everything that is done to the ledger: by the check of
an opening, by the messages of others and by the blocks that the node makes up
itself.
-/

variable {Record : Type} {store : RecordStore Record}

namespace Ledger

theorem cursor_spares : cursor.Spares store := by
  rw [cursor, RecordStore.get_eq_reading]
  exact (StoreAction.readOnly_reading _).spares

theorem block_spares (height : UInt64) : (Ledger.block height).Spares store := by
  rw [Ledger.block, RecordStore.get_eq_reading]
  exact (StoreAction.readOnly_reading _).spares

/-- The store is none of those that the ledger writes to. -/
structure Outside (store : RecordStore Record) : Prop where
  blocks : store.Apart RecordStore.blocks
  cursors : store.Apart RecordStore.cursors
  confirmed : store.Apart RecordStore.confirmed
  pending : store.Apart RecordStore.pending

theorem peers_outside : Outside RecordStore.peers where
  blocks := NodeStore.apart .peers .blocks nofun
  cursors := NodeStore.apart .peers .cursors nofun
  confirmed := NodeStore.apart .peers .confirmed nofun
  pending := NodeStore.apart .peers .pending nofun

namespace Outside

variable (outside : Outside store)

include outside

theorem start : Ledger.start.Spares store := by
  apply (StoreAction.spares_put outside.blocks _ _).bind
  intro _
  apply (StoreAction.spares_put outside.cursors _ _).bind
  intro _
  trivial

theorem commit (block : Block) (transactions : List Transaction) :
    (Ledger.commit block transactions).Spares store := by
  apply (StoreAction.spares_put outside.blocks _ _).bind
  intro _
  apply (StoreAction.spares_forM
    (fun _ => StoreAction.spares_put outside.confirmed _ _) transactions).bind
  intro _
  apply (StoreAction.spares_put outside.cursors _ _).bind
  intro _
  trivial

/-- An opening writes the start of a chain or a cursor. -/
theorem check : Ledger.check.Spares store := by
  have rescan (stored : Option Cursor) : (Ledger.rescan stored).Spares store := by
    apply verify_readOnly.spares.bind
    intro tip
    cases tip with
    | some tip =>
        apply (StoreAction.spares_put outside.cursors _ _).bind
        intro _
        trivial
    | none => trivial
  rw [check_eq]
  apply (RecordStore.count_readOnly _).spares.bind
  intro blockCount
  apply (RecordStore.count_readOnly _).spares.bind
  intro transactionCount
  apply storedCursor_readOnly.spares.bind
  intro stored
  cases stored with
  | none =>
      rw [proceed]
      split
      · exact outside.start.bind fun _ => trivial
      · exact rescan none
  | some cursor =>
      rw [proceed]
      split
      · trivial
      · exact rescan (some cursor)

theorem commitWaiting (parcels : List WaitingBlock) (tip : Cursor) :
    (Ledger.commitWaiting parcels tip).Spares store := by
  induction parcels generalizing tip with
  | nil => exact LedgerAction.spares_pure tip
  | cons parcel rest ih =>
      apply (LedgerAction.spares_modifyGet _).bind
      intro _
      apply (LedgerAction.spares_ofStore (outside.commit _ _)).bind
      intro reached
      exact ih reached

theorem accept (block : Block) (transactions : List Transaction) :
    (Ledger.accept block transactions).Spares store := by
  apply (LedgerAction.spares_ofStore cursor_spares).bind
  intro tip
  split
  · apply (LedgerAction.spares_ofStore (block_spares _)).bind
    intro _
    exact LedgerAction.spares_pure _
  · split
    · exact LedgerAction.spares_modifyGet _
    · split
      · apply LedgerAction.Spares.bind
        · apply (LedgerAction.spares_ofStore (outside.commit _ _)).bind
          intro reached waiting
          apply (outside.commitWaiting _ reached).bind
          intro _
          apply (LedgerAction.spares_modifyGet _).bind
          intro _
          exact LedgerAction.spares_pure _
        · intro _
          exact LedgerAction.spares_pure _
      · exact LedgerAction.spares_pure _

theorem addTransaction (transaction : Transaction) :
    (Ledger.addTransaction transaction).Spares store := by
  rw [Ledger.addTransaction]
  split
  · exact (StoreAction.spares_put outside.pending _ _).bind fun _ => trivial
  · rw [addConfirmed, RecordStore.has_eq_reading]
    apply (StoreAction.readOnly_reading _).spares.bind
    intro stored
    cases stored with
    | false => trivial
    | true => exact (StoreAction.spares_put outside.confirmed _ _).bind fun _ => trivial

theorem acceptTransactions (transactions : List Transaction) :
    (Ledger.acceptTransactions transactions).Spares store := by
  induction transactions with
  | nil => trivial
  | cons transaction rest ih =>
      apply (outside.addTransaction transaction).bind
      intro _
      exact ih.bind fun _ => trivial

/-- Messages change the ledger only. -/
theorem handleAll (id : String) (messages : List Message) :
    (Channel.handleAll id messages).Spares store := by
  apply LedgerAction.spares_forM
  intro message
  apply LedgerAction.Spares.tryCatch
  · apply LedgerAction.Spares.bind
    · rw [Channel.handle]
      split
      · exact LedgerAction.spares_pure _
      · split
        · exact LedgerAction.spares_pure _
        · rename_i envelope _
          cases envelope with
          | newBlock block transactions =>
              exact (outside.accept block transactions).bind fun _ =>
                LedgerAction.spares_pure _
          | newTransactions transactions =>
              exact (LedgerAction.spares_ofStore (outside.acceptTransactions transactions)).bind
                fun _ => LedgerAction.spares_pure _
    · intro _
      exact LedgerAction.spares_pure _
  · intro _
    exact LedgerAction.spares_pure _

/-- A made up block changes the ledger only. -/
theorem produce (timestamp : Int64) : (Producer.produce timestamp).Spares store := by
  have appended : (appendBuilt (Producer.nextBlock timestamp)).Spares store := by
    apply cursor_spares.bind
    intro tip
    dsimp only
    split
    · exact (outside.commit _ _).bind fun _ => trivial
    · trivial
  have synthesized : (Producer.synthesize timestamp).Spares store := by
    apply appended.bind
    intro block
    exact (StoreAction.spares_put outside.pending _ _).bind fun _ => trivial
  exact synthesized.bind fun _ => trivial

end Outside

end Ledger

end LedgerNode
