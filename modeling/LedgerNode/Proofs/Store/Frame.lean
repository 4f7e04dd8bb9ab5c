import LedgerNode.Proofs.Store.RecordStore

namespace LedgerNode

/-!
# What leaves a record store alone

A procedure spares a record store if it writes nothing under its keyspace,
whatever it sees.  That is read off the procedure, one step after another, and
then the store has the same entries after every run, whether or not the engine
took the writes.
-/

namespace RecordStore

variable {Record : Type}

/-- The store has what it had before, in the same engine. -/
structure Same (store : RecordStore Record) (before after : Engine) : Prop where
  path : after.path = before.path
  isOpen : after.isOpen = before.isOpen
  part : store.part after.contents = store.part before.contents

theorem Same.refl (store : RecordStore Record) (engine : Engine) : store.Same engine engine :=
  ⟨rfl, rfl, rfl⟩

theorem Same.trans {store : RecordStore Record} {first second third : Engine}
    (earlier : store.Same first second) (later : store.Same second third) :
    store.Same first third :=
  ⟨later.path.trans earlier.path, later.isOpen.trans earlier.isOpen,
    later.part.trans earlier.part⟩

/-- No edit is under the keyspace of the store. -/
def Beyond (store : RecordStore Record) (edits : List Edit) : Prop :=
  ∀ edit ∈ edits, (Bytes.ofText store.keyspace).isPrefixOf edit.key = false

theorem Beyond.part_applyAll {store : RecordStore Record} {edits : List Edit}
    (beyond : store.Beyond edits) (contents : Contents) :
    store.part (Edit.applyAll contents edits) = store.part contents := by
  induction edits generalizing contents with
  | nil => rfl
  | cons edit rest ih =>
      rcases List.forall_mem_cons.mp beyond with ⟨head, tail⟩
      exact (ih tail _).trans (part_apply_of_outside head contents)

theorem Apart.beyond_put {store : RecordStore Record} {other : RecordStore Other}
    (apart : store.Apart other) (key : String) (record : Other) :
    store.Beyond [other.putEdit key record] :=
  List.forall_mem_singleton.mpr (apart.not_isPrefixOf key)

end RecordStore

variable {Record : Type} {store : RecordStore Record}

namespace Procedure

/-- Whatever it sees, the procedure writes nothing under the keyspace of the
store. -/
def Spares (store : RecordStore Record) : Procedure Value → Prop
  | done _ => True
  | read next => ∀ seen, (next seen).Spares store
  | write edits next => store.Beyond edits ∧ ∀ taken, (next taken).Spares store

theorem ReadOnly.spares {procedure : Procedure Value} (readOnly : procedure.ReadOnly) :
    procedure.Spares store := by
  induction procedure with
  | done value => trivial
  | read next ih => exact fun seen => ih seen (readOnly seen)
  | write => exact readOnly.elim

theorem Spares.bind {procedure : Procedure α} {next : α → Procedure β}
    (first : procedure.Spares store) (rest : ∀ value, (next value).Spares store) :
    (procedure.bind next).Spares store := by
  induction procedure with
  | done value => exact rest value
  | read others ih => exact fun seen => ih seen (first seen)
  | write edits others ih => exact ⟨first.1, fun taken => ih taken (first.2 taken)⟩

theorem Spares.run {procedure : Procedure Value} (spares : procedure.Spares store)
    (engine : Engine) : store.Same engine (procedure.run engine).2 := by
  induction procedure generalizing engine with
  | done value => exact .refl store engine
  | read next ih => exact ih engine.view (spares engine.view) engine
  | write edits next ih =>
      cases isOpen : engine.isOpen with
      | false =>
          rw [Procedure.run, Engine.write_of_closed isOpen]
          exact ih false (spares.2 false) engine
      | true =>
          rw [Procedure.run, Engine.write_of_open isOpen]
          have written : store.Same engine (engine.edited edits) :=
            ⟨rfl, rfl, spares.1.part_applyAll engine.contents⟩
          exact written.trans (ih true (spares.2 true) _)

end Procedure

namespace StoreAction

/-- Whatever it sees, the action writes nothing under the keyspace of the store. -/
def Spares (store : RecordStore Record) (action : StoreAction Value) : Prop :=
  (ExceptT.run action).Spares store

theorem ReadOnly.spares {action : StoreAction Value} (readOnly : action.ReadOnly) :
    action.Spares store :=
  Procedure.ReadOnly.spares readOnly

theorem Spares.bind {action : StoreAction α} {next : α → StoreAction β}
    (first : action.Spares store) (rest : ∀ value, (next value).Spares store) :
    (action >>= next).Spares store := by
  apply Procedure.Spares.bind first
  intro outcome
  cases outcome with
  | ok value => exact rest value
  | error fault => trivial

theorem spares_put {other : RecordStore Other} (apart : store.Apart other) (key : String)
    (record : Other) : (other.put key record).Spares store :=
  ⟨apart.beyond_put key record, fun _ => trivial⟩

theorem spares_forM {Item : Type} {action : Item → StoreAction Unit}
    (each : ∀ item, (action item).Spares store) (items : List Item) :
    (items.forM action).Spares store := by
  induction items with
  | nil => trivial
  | cons item rest ih => exact (each item).bind fun _ => ih

theorem Spares.run {action : StoreAction Value} (spares : action.Spares store)
    (engine : Engine) : store.Same engine (action.run engine).2 :=
  Procedure.Spares.run spares engine

end StoreAction

namespace LedgerAction

/-- Whatever waits and whatever it sees, the action writes nothing under the
keyspace of the store. -/
def Spares (store : RecordStore Record) (action : LedgerAction Value) : Prop :=
  ∀ waiting, (ExceptT.run action waiting).Spares store

theorem spares_pure (value : Value) : (pure value : LedgerAction Value).Spares store :=
  fun _ => trivial

theorem Spares.bind {action : LedgerAction α} {next : α → LedgerAction β}
    (first : action.Spares store) (rest : ∀ value, (next value).Spares store) :
    (action >>= next).Spares store := by
  intro waiting
  apply Procedure.Spares.bind (first waiting)
  rintro ⟨outcome, kept⟩
  cases outcome with
  | ok value => exact rest value kept
  | error fault => trivial

theorem Spares.tryCatch {action : LedgerAction Value} {handler : Fault → LedgerAction Value}
    (spares : action.Spares store) (handles : ∀ fault, (handler fault).Spares store) :
    (tryCatch action handler).Spares store := by
  intro waiting
  apply Procedure.Spares.bind (spares waiting)
  rintro ⟨outcome, kept⟩
  cases outcome with
  | ok value => trivial
  | error fault => exact handles fault kept

theorem spares_ofStore {action : StoreAction Value} (spares : action.Spares store) :
    (ofStore action).Spares store :=
  fun _ => Procedure.Spares.bind spares fun _ => trivial

theorem spares_modifyGet (change : WaitingBlocks → α × WaitingBlocks) :
    (modifyGet change : LedgerAction α).Spares store :=
  fun _ => trivial

theorem spares_forM {Item : Type} {action : Item → LedgerAction Unit}
    (each : ∀ item, (action item).Spares store) (items : List Item) :
    (items.forM action).Spares store := by
  induction items with
  | nil => exact spares_pure ()
  | cons item rest ih => exact (each item).bind fun _ => ih

theorem Spares.run {action : LedgerAction Value} (spares : action.Spares store)
    (waiting : WaitingBlocks) (engine : Engine) :
    store.Same engine (action.run waiting engine).2.2 :=
  Procedure.Spares.run (spares waiting) engine

end LedgerAction

end LedgerNode
