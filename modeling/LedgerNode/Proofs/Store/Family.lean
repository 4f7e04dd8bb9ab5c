import LedgerNode.Proofs.Ledger.Format
import LedgerNode.Proofs.Peer.Format
import LedgerNode.Proofs.Store.Layout
import LedgerNode.Proofs.Store.Tables

namespace LedgerNode

/-!
# Record stores that share an engine

Several record stores use one engine, in any order, with changes of single
records and with batches.  If their keyspaces lie apart, each of them behaves
as a table of its own.

The pictured system has no engine.  It consists of one table for each store and
of the changes that were gathered for a batch and not yet committed.  What is
shown is that one step of the real system follows one step of the pictured one:
the store that makes the step keeps the changed table, and the edits of the step
lie outside every other keyspace.  So the pictured system tells what all reads
report after any number of steps.
-/

/-- Record stores that lie apart, with the records that they can hold. -/
structure StoreFamily (Index : Type) where
  Record : Index → Type
  store : ∀ index, RecordStore (Record index)
  Fits : ∀ index, Record index → Prop
  roundTrips : ∀ index, (store index).codec.RoundTrips (Fits index)
  apart : ∀ first second, first ≠ second → (store first).Apart (store second)

/-- The batch that also makes a change. -/
def Batch.gather (batch : Batch Record) : TableChange Record → Batch Record
  | .put key record => batch.put key record
  | .delete key => batch.delete key

namespace StoreFamily

variable {Index : Type}

/-- A step of a user of the stores.  Batches of a store are told apart by
numbers. -/
inductive Move (family : StoreFamily Index) where
  /-- Put or delete a record. -/
  | change (index : Index) (change : TableChange (family.Record index))
  /-- Add a change to a batch. -/
  | gather (index : Index) (number : Nat) (change : TableChange (family.Record index))
  /-- Commit a batch and start a new one in its place. -/
  | commit (index : Index) (number : Nat)
  /-- Drop a batch and start a new one in its place. -/
  | discard (index : Index) (number : Nat)

namespace Move

variable {family : StoreFamily Index}

/-- The store that the step uses. -/
def index : family.Move → Index
  | change index _ => index
  | gather index _ _ => index
  | commit index _ => index
  | discard index _ => index

/-- A record that the step brings fits into the store. -/
def Fits : family.Move → Prop
  | change index entry => entry.Brings (family.Fits index)
  | gather index _ entry => entry.Brings (family.Fits index)
  | commit _ _ => True
  | discard _ _ => True

end Move

/-! ## Batches in the making -/

variable {family : StoreFamily Index}

/-- A batch holds the edits of the changes that were gathered for it, and these
fit into the store. -/
def Mirrors (family : StoreFamily Index) (index : Index) (batch : Batch (family.Record index))
    (changes : List (TableChange (family.Record index))) : Prop :=
  batch = ⟨family.store index, changes.map (family.store index).editOf⟩ ∧
    ∀ change ∈ changes, change.Brings (family.Fits index)

theorem mirrors_nil (family : StoreFamily Index) (index : Index) :
    family.Mirrors index (Batch.ofStore (family.store index)) [] :=
  ⟨rfl, List.forall_mem_nil _⟩

theorem Mirrors.gather {index : Index} {batch : Batch (family.Record index)}
    {changes : List (TableChange (family.Record index))}
    (mirrors : family.Mirrors index batch changes)
    {change : TableChange (family.Record index)} (brings : change.Brings (family.Fits index)) :
    family.Mirrors index (batch.gather change) (changes ++ [change]) := by
  rcases mirrors with ⟨rfl, all⟩
  refine ⟨?_, List.forall_mem_append.mpr ⟨all, List.forall_mem_singleton.mpr brings⟩⟩
  rw [List.map_append]
  cases change <;> rfl

/-! ## The real and the pictured system -/

variable [DecidableEq Index]

/-- Replace what belongs to one number of one store. -/
def place {Cell : Index → Type} (cells : ∀ index, Nat → Cell index) (index : Index)
    (number : Nat) (cell : Cell index) : ∀ index, Nat → Cell index :=
  Function.update cells index (Function.update (cells index) number cell)

/-- The engine that the stores share, and the batches in the making. -/
structure Usage (family : StoreFamily Index) where
  engine : Engine
  batches : ∀ index, Nat → Batch (family.Record index)

namespace Usage

/-- An engine with no batch begun. -/
def ofEngine (family : StoreFamily Index) (engine : Engine) : family.Usage where
  engine := engine
  batches := fun index _ => Batch.ofStore (family.store index)

def step (usage : family.Usage) : family.Move → Except Fault Unit × family.Usage
  | .change index change =>
      let (answer, engine) := ((family.store index).change change).run usage.engine
      (answer, { usage with engine })
  | .gather index number change =>
      let batch := (usage.batches index number).gather change
      (.ok (), { usage with batches := place usage.batches index number batch })
  | .commit index number =>
      let (answer, engine) := (usage.batches index number).commit.run usage.engine
      let batch := Batch.ofStore (family.store index)
      (answer, { engine, batches := place usage.batches index number batch })
  | .discard index number =>
      let batch := Batch.ofStore (family.store index)
      (.ok (), { usage with batches := place usage.batches index number batch })

/-- The stores after steps, one after another. -/
def after (usage : family.Usage) (moves : List family.Move) : family.Usage :=
  moves.foldl (fun usage move => (usage.step move).2) usage

end Usage

/-- A table for each store, and the changes that are gathered for batches. -/
structure Catalogue (family : StoreFamily Index) where
  tables : ∀ index, Table (family.Record index)
  gathered : ∀ index, Nat → List (TableChange (family.Record index))

namespace Catalogue

/-- Empty tables and nothing gathered. -/
def empty (family : StoreFamily Index) : family.Catalogue where
  tables := fun _ => Table.empty
  gathered := fun _ _ => []

def step (catalogue : family.Catalogue) : family.Move → family.Catalogue
  | .change index change =>
      let table := (catalogue.tables index).change change
      { catalogue with tables := Function.update catalogue.tables index table }
  | .gather index number change =>
      let changes := catalogue.gathered index number ++ [change]
      { catalogue with gathered := place catalogue.gathered index number changes }
  | .commit index number =>
      let table := (catalogue.tables index).changeAll (catalogue.gathered index number)
      { tables := Function.update catalogue.tables index table
        gathered := place catalogue.gathered index number [] }
  | .discard index number =>
      { catalogue with gathered := place catalogue.gathered index number [] }

def after (catalogue : family.Catalogue) (moves : List family.Move) : family.Catalogue :=
  moves.foldl step catalogue

end Catalogue

/-- The stores behave as the pictured tables, in all that can be asked of them
now and in the next step. -/
structure Usage.Behaves (usage : family.Usage) (catalogue : family.Catalogue) : Prop where
  /-- All reads of a store answer from its table. -/
  reports : ∀ index, (family.store index).Reports usage.engine (catalogue.tables index)
  /-- A batch has as many edits as changes were gathered. -/
  sizes : ∀ index number,
    (usage.batches index number).size = (catalogue.gathered index number).length
  /-- No step is refused. -/
  answers : ∀ move, (usage.step move).1 = .ok ()
  /-- A step with one store changes no report of another. -/
  elsewhere : ∀ move other, other ≠ move.index →
    (family.store other).Reports (usage.step move).2.engine (catalogue.tables other)
  /-- A commit is the write of the last edit of each key, in any order. -/
  lastCounts : ∀ index number kept, Edit.Counting (usage.batches index number).edits kept →
    (usage.batches index number).commit.run usage.engine =
      (StoreAction.write kept).run usage.engine

/-! ## Steps follow pictured steps -/

/-- What is related cell by cell stays so when related cells are placed. -/
theorem place_related {Left Right : Index → Type}
    {Related : ∀ index, Left index → Right index → Prop} {lefts : ∀ index, Nat → Left index}
    {rights : ∀ index, Nat → Right index}
    (old : ∀ index number, Related index (lefts index number) (rights index number))
    {index : Index} {left : Left index} {right : Right index} (number : Nat)
    (new : Related index left right) (other : Index) (another : Nat) :
    Related other (place lefts index number left other another)
      (place rights index number right other another) := by
  unfold place
  by_cases here : other = index
  · subst here
    rw [Function.update_self, Function.update_self]
    by_cases there : another = number
    · rw [there, Function.update_self, Function.update_self]
      exact new
    · rw [Function.update_of_ne there, Function.update_of_ne there]
      exact old other another
  · rw [Function.update_of_ne here, Function.update_of_ne here]
    exact old other another

/-- The engine keeps the tables, and the batches hold what was gathered. -/
structure Usage.Represents (usage : family.Usage) (catalogue : family.Catalogue) : Prop where
  isOpen : usage.engine.isOpen = true
  keeps : ∀ index, (family.store index).Keeps (family.Fits index) (catalogue.tables index)
    usage.engine.contents
  mirrors : ∀ index number,
    family.Mirrors index (usage.batches index number) (catalogue.gathered index number)

/-- The changes that a step makes to the table of its store. -/
def Catalogue.changes (catalogue : family.Catalogue) :
    (move : family.Move) → List (TableChange (family.Record move.index))
  | .change _ change => [change]
  | .gather _ _ _ => []
  | .commit index number => catalogue.gathered index number
  | .discard _ _ => []

theorem Catalogue.tables_step (catalogue : family.Catalogue) (move : family.Move) :
    (catalogue.step move).tables = Function.update catalogue.tables move.index
      ((catalogue.tables move.index).changeAll (catalogue.changes move)) := by
  cases move with
  | change index change => rfl
  | gather index number change => exact (Function.update_eq_self index _).symm
  | commit index number => rfl
  | discard index number => exact (Function.update_eq_self index _).symm

namespace Usage.Represents

variable {usage : family.Usage} {catalogue : family.Catalogue}

omit [DecidableEq Index] in
/-- A new engine represents empty tables. -/
theorem create (family : StoreFamily Index) (path : String) :
    (Usage.ofEngine family (Engine.create path)).Represents (Catalogue.empty family) where
  isOpen := rfl
  keeps index := RecordStore.Keeps.empty (family.store index) (family.Fits index)
  mirrors index _ := family.mirrors_nil index

/-- A step makes the edits of its changes. -/
theorem step_eq (represents : usage.Represents catalogue) (move : family.Move) :
    (usage.step move).1 = .ok () ∧ (usage.step move).2.engine =
      usage.engine.edited ((catalogue.changes move).map (family.store move.index).editOf) := by
  cases move with
  | change index change =>
      have does := StoreAction.does_write represents.isOpen [(family.store index).editOf change]
      rw [← RecordStore.change_eq_write] at does
      exact ⟨congrArg Prod.fst does, congrArg Prod.snd does⟩
  | gather index number change => exact ⟨rfl, rfl⟩
  | commit index number =>
      have does := StoreAction.does_write represents.isOpen (usage.batches index number).edits
      have edits := congrArg Batch.edits (represents.mirrors index number).1
      exact ⟨congrArg Prod.fst does, (congrArg Prod.snd does).trans (edits ▸ rfl)⟩
  | discard index number => exact ⟨rfl, rfl⟩

/-- A step with one store leaves another with the table that it had. -/
theorem keeps_elsewhere (represents : usage.Represents catalogue) (move : family.Move)
    {other : Index} (different : other ≠ move.index) :
    (family.store other).Keeps (family.Fits other) (catalogue.tables other)
      (usage.step move).2.engine.contents := by
  rw [(represents.step_eq move).2]
  apply (represents.keeps other).applyAll_of_outside
  intro edit member
  rcases List.mem_map.mp member with ⟨change, _, rfl⟩
  rw [RecordStore.key_editOf]
  exact (family.apart other move.index different).not_isPrefixOf change.key

omit [DecidableEq Index] in
/-- What a step changes fits into its store. -/
theorem brings_changes (represents : usage.Represents catalogue) {move : family.Move}
    (fits : move.Fits) : ∀ change ∈ catalogue.changes move, change.Brings (family.Fits move.index) := by
  cases move with
  | change index change => exact List.forall_mem_singleton.mpr fits
  | gather index number change => exact List.forall_mem_nil _
  | commit index number => exact (represents.mirrors index number).2
  | discard index number => exact List.forall_mem_nil _

theorem mirrors_step (represents : usage.Represents catalogue) {move : family.Move}
    (fits : move.Fits) (index : Index) (number : Nat) :
    family.Mirrors index ((usage.step move).2.batches index number)
      ((catalogue.step move).gathered index number) := by
  cases move with
  | change _ _ => exact represents.mirrors index number
  | gather own which change =>
      exact place_related represents.mirrors which
        ((represents.mirrors own which).gather fits) index number
  | commit own which =>
      exact place_related represents.mirrors which (family.mirrors_nil own) index number
  | discard own which =>
      exact place_related represents.mirrors which (family.mirrors_nil own) index number

/-- A step of the real system follows the pictured step. -/
theorem step (represents : usage.Represents catalogue) {move : family.Move} (fits : move.Fits) :
    (usage.step move).2.Represents (catalogue.step move) where
  isOpen := by
    rw [(represents.step_eq move).2]
    exact Engine.isOpen_edited represents.isOpen _
  keeps index := by
    rw [Catalogue.tables_step]
    by_cases own : index = move.index
    · subst own
      rw [Function.update_self, (represents.step_eq move).2]
      exact (represents.keeps move.index).applyAll (represents.brings_changes fits)
    · rw [Function.update_of_ne own]
      exact represents.keeps_elsewhere move own
  mirrors := represents.mirrors_step fits

/-- So do any number of steps. -/
theorem run (represents : usage.Represents catalogue) {moves : List family.Move}
    (fits : ∀ move ∈ moves, move.Fits) :
    (usage.after moves).Represents (catalogue.after moves) := by
  induction moves generalizing usage catalogue with
  | nil => exact represents
  | cons move moves ih =>
      rcases List.forall_mem_cons.mp fits with ⟨first, rest⟩
      exact ih (represents.step first) rest

/-- Whatever represents the pictured system behaves as it. -/
theorem behaves (represents : usage.Represents catalogue) : usage.Behaves catalogue where
  reports index := (represents.keeps index).reports (family.roundTrips index) represents.isOpen
  sizes index number := by
    rw [Batch.size, congrArg Batch.edits (represents.mirrors index number).1, List.length_map]
  answers move := (represents.step_eq move).1
  elsewhere move other different := by
    apply (represents.keeps_elsewhere move different).reports (family.roundTrips other)
    rw [(represents.step_eq move).2]
    exact Engine.isOpen_edited represents.isOpen _
  lastCounts index number kept counting := by
    have all := StoreAction.does_write represents.isOpen (usage.batches index number).edits
    have some := StoreAction.does_write represents.isOpen kept
    rw [StoreAction.Does, Engine.edited, counting.applyAll_eq] at some
    exact all.trans some.symm

end Usage.Represents

/-- Record stores that lie apart behave as independent tables. -/
theorem stores_are_tables {usage : family.Usage} {catalogue : family.Catalogue}
    (represents : usage.Represents catalogue) {moves : List family.Move}
    (fits : ∀ move ∈ moves, move.Fits) :
    (usage.after moves).Behaves (catalogue.after moves) :=
  (represents.run fits).behaves

end StoreFamily

/-! ## The stores of a node -/

namespace NodeStore

/-- A record that fits into the store. -/
def Fits : (index : NodeStore) → index.Record → Prop
  | cursors => Cursor.Fits
  | blocks => Block.Fits
  | confirmed => Transaction.Fits
  | pending => Transaction.Fits
  | peers => Peer.Fits

theorem roundTrips : ∀ index : NodeStore, index.store.codec.RoundTrips index.Fits
  | cursors => Cursor.codec_roundTrips
  | blocks => Block.codec_roundTrips
  | confirmed => Transaction.codec_roundTrips
  | pending => Transaction.codec_roundTrips
  | peers => Peer.codec_delimits.roundTrips

/-- The five stores of a node, each with its own keyspace. -/
def family : StoreFamily NodeStore := ⟨Record, store, Fits, roundTrips, apart⟩

/-- Steps with two of the stores: a batch that puts a block, deletes it and puts
another, and a batch that is dropped. -/
def mixedMoves : List family.Move :=
  [.change .cursors (.put "here" Cursor.genesis),
    .gather .blocks 0 (.put "a" Block.genesis),
    .gather .cursors 0 (.delete "here"),
    .gather .blocks 0 (.delete "a"),
    .gather .blocks 0 (.put "b" Block.genesis),
    .commit .blocks 0,
    .discard .cursors 0]

end NodeStore

open StoreFamily in
theorem StoreFamily.stores_are_tables_mixed :
    let engine := ((Usage.ofEngine NodeStore.family (Engine.create "data")).after
      NodeStore.mixedMoves).engine
    (RecordStore.cursors.get "here").run engine = (.ok Cursor.genesis, engine) ∧
      (RecordStore.blocks.has "a").run engine = (.ok false, engine) ∧
      (RecordStore.blocks.get "b").run engine = (.ok Block.genesis, engine) := by
  have cursor : ∀ key, (TableChange.put key Cursor.genesis).Brings Cursor.Fits := by
    rintro key _ ⟨⟩
    exact Cursor.fits_genesis
  have block : ∀ key, (TableChange.put key Block.genesis).Brings Block.Fits := by
    rintro key _ ⟨⟩
    exact Block.fits_genesis
  have fits : ∀ move ∈ NodeStore.mixedMoves, move.Fits := by
    simp only [NodeStore.mixedMoves, List.forall_mem_cons]
    exact ⟨cursor _, block _, nofun, nofun, block _, trivial, trivial, nofun⟩
  have behaves := stores_are_tables (Usage.Represents.create NodeStore.family "data") fits
  exact ⟨(behaves.reports .cursors).get "here", (behaves.reports .blocks).has "a",
    (behaves.reports .blocks).get "b"⟩

end LedgerNode
