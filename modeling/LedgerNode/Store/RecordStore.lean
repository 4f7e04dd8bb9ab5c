import LedgerNode.Store.Procedure

namespace LedgerNode

/-!
# Stores of records

A record store holds records of one type under text keys.  All record stores
of a node share one engine.  Each puts its own word, its keyspace, in front of
its keys, so that the stores do not meet as long as no keyspace begins with
another.
-/

/-- Where the records of a type are kept, and how they are written. -/
structure RecordStore (Record : Type) where
  keyspace : String
  codec : Codec Record

namespace RecordStore

variable {Record : Type}

/-- The engine's key for a key of the store. -/
def fullKey (store : RecordStore Record) (key : String) : Bytes :=
  Bytes.ofText (store.keyspace ++ key)

/-- The entries of the store, in the order of the engine's keys. -/
def entriesIn (store : RecordStore Record) (contents : Contents) : List (Bytes × Bytes) :=
  contents.entries.filter fun entry =>
    (Bytes.ofText store.keyspace).isPrefixOf entry.1

/-- The key of the store that a key of the engine stands for. -/
def readKey (store : RecordStore Record) (fullKey : Bytes) : Except Fault String :=
  match Utf8.decode fullKey with
  | .ok text => .ok (String.ofList (text.toList.drop store.keyspace.length))
  | .error fault => .error (.store (.unreadableKey fault))

def readRecord (store : RecordStore Record) (bytes : Bytes) : Except Fault Record :=
  (store.codec.decodeFront bytes).mapError .decode

def readEntry (store : RecordStore Record) (entry : Bytes × Bytes) :
    Except Fault (String × Record) := do
  let key ← store.readKey entry.1
  let record ← store.readRecord entry.2
  .ok (key, record)

def putEdit (store : RecordStore Record) (key : String) (record : Record) : Edit :=
  .put (store.fullKey key) (store.codec.encode record)

def removeEdit (store : RecordStore Record) (key : String) : Edit :=
  .remove (store.fullKey key)

/-- Put a record under a key, instead of the record that was there. -/
def put (store : RecordStore Record) (key : String) (record : Record) : StoreAction Unit :=
  .write [store.putEdit key record]

def get (store : RecordStore Record) (key : String) : StoreAction Record := do
  let contents ← StoreAction.contents
  match contents.get? (store.fullKey key) with
  | some bytes => StoreAction.ofExcept (store.readRecord bytes)
  | none => throw (.notFound (store.keyspace ++ key))

/-- Remove the record under a key, if there is one. -/
def delete (store : RecordStore Record) (key : String) : StoreAction Unit :=
  .write [store.removeEdit key]

def has (store : RecordStore Record) (key : String) : StoreAction Bool := do
  let contents ← StoreAction.contents
  return contents.contains (store.fullKey key)

/-- All keys in order. -/
def keys (store : RecordStore Record) : StoreAction (List String) := do
  let contents ← StoreAction.contents
  StoreAction.ofExcept ((store.entriesIn contents).mapM fun entry => store.readKey entry.1)

/-- All keys and records in the order of the keys. -/
def entries (store : RecordStore Record) : StoreAction (List (String × Record)) := do
  let contents ← StoreAction.contents
  StoreAction.ofExcept ((store.entriesIn contents).mapM store.readEntry)

/-- All records in the order of their keys. -/
def values (store : RecordStore Record) : StoreAction (List Record) := do
  return (← store.entries).map (·.2)

/-- How many records there are. -/
def count (store : RecordStore Record) : StoreAction Nat := do
  let contents ← StoreAction.contents
  return (store.entriesIn contents).length

/-- The records whose keys are at least `first` and below `bound`.  An empty
range is empty in a closed store too. -/
def range (store : RecordStore Record) (first bound : String) : StoreAction (List Record) :=
  if compare (Bytes.ofText first) (Bytes.ofText bound) = .lt then do
    let contents ← StoreAction.contents
    let entries := contents.range (store.fullKey first) (store.fullKey bound)
    StoreAction.ofExcept (entries.mapM fun entry => store.readRecord entry.2)
  else return []

end RecordStore

/-- Edits of one record store that are written together.  Of several edits of
a key the last one counts. -/
structure Batch (Record : Type) where
  store : RecordStore Record
  edits : List Edit

namespace Batch

variable {Record : Type}

/-- A batch without edits. -/
def ofStore (store : RecordStore Record) : Batch Record := ⟨store, []⟩

/-- The batch that also puts a record under a key. -/
def put (batch : Batch Record) (key : String) (record : Record) : Batch Record :=
  { batch with edits := batch.edits ++ [batch.store.putEdit key record] }

/-- The batch that also removes the record under a key. -/
def delete (batch : Batch Record) (key : String) : Batch Record :=
  { batch with edits := batch.edits ++ [batch.store.removeEdit key] }

/-- How many edits the batch has. -/
def size (batch : Batch Record) : Nat := batch.edits.length

def isEmpty (batch : Batch Record) : Bool := batch.edits.isEmpty

/-- Write all edits of the batch as a whole. -/
def commit (batch : Batch Record) : StoreAction Unit := .write batch.edits

end Batch

end LedgerNode
