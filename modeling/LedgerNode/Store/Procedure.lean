import LedgerNode.Fault
import LedgerNode.Store.Engine

namespace LedgerNode

/-!
# Procedures on the store

A procedure is what an operation does to the store: a sequence of single reads
and single writes, each of which may depend on what the earlier ones answered.
Between two of them anything can happen to the store, for instance the step of
another procedure, or its closing.  A procedure that runs alone is a function
on the engine.
-/

/-- A sequence of reads and writes that ends in a value. -/
inductive Procedure (Value : Type) : Type where
  | done (value : Value)
  /-- Look at the contents; a closed store shows nothing. -/
  | read (next : Option Contents → Procedure Value)
  /-- Write edits as a whole; the answer tells whether the store took them. -/
  | write (edits : List Edit) (next : Bool → Procedure Value)

namespace Procedure

/-- The first procedure, continued by one that depends on its value. -/
def bind (first : Procedure α) (next : α → Procedure β) : Procedure β :=
  match first with
  | done value => next value
  | read rest => read fun contents => (rest contents).bind next
  | write edits rest => write edits fun taken => (rest taken).bind next

instance : Monad Procedure where
  pure := done
  bind := bind

/-- Run a procedure alone. -/
def run (engine : Engine) : Procedure Value → Value × Engine
  | done value => (value, engine)
  | read next => (next engine.view).run engine
  | write edits next =>
    let (engine, taken) := engine.write edits
    (next taken).run engine

end Procedure

/-- A procedure that may fail.  What it wrote before it failed stays
written. -/
abbrev StoreAction := ExceptT Fault Procedure

namespace StoreAction

/-- The contents, unless the store is closed. -/
def contents : StoreAction Contents :=
  ExceptT.mk (.read fun
    | some contents => .done (.ok contents)
    | none => .done (.error .storeClosed))

/-- Write edits as a whole, unless the store is closed. -/
def write (edits : List Edit) : StoreAction Unit :=
  ExceptT.mk (.write edits fun taken =>
    .done (if taken then .ok () else .error .storeClosed))

/-- An outcome that does not depend on the store. -/
def ofExcept (outcome : Except Fault Value) : StoreAction Value := ExceptT.mk (.done outcome)

def run (action : StoreAction Value) (engine : Engine) : Except Fault Value × Engine :=
  Procedure.run engine (ExceptT.run action)

end StoreAction

end LedgerNode
