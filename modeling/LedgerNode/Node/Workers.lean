namespace LedgerNode

/-!
# The workers of a node

A node keeps a list of the workers that it has started, until each of them has
ended.  A worker that breaks down does not keep the others from being waited
for, and a worker may start another one.
-/

/-- What a worker does. -/
inductive Work where
  /-- It waits until the node stops. -/
  | waiting
  | brief
  /-- It breaks down. -/
  | failing
  /-- It starts another worker and ends. -/
  | starting (next : Work)
deriving DecidableEq

namespace Work

/-- How many workers end well, of a worker and those that it starts.  A
waiting worker ends if it is released. -/
def endings (released : Bool) : Work → Nat
  | waiting => released.toNat
  | brief => 1
  | failing => 0
  | starting next => 1 + next.endings released

/-- The worker that is left once all others have ended, if there is one. -/
def remainder : Work → Option Work
  | waiting => some waiting
  | brief => none
  | failing => none
  | starting next => next.remainder

end Work

/-- The workers that a node has started. -/
structure Workers where
  /-- The workers that are waited for. -/
  active : List Work
  /-- How many workers have ended well. -/
  finished : Nat
deriving DecidableEq

namespace Workers

/-- A node that has not started anything. -/
def none : Workers := ⟨[], 0⟩

/-- How many workers end well, of those that are waited for and those that they
start. -/
def endings (workers : Workers) (released : Bool) : Nat :=
  workers.active.foldl (fun count work => count + work.endings released) 0

def start (workers : Workers) (work : Work) : Workers :=
  { workers with active := workers.active ++ [work] }

/-- Wait until only waiting workers are left. -/
def settle (workers : Workers) : Workers where
  active := workers.active.filterMap Work.remainder
  finished := workers.finished + workers.endings false

/-- Release all waiting workers and wait for everyone. -/
def join (workers : Workers) : Workers where
  active := []
  finished := workers.finished + workers.endings true

end Workers

end LedgerNode
