import Mathlib.Order.Defs.Unbundled
import LedgerNode.Fault

namespace LedgerNode

/-!
# Actions on a state that may fail

What such an action did before it failed stays done, so an action is described by
its outcome and by the state that it leaves behind either way.

An action leads along a relation if it leaves behind a state in that relation to
the one it found.  For a relation that is reflexive and transitive this is read off
the action, one step after another.
-/

namespace Action

variable {State Value Other : Type} {action : ExceptT Fault (StateM State) Value}
  {state next : State} {value : Value} {fault : Fault}

theorem run_modifyGet (change : State → Value × State) (state : State) :
    (modifyGet change : ExceptT Fault (StateM State) Value).run.run state =
      (.ok (change state).1, (change state).2) := rfl

theorem run_get_bind (rest : State → ExceptT Fault (StateM State) Value) (state : State) :
    (get >>= rest).run.run state = (rest state).run.run state := rfl

/-- After an action that succeeds, the next one goes on from its answer. -/
theorem run_bind (performed : action.run.run state = (.ok value, next))
    (rest : Value → ExceptT Fault (StateM State) Other) :
    (action >>= rest).run.run state = (rest value).run.run next := by
  rw [ExceptT.run_bind, StateT.run_bind, performed]
  rfl

/-- After an action that fails, nothing else is done. -/
theorem run_bind_error (failed : action.run.run state = (.error fault, next))
    (rest : Value → ExceptT Fault (StateM State) Other) :
    (action >>= rest).run.run state = (.error fault, next) := by
  rw [ExceptT.run_bind, StateT.run_bind, failed]
  rfl

/-- If an action and what follows it succeed, then each of them does. -/
theorem of_run_bind {rest : Value → ExceptT Fault (StateM State) Other} {final : State}
    {answer : Other} (succeeds : (action >>= rest).run.run state = (.ok answer, final)) :
    ∃ value next, action.run.run state = (.ok value, next) ∧
      (rest value).run.run next = (.ok answer, final) := by
  rcases ran : action.run.run state with ⟨outcome, next⟩
  cases outcome with
  | ok value => exact ⟨value, next, rfl, (run_bind ran rest).symm.trans succeeds⟩
  | error fault =>
      rw [run_bind_error ran] at succeeds
      cases succeeds

/-- An action that succeeds needs no handler. -/
theorem run_tryCatch (performed : action.run.run state = (.ok value, next))
    (handler : Fault → ExceptT Fault (StateM State) Value) :
    (tryCatch action handler).run.run state = (.ok value, next) := by
  have answered : StateT.run (m := Id) action state = (.ok value, next) := performed
  simp only [tryCatch, tryCatchThe, MonadExceptOf.tryCatch, ExceptT.tryCatch, ExceptT.run_mk,
    StateT.run_bind, answered]
  rfl

/-- The handler goes on from where the action failed. -/
theorem run_tryCatch_error (failed : action.run.run state = (.error fault, next))
    (handler : Fault → ExceptT Fault (StateM State) Value) :
    (tryCatch action handler).run.run state = (handler fault).run.run next := by
  have answered : StateT.run (m := Id) action state = (.error fault, next) := failed
  simp only [tryCatch, tryCatchThe, MonadExceptOf.tryCatch, ExceptT.tryCatch, ExceptT.run_mk,
    StateT.run_bind, answered]
  rfl

end Action

/-- Whether or not the action fails, the state it leaves is related to the state it
found. -/
def Leads {State Value : Type} (relation : State → State → Prop)
    (action : ExceptT Fault (StateM State) Value) : Prop :=
  ∀ state, relation state (action.run.run state).2

namespace Leads

variable {State Value Other : Type} {relation : State → State → Prop}
  {action : ExceptT Fault (StateM State) Value}

theorem modifyGet {change : State → Value × State}
    (moves : ∀ state, relation state (change state).2) :
    Leads relation (modifyGet change : ExceptT Fault (StateM State) Value) :=
  moves

theorem modify {change : State → State} (moves : ∀ state, relation state (change state)) :
    Leads relation (modify change : ExceptT Fault (StateM State) Unit) :=
  moves

/-- What follows a look at the state begins in that state. -/
theorem get_bind {rest : State → ExceptT Fault (StateM State) Value}
    (moves : ∀ state, relation state ((rest state).run.run state).2) :
    Leads relation (get >>= rest) :=
  moves

variable [preorder : IsPreorder State relation]

/-- An outcome that is already there. -/
theorem outcome (outcome : Except Fault Value) :
    Leads relation (ExceptT.mk (pure outcome) : ExceptT Fault (StateM State) Value) :=
  fun state => preorder.refl state

theorem pure (value : Value) :
    Leads relation (pure value : ExceptT Fault (StateM State) Value) :=
  fun state => preorder.refl state

theorem get : Leads relation (get : ExceptT Fault (StateM State) State) :=
  fun state => preorder.refl state

theorem bind {next : Value → ExceptT Fault (StateM State) Other}
    (first : Leads relation action) (rest : ∀ value, Leads relation (next value)) :
    Leads relation (action >>= next) := by
  intro state
  have reached := first state
  rcases ran : action.run.run state with ⟨outcome, middle⟩
  rw [ran] at reached
  cases outcome with
  | ok value =>
      rw [Action.run_bind ran]
      exact preorder.trans _ _ _ reached (rest value middle)
  | error fault =>
      rw [Action.run_bind_error ran]
      exact reached

/-- What follows a change of the state begins in the changed state. -/
theorem set_bind {state changed : State} {rest : Unit → ExceptT Fault (StateM State) Value}
    (moves : relation state changed) (leads : Leads relation (rest ())) :
    relation state ((set changed >>= rest).run.run state).2 :=
  preorder.trans _ _ _ moves (leads changed)

theorem tryCatch {handler : Fault → ExceptT Fault (StateM State) Value}
    (first : Leads relation action) (handles : ∀ fault, Leads relation (handler fault)) :
    Leads relation (tryCatch action handler) := by
  intro state
  have reached := first state
  rcases ran : action.run.run state with ⟨outcome, middle⟩
  rw [ran] at reached
  cases outcome with
  | ok value =>
      rw [Action.run_tryCatch ran]
      exact reached
  | error fault =>
      rw [Action.run_tryCatch_error ran]
      exact preorder.trans _ _ _ reached (handles fault middle)

theorem forM {Item : Type} {each : Item → ExceptT Fault (StateM State) Unit}
    (leads : ∀ item, Leads relation (each item)) (items : List Item) :
    Leads relation (items.forM each) := by
  induction items with
  | nil => exact .pure ()
  | cons item rest ih => exact (leads item).bind fun _ => ih

theorem mapM {Item : Type} {each : Item → ExceptT Fault (StateM State) Value}
    (leads : ∀ item, Leads relation (each item)) (items : List Item) :
    Leads relation (items.mapM each) := by
  induction items with
  | nil => exact .pure []
  | cons item rest ih =>
      rw [List.mapM_cons]
      exact (leads item).bind fun _ => ih.bind fun _ => .pure _

end Leads

end LedgerNode
