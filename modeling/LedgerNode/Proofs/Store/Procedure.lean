import LedgerNode.Ledger.Action

namespace LedgerNode

/-!
# Reasoning about procedures that share a store

Between two reads or writes of a procedure, other procedures may act on the
same store.  What they can do is described by terms: a world says what the
contents show, the others lead from world to world by the rely relation, and
every write of the procedure leads from world to world by its guarantee.  A
procedure that meets its terms reaches its goal whenever the others keep to
their side.

A procedure that runs alone is the case in which nobody else acts.  So a law
proved once for all interleavings also says what a single call does.
-/

theorem Edit.applyAll_append (contents : Contents) (first second : List Edit) :
    Edit.applyAll contents (first ++ second) =
      Edit.applyAll (Edit.applyAll contents first) second :=
  List.foldl_append

namespace Edit

/-- Two edits whose order does not matter. -/
def Commutes (first second : Edit) : Prop :=
  ∀ contents, apply (apply contents first) second = apply (apply contents second) first

theorem applyAll_cons_comm {edit : Edit} {edits : List Edit}
    (commute : ∀ other ∈ edits, edit.Commutes other) (contents : Contents) :
    applyAll (apply contents edit) edits = apply (applyAll contents edits) edit := by
  induction edits generalizing contents with
  | nil => rfl
  | cons other rest ih =>
      rcases List.forall_mem_cons.mp commute with ⟨head, tail⟩
      change applyAll (apply (apply contents edit) other) rest = _
      rw [head contents]
      exact ih tail _

/-- Edits that commute with those behind them may be made after them. -/
theorem applyAll_append_comm {first second : List Edit}
    (commute : ∀ one ∈ first, ∀ other ∈ second, one.Commutes other) (contents : Contents) :
    applyAll contents (first ++ second) = applyAll contents (second ++ first) := by
  induction first generalizing contents with
  | nil => rw [List.nil_append, List.append_nil]
  | cons edit rest ih =>
      rcases List.forall_mem_cons.mp commute with ⟨head, tail⟩
      change applyAll (apply contents edit) (rest ++ second) = _
      rw [ih tail, applyAll_append, applyAll_append, applyAll_cons_comm head]
      rfl

end Edit

namespace Engine

variable {engine : Engine}

theorem view_of_open (isOpen : engine.isOpen = true) :
    engine.view = some engine.contents :=
  if_pos isOpen

theorem write_of_open (isOpen : engine.isOpen = true) (edits : List Edit) :
    engine.write edits =
      ({ engine with contents := Edit.applyAll engine.contents edits }, true) :=
  if_pos isOpen

/-- The engine after edits. -/
def edited (engine : Engine) (edits : List Edit) : Engine :=
  { engine with contents := Edit.applyAll engine.contents edits }

@[simp]
theorem edited_edited (engine : Engine) (first second : List Edit) :
    (engine.edited first).edited second = engine.edited (first ++ second) := by
  rw [edited, edited, edited, Edit.applyAll_append]

theorem isOpen_edited (isOpen : engine.isOpen = true) (edits : List Edit) :
    (engine.edited edits).isOpen = true := isOpen

theorem write_of_closed (closed : engine.isOpen = false) (edits : List Edit) :
    engine.write edits = (engine, false) := by
  rw [write, closed]
  rfl

end Engine

/-- What procedures that share a store expect of each other and grant each
other. -/
structure Terms (World : Type) where
  /-- The contents that a world allows. -/
  shows : World → Contents → Prop
  /-- Where the others may lead. -/
  rely : World → World → Prop
  /-- Where a write of the procedure leads. -/
  guarantee : List Edit → World → World → Prop

namespace Procedure

variable {World : Type} {terms : Terms World}

/-- From a world, the procedure keeps to its terms with every write and ends
in a value and a world that satisfy the goal. -/
def Meets (terms : Terms World) (goal : Value → World → Prop) :
    Procedure Value → World → Prop
  | done value, world => goal value world
  | read next, world =>
    ∀ later contents, terms.rely world later → terms.shows later contents →
      Meets terms goal (next (some contents)) later
  | write edits next, world =>
    ∀ later, terms.rely world later → ∃ after, terms.guarantee edits later after ∧
      (∀ contents, terms.shows later contents →
        terms.shows after (Edit.applyAll contents edits)) ∧
      Meets terms goal (next true) after

theorem Meets.imp {goal weaker : Value → World → Prop} {procedure : Procedure Value}
    {world : World} (meets : procedure.Meets terms goal world)
    (implies : ∀ value after, goal value after → weaker value after) :
    procedure.Meets terms weaker world := by
  induction procedure generalizing world with
  | done value => exact implies value world meets
  | read next ih =>
      intro later contents moved shown
      exact ih (some contents) (meets later contents moved shown)
  | write edits next ih =>
      intro later moved
      rcases meets later moved with ⟨after, granted, shown, rest⟩
      exact ⟨after, granted, shown, ih true rest⟩

/-- A procedure and its continuation meet the goal of the continuation. -/
theorem Meets.bind {goal : β → World → Prop} {procedure : Procedure α}
    {next : α → Procedure β} {world : World}
    (meets : procedure.Meets terms (fun value => (next value).Meets terms goal) world) :
    (procedure.bind next).Meets terms goal world := by
  induction procedure generalizing world with
  | done value => exact meets
  | read rest ih =>
      intro later contents moved shown
      exact ih (some contents) (meets later contents moved shown)
  | write edits rest ih =>
      intro later moved
      rcases meets later moved with ⟨after, granted, shown, tail⟩
      exact ⟨after, granted, shown, ih true tail⟩

/-- What is true of a procedure stays true when the others act before its next
step. -/
theorem Meets.later {goal : Value → World → Prop} {procedure : Procedure Value}
    {world later : World} (meets : procedure.Meets terms goal world)
    (moved : terms.rely world later)
    (transitive : ∀ {first second third}, terms.rely first second →
      terms.rely second third → terms.rely first third)
    (stable : ∀ value {before after}, terms.rely before after → goal value before →
      goal value after) :
    procedure.Meets terms goal later := by
  cases procedure with
  | done value => exact stable value moved meets
  | read next =>
      intro last contents further shown
      exact meets last contents (transitive moved further) shown
  | write edits next =>
      intro last further
      exact meets last (transitive moved further)

/-- The writes that the store takes from a procedure that runs alone. -/
def log (engine : Engine) : Procedure Value → List (List Edit)
  | done _ => []
  | read next => (next engine.view).log engine
  | write edits next =>
    let (engine, taken) := engine.write edits
    (if taken then [edits] else []) ++ (next taken).log engine

theorem run_eq_log {engine : Engine} (isOpen : engine.isOpen = true)
    (procedure : Procedure Value) : (procedure.run engine).2 =
      { engine with contents := Edit.applyAll engine.contents (procedure.log engine).flatten } := by
  induction procedure generalizing engine with
  | done value => rfl
  | read next ih => exact ih engine.view isOpen
  | write edits next ih =>
      rw [Procedure.run, log, Engine.write_of_open isOpen]
      dsimp only
      rw [if_pos rfl, List.flatten_append, List.flatten_singleton, Edit.applyAll_append]
      exact ih true isOpen

/-- Writes that lead from one world to another, each granted by the terms. -/
def Granted (terms : Terms World) : List (List Edit) → World → World → Prop
  | [], before, after => after = before
  | edits :: rest, before, after =>
    ∃ middle, terms.guarantee edits before middle ∧ Granted terms rest middle after

/-- A procedure that runs alone on an open store reaches its goal by the writes
that the store took. -/
theorem Meets.run_log {goal : Value → World → Prop} {procedure : Procedure Value}
    {world : World} {engine : Engine} (meets : procedure.Meets terms goal world)
    (reflexive : ∀ world, terms.rely world world) (isOpen : engine.isOpen = true)
    (shown : terms.shows world engine.contents) :
    ∃ after, Granted terms (procedure.log engine) world after ∧
      terms.shows after (procedure.run engine).2.contents ∧
      goal (procedure.run engine).1 after := by
  induction procedure generalizing world engine with
  | done value => exact ⟨world, rfl, shown, meets⟩
  | read next ih =>
      rw [Procedure.run, Procedure.log, Engine.view_of_open isOpen]
      exact ih _ (meets world _ (reflexive world) shown) isOpen shown
  | write edits next ih =>
      rcases meets world (reflexive world) with ⟨middle, granted, keeps, rest⟩
      rw [Procedure.run, Procedure.log, Engine.write_of_open isOpen]
      dsimp only
      have still : (engine.edited edits).isOpen = true := isOpen
      rcases ih true rest still (keeps _ shown) with ⟨after, others, shows, reached⟩
      exact ⟨after, ⟨middle, granted, others⟩, shows, reached⟩

/-- Any fact that every granted write keeps is kept by all of them. -/
theorem Granted.keeps {log : List (List Edit)} {before after : World} {contents : Contents}
    (granted : Granted terms log before after) (fact : World → Contents → Prop)
    (kept : ∀ {edits before after contents}, terms.guarantee edits before after →
      fact before contents → fact after (Edit.applyAll contents edits))
    (holds : fact before contents) : fact after (Edit.applyAll contents log.flatten) := by
  induction log generalizing before contents with
  | nil =>
      cases granted
      exact holds
  | cons edits rest ih =>
      rcases granted with ⟨middle, first, others⟩
      rw [List.flatten_cons, Edit.applyAll_append]
      exact ih others (kept first holds)

/-- A procedure that runs alone on an open store reaches its goal.  Any fact
that every granted write keeps holds at the end, too. -/
theorem Meets.run {goal : Value → World → Prop} {procedure : Procedure Value} {world : World}
    {engine : Engine} (meets : procedure.Meets terms goal world)
    (reflexive : ∀ world, terms.rely world world) (isOpen : engine.isOpen = true)
    (shown : terms.shows world engine.contents) (fact : World → Contents → Prop)
    (kept : ∀ {edits before after contents}, terms.guarantee edits before after →
      fact before contents → fact after (Edit.applyAll contents edits))
    (holds : fact world engine.contents) :
    ∃ contents after, (procedure.run engine).2 = { engine with contents } ∧
      terms.shows after contents ∧ goal (procedure.run engine).1 after ∧
      fact after contents := by
  have edited := run_eq_log isOpen procedure
  rcases meets.run_log reflexive isOpen shown with ⟨after, granted, shows, reached⟩
  rw [edited] at shows
  exact ⟨_, after, edited, shows, reached, granted.keeps fact kept holds⟩

/-- Whichever of its writes are the last that survive, some world shows the
contents. -/
theorem Meets.log {goal : Value → World → Prop} {procedure : Procedure Value} {world : World}
    {engine : Engine} (meets : procedure.Meets terms goal world)
    (reflexive : ∀ world, terms.rely world world) (isOpen : engine.isOpen = true)
    (shown : terms.shows world engine.contents) (count : Nat) :
    ∃ later, terms.shows later
      (Edit.applyAll engine.contents ((procedure.log engine).take count).flatten) := by
  induction procedure generalizing world engine count with
  | done value =>
      rw [Procedure.log, List.take_nil]
      exact ⟨world, shown⟩
  | read next ih =>
      rw [Procedure.log, Engine.view_of_open isOpen]
      exact ih _ (meets world _ (reflexive world) shown) isOpen shown count
  | write edits next ih =>
      rcases meets world (reflexive world) with ⟨after, _, keeps, rest⟩
      rw [Procedure.log, Engine.write_of_open isOpen]
      dsimp only
      rw [if_pos rfl, List.singleton_append]
      cases count with
      | zero => exact ⟨world, shown⟩
      | succ count =>
          have still : ({ engine with contents := Edit.applyAll engine.contents edits } :
              Engine).isOpen = true := isOpen
          rw [List.take_succ_cons, List.flatten_cons, Edit.applyAll_append]
          exact ih true rest still (keeps _ shown) count

theorem run_bind (engine : Engine) (first : Procedure α) (next : α → Procedure β) :
    (first.bind next).run engine =
      (next (first.run engine).1).run (first.run engine).2 := by
  induction first generalizing engine with
  | done value => rfl
  | read rest ih => exact ih engine.view engine
  | write edits rest ih => exact ih (engine.write edits).2 (engine.write edits).1

theorem log_bind (engine : Engine) (first : Procedure α) (next : α → Procedure β) :
    (first.bind next).log engine =
      first.log engine ++ (next (first.run engine).1).log (first.run engine).2 := by
  induction first generalizing engine with
  | done value => rfl
  | read rest ih => exact ih engine.view engine
  | write edits rest ih =>
      rw [Procedure.bind, log, log, run]
      rcases engine.write edits with ⟨after, taken⟩
      dsimp only
      rw [ih, List.append_assoc]

theorem bind_done (procedure : Procedure Value) : procedure.bind done = procedure := by
  induction procedure with
  | done value => rfl
  | read next ih => exact congrArg read (funext ih)
  | write edits next ih => exact congrArg (write edits) (funext ih)

theorem bind_assoc (first : Procedure α) (second : α → Procedure β) (third : β → Procedure γ) :
    (first.bind second).bind third = first.bind fun value => (second value).bind third := by
  induction first with
  | done value => rfl
  | read next ih => exact congrArg read (funext ih)
  | write edits next ih => exact congrArg (write edits) (funext ih)

instance : LawfulMonad Procedure := .mk' Procedure bind_done (fun _ _ => rfl) bind_assoc

/-- Whatever it sees, the procedure writes nothing. -/
def ReadOnly : Procedure Value → Prop
  | done _ => True
  | read next => ∀ seen, ReadOnly (next seen)
  | write _ _ => False

theorem ReadOnly.bind {procedure : Procedure α} {next : α → Procedure β}
    (first : procedure.ReadOnly) (rest : ∀ value, (next value).ReadOnly) :
    (procedure.bind next).ReadOnly := by
  induction procedure with
  | done value => exact rest value
  | read others ih => exact fun seen => ih seen (first seen)
  | write => exact first.elim

theorem ReadOnly.log {procedure : Procedure Value} (readOnly : procedure.ReadOnly)
    (engine : Engine) : procedure.log engine = [] := by
  induction procedure with
  | done value => rfl
  | read next ih => exact ih engine.view (readOnly engine.view)
  | write => exact readOnly.elim

theorem ReadOnly.run {procedure : Procedure Value} (readOnly : procedure.ReadOnly)
    (engine : Engine) : (procedure.run engine).2 = engine := by
  induction procedure with
  | done value => rfl
  | read next ih => exact ih engine.view (readOnly engine.view)
  | write => exact readOnly.elim

/-- A closed store is left as it is. -/
theorem run_of_closed {engine : Engine} (closed : engine.isOpen = false)
    (procedure : Procedure Value) : (procedure.run engine).2 = engine := by
  induction procedure with
  | done value => rfl
  | read next ih => exact ih engine.view
  | write edits next ih =>
      rw [Procedure.run, Engine.write_of_closed closed]
      exact ih false

end Procedure

/-! ## Procedures that may fail -/

namespace StoreAction

variable {World : Type} {terms : Terms World}

/-- The action meets its terms; the goal speaks of its value or its fault. -/
def Meets (terms : Terms World) (goal : Except Fault Value → World → Prop)
    (action : StoreAction Value) (world : World) : Prop :=
  (ExceptT.run action).Meets terms goal world

/-- The goal of an action that does not fail. -/
def Returns (post : Value → World → Prop) : Except Fault Value → World → Prop
  | .ok value, world => post value world
  | .error _, _ => False

theorem Meets.imp {goal weaker : Except Fault Value → World → Prop}
    {action : StoreAction Value} {world : World} (meets : action.Meets terms goal world)
    (implies : ∀ outcome after, goal outcome after → weaker outcome after) :
    action.Meets terms weaker world :=
  Procedure.Meets.imp meets implies

theorem Meets.weaken {post weaker : Value → World → Prop} {action : StoreAction Value}
    {world : World} (meets : action.Meets terms (Returns post) world)
    (implies : ∀ value after, post value after → weaker value after) :
    action.Meets terms (Returns weaker) world := by
  apply meets.imp
  intro outcome after reached
  cases outcome with
  | ok value => exact implies value after reached
  | error fault => exact reached

theorem Meets.bind {goal : Except Fault β → World → Prop} {action : StoreAction α}
    {next : α → StoreAction β} {world : World}
    (meets : action.Meets terms (fun outcome after =>
      match outcome with
      | .ok value => (next value).Meets terms goal after
      | .error fault => goal (.error fault) after) world) :
    (action >>= next).Meets terms goal world := by
  apply Procedure.Meets.bind
  apply Procedure.Meets.imp meets
  intro outcome after holds
  cases outcome with
  | ok value => exact holds
  | error fault => exact holds

/-- What follows an action that does not fail goes on from its value. -/
theorem Meets.bind_returns {post : α → World → Prop} {goal : Except Fault β → World → Prop}
    {action : StoreAction α} {next : α → StoreAction β} {world : World}
    (meets : action.Meets terms (Returns post) world)
    (continues : ∀ value after, post value after → (next value).Meets terms goal after) :
    (action >>= next).Meets terms goal world := by
  apply Meets.bind
  apply meets.imp
  intro outcome after reached
  cases outcome with
  | ok value => exact continues value after reached
  | error fault => exact reached.elim

/-- An action that reads the contents once and answers from them. -/
def reading (answer : Contents → Except Fault Value) : StoreAction Value :=
  contents >>= fun contents => ofExcept (answer contents)

theorem run_reading {engine : Engine} (isOpen : engine.isOpen = true)
    (answer : Contents → Except Fault Value) :
    (reading answer).run engine = (answer engine.contents, engine) := by
  change Procedure.run engine (.read _) = _
  rw [Procedure.run, Engine.view_of_open isOpen]
  rfl

theorem meets_reading {goal : Except Fault Value → World → Prop}
    {answer : Contents → Except Fault Value} {world : World}
    (holds : ∀ later contents, terms.rely world later → terms.shows later contents →
      goal (answer contents) later) :
    (reading answer).Meets terms goal world :=
  holds

/-- An action that begins by reading the contents goes on from what it read. -/
theorem meets_reading_bind {goal : Except Fault β → World → Prop}
    {answer : Contents → Except Fault α} {next : α → StoreAction β} {world : World}
    (holds : ∀ later contents, terms.rely world later → terms.shows later contents →
      match answer contents with
      | .ok value => (next value).Meets terms goal later
      | .error fault => goal (.error fault) later) :
    (reading answer >>= next).Meets terms goal world :=
  Meets.bind (meets_reading holds)

theorem meets_write_bind {goal : Except Fault β → World → Prop} {edits : List Edit}
    {next : Unit → StoreAction β} {world : World}
    (holds : ∀ later, terms.rely world later → ∃ after, terms.guarantee edits later after ∧
      (∀ contents, terms.shows later contents →
        terms.shows after (Edit.applyAll contents edits)) ∧
      (next ()).Meets terms goal after) :
    (write edits >>= next).Meets terms goal world :=
  holds

theorem meets_write {goal : Except Fault Unit → World → Prop} {edits : List Edit}
    {world : World}
    (holds : ∀ later, terms.rely world later → ∃ after, terms.guarantee edits later after ∧
      (∀ contents, terms.shows later contents →
        terms.shows after (Edit.applyAll contents edits)) ∧
      goal (.ok ()) after) :
    (write edits).Meets terms goal world :=
  holds

end StoreAction

/-! ## Actions that only read -/

namespace StoreAction

/-- Whatever it sees, the action writes nothing. -/
def ReadOnly (action : StoreAction Value) : Prop := (ExceptT.run action).ReadOnly

/-- The writes that the store takes from an action that runs alone. -/
def log (action : StoreAction Value) (engine : Engine) : List (List Edit) :=
  (ExceptT.run action).log engine

theorem readOnly_reading (answer : Contents → Except Fault Value) :
    (reading answer).ReadOnly := by
  intro seen
  cases seen with
  | none => trivial
  | some contents => trivial

theorem readOnly_ofExcept (outcome : Except Fault Value) : (ofExcept outcome).ReadOnly := trivial

/-- An open store has the writes of an action that ran alone. -/
theorem run_eq_edited {engine : Engine} (isOpen : engine.isOpen = true)
    (action : StoreAction Value) :
    (action.run engine).2 = engine.edited (action.log engine).flatten :=
  Procedure.run_eq_log isOpen (ExceptT.run action)

/-- A write that an open store takes is the first of the writes. -/
theorem write_bind_of_open {engine : Engine} (isOpen : engine.isOpen = true)
    (edits : List Edit) (next : Unit → StoreAction Value) :
    (write edits >>= next).run engine =
        (next ()).run { engine with contents := Edit.applyAll engine.contents edits } ∧
      (write edits >>= next).log engine =
        edits :: (next ()).log
          { engine with contents := Edit.applyAll engine.contents edits } := by
  constructor
  · change Procedure.run engine (.write edits _) = _
    rw [Procedure.run, Engine.write_of_open isOpen]
    rfl
  · change Procedure.log engine (.write edits _) = _
    rw [Procedure.log, Engine.write_of_open isOpen]
    rfl

theorem run_reading_of_closed {engine : Engine} (closed : engine.isOpen = false)
    (answer : Contents → Except Fault Value) :
    (reading answer).run engine = (.error .storeClosed, engine) := by
  have nothing : engine.view = none := if_neg (Bool.eq_false_iff.mp closed)
  change Procedure.run engine (.read _) = _
  rw [Procedure.run, nothing]
  rfl

/-- A value that is only renamed does not change what the action does. -/
theorem run_bind_return (action : StoreAction α) (rename : α → β) (engine : Engine) :
    (action >>= fun value => pure (rename value)).run engine =
      ((action.run engine).1.map rename, (action.run engine).2) := by
  have steps : ExceptT.run (action >>= fun value => pure (rename value)) =
      Procedure.bind (ExceptT.run action) fun outcome => .done (outcome.map rename) := by
    apply congrArg (Procedure.bind _)
    funext outcome
    cases outcome with
    | ok value => rfl
    | error fault => rfl
  rw [run, steps, Procedure.run_bind]
  rfl

namespace ReadOnly

variable {action : StoreAction α} {next : α → StoreAction β}

theorem bind (readOnly : action.ReadOnly) (rest : ∀ value, (next value).ReadOnly) :
    (action >>= next).ReadOnly := by
  apply Procedure.ReadOnly.bind readOnly
  intro outcome
  cases outcome with
  | ok value => exact rest value
  | error fault => trivial

/-- What follows a read goes on from what was read in the same store. -/
theorem bind_of_ok {engine : Engine} {value : α} (readOnly : action.ReadOnly)
    (found : (action.run engine).1 = .ok value) (next : α → StoreAction β) :
    (action >>= next).run engine = (next value).run engine ∧
      (action >>= next).log engine = (next value).log engine := by
  have answer : (Procedure.run engine (ExceptT.run action)).1 = .ok value := found
  have stays := Procedure.ReadOnly.run readOnly engine
  constructor
  · refine (Procedure.run_bind engine (ExceptT.run action) _).trans ?_
    rw [answer, stays]
    rfl
  · refine (Procedure.log_bind engine (ExceptT.run action) _).trans ?_
    rw [Procedure.ReadOnly.log readOnly, answer, stays]
    rfl

/-- A read that fails is the end. -/
theorem bind_of_error {engine : Engine} {fault : Fault} (readOnly : action.ReadOnly)
    (found : (action.run engine).1 = .error fault) (next : α → StoreAction β) :
    (action >>= next).run engine = (.error fault, engine) ∧
      (action >>= next).log engine = [] := by
  have answer : (Procedure.run engine (ExceptT.run action)).1 = .error fault := found
  have stays := Procedure.ReadOnly.run readOnly engine
  constructor
  · refine (Procedure.run_bind engine (ExceptT.run action) _).trans ?_
    rw [answer, stays]
    rfl
  · refine (Procedure.log_bind engine (ExceptT.run action) _).trans ?_
    rw [Procedure.ReadOnly.log readOnly, answer]
    rfl

/-- If reading and what follows it succeed, then each of them does. -/
theorem of_bind {engine : Engine} {value : β} (readOnly : action.ReadOnly)
    (found : ((action >>= next).run engine).1 = .ok value) :
    ∃ middle, (action.run engine).1 = .ok middle ∧
      ((next middle).run engine).1 = .ok value := by
  cases first : (action.run engine).1 with
  | error fault =>
      rw [(readOnly.bind_of_error first next).1] at found
      cases found
  | ok middle =>
      rw [(readOnly.bind_of_ok first next).1] at found
      exact ⟨middle, rfl, found⟩

/-- Where a read answers alike and what follows it answers alike, both together
do. -/
theorem bind_congr {first second : Engine} (readOnly : action.ReadOnly)
    (alike : (action.run first).1 = (action.run second).1)
    (rest : ∀ value, ((next value).run first).1 = ((next value).run second).1) :
    ((action >>= next).run first).1 = ((action >>= next).run second).1 := by
  cases found : (action.run first).1 with
  | error fault =>
      rw [(readOnly.bind_of_error found next).1,
        (readOnly.bind_of_error (alike ▸ found) next).1]
  | ok value =>
      rw [(readOnly.bind_of_ok found next).1, (readOnly.bind_of_ok (alike ▸ found) next).1]
      exact rest value

end ReadOnly

end StoreAction

/-! ## Running alone -/

/-- The terms of a procedure that runs alone.  It knows the contents, and they
change only as its own writes say. -/
def alone : Terms Contents where
  shows known contents := contents = known
  rely before later := later = before
  guarantee edits before after := after = Edit.applyAll before edits

theorem Procedure.run_alone {goal : Value → Contents → Prop} {procedure : Procedure Value}
    {engine : Engine} (meets : procedure.Meets alone goal engine.contents)
    (isOpen : engine.isOpen = true) :
    ∃ after, (procedure.run engine).2 = { engine with contents := after } ∧
      goal (procedure.run engine).1 after := by
  rcases meets.run (fun _ => rfl) isOpen rfl (fun _ _ => True) (fun _ _ => trivial) trivial with
    ⟨contents, after, ran, same, reached, _⟩
  have here : contents = after := same
  subst here
  exact ⟨contents, ran, reached⟩

namespace StoreAction

theorem alone_reading_bind {goal : Except Fault β → Contents → Prop}
    {answer : Contents → Except Fault α} {next : α → StoreAction β} {contents : Contents}
    (holds : match answer contents with
      | .ok value => (next value).Meets alone goal contents
      | .error fault => goal (.error fault) contents) :
    (reading answer >>= next).Meets alone goal contents := by
  apply meets_reading_bind
  rintro _ _ rfl rfl
  exact holds

theorem alone_write_bind {goal : Except Fault β → Contents → Prop} {edits : List Edit}
    {next : Unit → StoreAction β} {contents : Contents}
    (holds : (next ()).Meets alone goal (Edit.applyAll contents edits)) :
    (write edits >>= next).Meets alone goal contents := by
  apply meets_write_bind
  rintro _ rfl
  refine ⟨_, rfl, ?_, holds⟩
  rintro _ rfl
  rfl

end StoreAction

/-! ## Actions that succeed -/

namespace StoreAction

/-- The action succeeds with this value and makes these edits. -/
def Does (action : StoreAction Value) (engine : Engine) (value : Value) (edits : List Edit) :
    Prop :=
  action.run engine = (.ok value, engine.edited edits)

variable {engine : Engine}

theorem does_pure (engine : Engine) (value : Value) : (pure value : StoreAction Value).Does
    engine value [] := rfl

theorem does_write (isOpen : engine.isOpen = true) (edits : List Edit) :
    (write edits).Does engine () edits := by
  change Procedure.run engine (.write edits _) = _
  rw [Procedure.run, Engine.write_of_open isOpen]
  rfl

theorem does_reading (isOpen : engine.isOpen = true) {answer : Contents → Except Fault Value}
    {value : Value} (found : answer engine.contents = .ok value) :
    (reading answer).Does engine value [] := by
  rw [Does, run_reading isOpen, found]
  rfl

theorem Does.bind {action : StoreAction α} {next : α → StoreAction β} {value : α} {result : β}
    {edits more : List Edit} (first : action.Does engine value edits)
    (rest : (next value).Does (engine.edited edits) result more) :
    (action >>= next).Does engine result (edits ++ more) := by
  have answer : Procedure.run engine (ExceptT.run action) = (.ok value, engine.edited edits) :=
    first
  rw [Does, Engine.edited_edited] at rest
  refine (Procedure.run_bind engine (ExceptT.run action) _).trans ?_
  rw [answer]
  exact rest

/-- What follows an action without edits makes all the edits. -/
theorem Does.bind_after {action : StoreAction α} {next : α → StoreAction β} {value : α}
    {result : β} {edits : List Edit} (first : action.Does engine value [])
    (rest : (next value).Does engine result edits) : (action >>= next).Does engine result edits :=
  first.bind rest

/-- A value that is only renamed does not change what the action does. -/
theorem Does.bind_pure {action : StoreAction α} {value : α} {edits : List Edit}
    (first : action.Does engine value edits) (rename : α → β) :
    (action >>= fun value => pure (rename value)).Does engine (rename value) edits := by
  have all : (action >>= fun value => pure (rename value)).Does engine (rename value)
      (edits ++ []) := first.bind (does_pure _ (rename value))
  rwa [List.append_nil] at all

end StoreAction

/-! ## Procedures that keep blocks waiting -/

namespace LedgerAction

variable {World : Type} {terms : Terms World}

/-- The writes that the store takes from an action that runs alone. -/
def log (action : LedgerAction Value) (waiting : WaitingBlocks) (engine : Engine) :
    List (List Edit) :=
  (ExceptT.run action waiting).log engine

/-- The action meets its terms; the goal also speaks of the waiting blocks. -/
def Meets (terms : Terms World)
    (goal : Except Fault Value → WaitingBlocks → World → Prop) (action : LedgerAction Value)
    (waiting : WaitingBlocks) (world : World) : Prop :=
  (ExceptT.run action waiting).Meets terms (fun outcome => goal outcome.1 outcome.2) world

/-- The goal of an action that does not fail. -/
def Returns (post : Value → WaitingBlocks → World → Prop) :
    Except Fault Value → WaitingBlocks → World → Prop
  | .ok value, waiting, world => post value waiting world
  | .error _, _, _ => False

theorem Meets.imp {goal weaker : Except Fault Value → WaitingBlocks → World → Prop}
    {action : LedgerAction Value} {waiting : WaitingBlocks} {world : World}
    (meets : action.Meets terms goal waiting world)
    (implies : ∀ outcome kept after, goal outcome kept after → weaker outcome kept after) :
    action.Meets terms weaker waiting world :=
  Procedure.Meets.imp meets fun outcome after => implies outcome.1 outcome.2 after

theorem Meets.weaken {post weaker : Value → WaitingBlocks → World → Prop}
    {action : LedgerAction Value} {waiting : WaitingBlocks} {world : World}
    (meets : action.Meets terms (Returns post) waiting world)
    (implies : ∀ value kept after, post value kept after → weaker value kept after) :
    action.Meets terms (Returns weaker) waiting world := by
  apply meets.imp
  intro outcome kept after reached
  cases outcome with
  | ok value => exact implies value kept after reached
  | error fault => exact reached

/-- An action that runs alone on an open store reaches its goal by the writes
that the store took. -/
theorem Meets.run_log {goal : Except Fault Value → WaitingBlocks → World → Prop}
    {action : LedgerAction Value} {waiting : WaitingBlocks} {world : World} {engine : Engine}
    (meets : action.Meets terms goal waiting world)
    (reflexive : ∀ world, terms.rely world world) (isOpen : engine.isOpen = true)
    (shown : terms.shows world engine.contents) :
    ∃ outcome kept after, action.run waiting engine =
        (outcome, kept, engine.edited (action.log waiting engine).flatten) ∧
      Procedure.Granted terms (action.log waiting engine) world after ∧
      terms.shows after (engine.edited (action.log waiting engine).flatten).contents ∧
      goal outcome kept after := by
  rcases Procedure.Meets.run_log meets reflexive isOpen shown with
    ⟨after, granted, shows, reached⟩
  have edited : (Procedure.run engine (ExceptT.run action waiting)).2 =
      engine.edited (action.log waiting engine).flatten :=
    Procedure.run_eq_log isOpen (ExceptT.run action waiting)
  rw [edited] at shows
  refine ⟨_, _, after, ?_, granted, shows, reached⟩
  rw [← edited]
  rfl

theorem Meets.bind {goal : Except Fault β → WaitingBlocks → World → Prop}
    {action : LedgerAction α} {next : α → LedgerAction β} {waiting : WaitingBlocks}
    {world : World}
    (meets : action.Meets terms (fun outcome kept after =>
      match outcome with
      | .ok value => (next value).Meets terms goal kept after
      | .error fault => goal (.error fault) kept after) waiting world) :
    (action >>= next).Meets terms goal waiting world := by
  apply Procedure.Meets.bind
  apply Procedure.Meets.imp meets
  rintro ⟨outcome, kept⟩ after holds
  cases outcome with
  | ok value => exact holds
  | error fault => exact holds

/-- What follows an action that does not fail goes on from its value. -/
theorem Meets.bind_returns {post : α → WaitingBlocks → World → Prop}
    {goal : Except Fault β → WaitingBlocks → World → Prop} {action : LedgerAction α}
    {next : α → LedgerAction β} {waiting : WaitingBlocks} {world : World}
    (meets : action.Meets terms (Returns post) waiting world)
    (continues : ∀ value kept after, post value kept after →
      (next value).Meets terms goal kept after) :
    (action >>= next).Meets terms goal waiting world := by
  apply Meets.bind
  apply meets.imp
  intro outcome kept after reached
  cases outcome with
  | ok value => exact continues value kept after reached
  | error fault => exact reached.elim

theorem meets_ofStore {goal : Except Fault Value → WaitingBlocks → World → Prop}
    {action : StoreAction Value} {waiting : WaitingBlocks} {world : World}
    (meets : action.Meets terms (fun outcome => goal outcome waiting) world) :
    (ofStore action).Meets terms goal waiting world := by
  apply Procedure.Meets.bind
  exact meets

theorem meets_ofStore_bind {goal : Except Fault β → WaitingBlocks → World → Prop}
    {action : StoreAction α} {next : α → LedgerAction β} {waiting : WaitingBlocks}
    {world : World}
    (meets : action.Meets terms (fun outcome after =>
      match outcome with
      | .ok value => (next value).Meets terms goal waiting after
      | .error fault => goal (.error fault) waiting after) world) :
    (ofStore action >>= next).Meets terms goal waiting world :=
  Meets.bind (meets_ofStore meets)

/-- What follows an action of the store that does not fail goes on from its
value with the same waiting blocks. -/
theorem meets_ofStore_bind_returns {post : α → World → Prop}
    {goal : Except Fault β → WaitingBlocks → World → Prop} {action : StoreAction α}
    {next : α → LedgerAction β} {waiting : WaitingBlocks} {world : World}
    (meets : action.Meets terms (StoreAction.Returns post) world)
    (continues : ∀ value after, post value after →
      (next value).Meets terms goal waiting after) :
    (ofStore action >>= next).Meets terms goal waiting world := by
  apply meets_ofStore_bind
  apply meets.imp
  intro outcome after reached
  cases outcome with
  | ok value => exact continues value after reached
  | error fault => exact reached.elim

theorem meets_get_bind {goal : Except Fault β → WaitingBlocks → World → Prop}
    {next : WaitingBlocks → LedgerAction β} {waiting : WaitingBlocks} {world : World}
    (meets : (next waiting).Meets terms goal waiting world) :
    ((get : LedgerAction WaitingBlocks) >>= next).Meets terms goal waiting world :=
  meets

theorem meets_modify_bind {goal : Except Fault β → WaitingBlocks → World → Prop}
    {change : WaitingBlocks → WaitingBlocks} {next : Unit → LedgerAction β}
    {waiting : WaitingBlocks} {world : World}
    (meets : (next ()).Meets terms goal (change waiting) world) :
    ((modify change : LedgerAction Unit) >>= next).Meets terms goal waiting world :=
  meets

theorem meets_modifyGet {goal : Except Fault α → WaitingBlocks → World → Prop}
    {change : WaitingBlocks → α × WaitingBlocks} {waiting : WaitingBlocks} {world : World}
    (holds : goal (.ok (change waiting).1) (change waiting).2 world) :
    (modifyGet change : LedgerAction α).Meets terms goal waiting world :=
  holds

theorem run_ofStore (action : StoreAction Value) (waiting : WaitingBlocks) (engine : Engine) :
    (ofStore action).run waiting engine =
      ((action.run engine).1, waiting, (action.run engine).2) := by
  have steps : Procedure.run engine (ExceptT.run (ofStore action) waiting) =
      Procedure.run (action.run engine).2 (.done ((action.run engine).1, waiting)) :=
    Procedure.run_bind engine (ExceptT.run action) fun outcome => .done (outcome, waiting)
  rw [run, steps]
  rfl

theorem run_bind_return (action : LedgerAction α) (rename : α → β) (waiting : WaitingBlocks)
    (engine : Engine) :
    (action >>= fun value => pure (rename value)).run waiting engine =
      ((action.run waiting engine).1.map rename, (action.run waiting engine).2) := by
  have steps : ExceptT.run (action >>= fun value => pure (rename value)) waiting =
      Procedure.bind (ExceptT.run action waiting) fun reached =>
        .done (reached.1.map rename, reached.2) := by
    apply congrArg (Procedure.bind _)
    funext reached
    rcases reached with ⟨outcome, kept⟩
    cases outcome with
    | ok value => rfl
    | error fault => rfl
  rw [run, run, steps, Procedure.run_bind]
  rfl

theorem run_of_closed {engine : Engine} (closed : engine.isOpen = false)
    (action : LedgerAction Value) (waiting : WaitingBlocks) :
    (action.run waiting engine).2.2 = engine :=
  Procedure.run_of_closed closed (ExceptT.run action waiting)

end LedgerAction

end LedgerNode
