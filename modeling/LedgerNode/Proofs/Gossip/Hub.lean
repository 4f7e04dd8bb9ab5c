import Mathlib.Data.List.Nodup
import LedgerNode.Gossip.Hub
import LedgerNode.Proofs.OrderedMap

namespace LedgerNode

/-!
# What a subscriber of a hub receives

Whoever joins a topic receives what is published there from then on, in its order and
once, and his own messages are among it.  Nothing else has any part in what he receives:
neither what is published elsewhere, nor who comes and goes.

The hub does not know who has gone, so its lists are longer than they need be.  All that
matters is that a list has everybody who is still there, that it has nobody twice, and that
whoever is there is on the list of one topic.  A delivery keeps it so, although it sends to
the members of a list while it strikes off others.
-/

/-- The topic and the id of one who holds a subscription. -/
structure Holder where
  topic : String
  id : String
deriving DecidableEq

def Subscription.holder (subscription : Subscription) : Holder :=
  ⟨subscription.topic, subscription.id⟩

namespace Hub

/-! ## Calls -/

/-- What can be done with a hub and its subscriptions. -/
inductive Call where
  | join (topic id : String)
  | publish (number : Nat) (data : Bytes)
  | next (number : Nat)
  | leave (number : Nat)
deriving DecidableEq

def perform (hub : Hub) : Call → Hub
  | .join topic id => (hub.join topic id).2
  | .publish number data => hub.publish number data
  | .next number => (hub.nextMessage number).2
  | .leave number => (hub.leave number).2

def run (hub : Hub) (calls : List Call) : Hub := calls.foldl perform hub

/-- What is seen of every call, in the state before the call. -/
def gather {State Sight : Type} (step : State → Call → State)
    (see : State → Call → List Sight) : State → List Call → List Sight
  | _, [] => []
  | state, call :: rest => see state call ++ gather step see (step state call) rest

theorem gather_append {State Sight : Type} (step : State → Call → State)
    (see : State → Call → List Sight) (state : State) (front back : List Call) :
    gather step see state (front ++ back) =
      gather step see state front ++ gather step see (front.foldl step state) back := by
  induction front generalizing state with
  | nil => rfl
  | cons call rest ih =>
      rw [List.cons_append, gather, gather, ih, List.append_assoc]
      rfl

/-! ## Who holds which subscription -/

/-- The holders of the subscriptions by their numbers, as far as they have not ended. -/
abbrev Holders := List (Option Holder)

def Holders.holder? (holders : Holders) (number : Nat) : Option Holder := holders[number]?.join

def Holders.after (holders : Holders) : Call → Holders
  | .join topic id => holders ++ [some ⟨topic, id⟩]
  | .publish _ _ => holders
  | .next _ => holders
  | .leave number => holders.set number none

/-- The message that a call publishes on a topic. -/
def Holders.message? (holders : Holders) (topic : String) : Call → Option Message
  | .publish number data =>
    match holders.holder? number with
    | some holder => if holder.topic = topic then some ⟨holder.id, holder.id, data⟩ else none
    | none => none
  | _ => none

/-- The messages that are published on a topic. -/
def published (topic : String) : Holders → List Call → List Message :=
  gather Holders.after fun holders call => (holders.message? topic call).toList

/-- The holders after some calls. -/
def holders (calls : List Call) : Holders := calls.foldl Holders.after []

theorem holder?_join (holders : Holders) (topic id : String) (number : Nat) :
    (holders.after (.join topic id)).holder? number =
      if number = holders.length then some ⟨topic, id⟩ else holders.holder? number := by
  rw [Holders.holder?, Holders.after]
  split
  next last => rw [last, List.getElem?_append_right (Nat.le_refl _), Nat.sub_self]; rfl
  next other =>
      by_cases below : number < holders.length
      · rw [List.getElem?_append_left below, Holders.holder?]
      · have above : holders.length + 1 ≤ number := by omega
        rw [List.getElem?_eq_none (by simpa using above), Holders.holder?,
          List.getElem?_eq_none (by omega)]

theorem holder?_leave (holders : Holders) (gone number : Nat) :
    (holders.after (.leave gone)).holder? number =
      if number = gone then none else holders.holder? number := by
  rw [Holders.holder?, Holders.after, List.getElem?_set]
  by_cases same : number = gone
  · rw [if_pos same.symm, if_pos same]
    split <;> rfl
  · rw [if_neg (Ne.symm same), if_neg same]
    rfl

theorem lt_length_of_holder? {holders : Holders} {number : Nat} {holder : Holder}
    (holds : holders.holder? number = some holder) : number < holders.length := by
  apply Nat.lt_of_not_le
  intro above
  rw [Holders.holder?, List.getElem?_eq_none above] at holds
  cases holds

/-- Whoever does not leave goes on holding what he holds. -/
theorem holder?_after {holders : Holders} {number : Nat} {holder : Holder}
    (holds : holders.holder? number = some holder) {call : Call}
    (stays : call ≠ .leave number) : (holders.after call).holder? number = some holder := by
  cases call with
  | join topic id =>
      rw [holder?_join, if_neg (Nat.ne_of_lt (lt_length_of_holder? holds))]
      exact holds
  | publish publisher data => exact holds
  | next asked => exact holds
  | leave gone =>
      rw [holder?_leave, if_neg fun same => stays (congrArg Call.leave same.symm)]
      exact holds

theorem holder?_foldl_after {holders : Holders} {number : Nat} {holder : Holder}
    (holds : holders.holder? number = some holder) {calls : List Call}
    (stays : .leave number ∉ calls) :
    (calls.foldl Holders.after holders).holder? number = some holder := by
  induction calls generalizing holders with
  | nil => exact holds
  | cons call rest ih =>
      rcases not_or.mp (mt List.mem_cons.mpr stays) with ⟨here, later⟩
      exact ih (holder?_after holds (Ne.symm here)) later

/-! ## Sending to a list -/

/-- The numbers on the list of a topic. -/
def numbers (hub : Hub) (topic : String) : List Nat :=
  (hub.listed topic).map Subscriber.number

section Sending

variable (hub : Hub) (message : Message)

/-- Sending changes nothing but what waits. -/
theorem send_lists (number : Nat) : (hub.send number message).2.next = hub.next ∧
    (hub.send number message).2.subscribers = hub.subscribers := by
  rw [send]
  split <;> exact ⟨rfl, rfl⟩

theorem send_fst (number : Nat) :
    (hub.send number message).1 = hub.subscriptions.contains number := by
  rw [send, OrderedMap.contains]
  split
  next found => rw [found]; rfl
  next missing => rw [missing]; rfl

theorem get?_send (number other : Nat) :
    (hub.send number message).2.subscriptions.get? other =
      if other = number then (hub.subscriptions.get? other).map (Subscription.put message)
      else hub.subscriptions.get? other := by
  rw [send]
  split
  next subscription found =>
      rw [OrderedMap.get?_insert]
      by_cases same : other = number
      · rw [if_pos same, if_pos same, same, found]
        rfl
      · rw [if_neg same, if_neg same]
  next missing =>
      by_cases same : other = number
      · rw [if_pos same, same, missing]
        rfl
      · rw [if_neg same]

/-- Whether a channel is there does not depend on what was sent. -/
theorem contains_send (number other : Nat) :
    (hub.send number message).2.subscriptions.contains other =
      hub.subscriptions.contains other := by
  rw [OrderedMap.contains, get?_send, OrderedMap.contains]
  split
  · exact Option.isSome_map
  · rfl

theorem sendAll_lists (subscribers : List Subscriber) :
    (hub.sendAll message subscribers).2.next = hub.next ∧
      (hub.sendAll message subscribers).2.subscribers = hub.subscribers := by
  induction subscribers generalizing hub with
  | nil => exact ⟨rfl, rfl⟩
  | cons subscriber rest ih =>
      have first := hub.send_lists message subscriber.number
      have others := ih (hub.send subscriber.number message).2
      exact ⟨others.1.trans first.1, others.2.trans first.2⟩

/-- Those who are still there are kept. -/
theorem sendAll_fst (subscribers : List Subscriber) :
    (hub.sendAll message subscribers).1 =
      subscribers.filter fun subscriber => hub.subscriptions.contains subscriber.number := by
  induction subscribers generalizing hub with
  | nil => rfl
  | cons subscriber rest ih =>
      rw [sendAll, List.filter_cons]
      dsimp only
      rw [send_fst, ih]
      simp only [contains_send]

/-- Everyone on a list who is still there receives the message once. -/
theorem get?_sendAll {subscribers : List Subscriber}
    (once : (subscribers.map Subscriber.number).Nodup) (other : Nat) :
    (hub.sendAll message subscribers).2.subscriptions.get? other =
      if other ∈ subscribers.map Subscriber.number then
        (hub.subscriptions.get? other).map (Subscription.put message)
      else hub.subscriptions.get? other := by
  induction subscribers generalizing hub with
  | nil => rfl
  | cons subscriber rest ih =>
      rcases List.nodup_cons.mp once with ⟨fresh, others⟩
      -- the rest is sent to by the hub that has sent to the first, who is not among the rest
      rw [sendAll]
      dsimp only
      rw [ih _ others, get?_send, List.map_cons]
      by_cases here : other = subscriber.number
      · rw [if_neg (here ▸ fresh), if_pos here, if_pos (here ▸ List.mem_cons_self)]
      · simp only [List.mem_cons, here, false_or, if_false]

end Sending

section Deliver

variable (hub : Hub) (topic : String) (message : Message)

theorem deliver_next : (hub.deliver topic message).next = hub.next := by
  rw [deliver]
  split
  · exact (hub.sendAll_lists message _).1
  · rfl

theorem listed_deliver (other : String) :
    (hub.deliver topic message).listed other =
      if other = topic then
        (hub.listed topic).filter fun subscriber =>
          hub.subscriptions.contains subscriber.number
      else hub.listed other := by
  rw [deliver]
  split
  next members found =>
      dsimp only
      rw [listed, OrderedMap.get?_insert, sendAll_fst, (hub.sendAll_lists message members).2,
        listed, listed, found]
      split <;> rfl
  next nobody =>
      split
      next same => rw [same, listed, nobody]; rfl
      next => rfl

theorem get?_deliver (once : (hub.numbers topic).Nodup) (number : Nat) :
    (hub.deliver topic message).subscriptions.get? number =
      if number ∈ hub.numbers topic then
        (hub.subscriptions.get? number).map (Subscription.put message)
      else hub.subscriptions.get? number := by
  rw [numbers, listed] at once
  rw [deliver, numbers, listed]
  split
  next members found =>
      rw [found] at once ⊢
      exact hub.get?_sendAll message once number
  next nobody =>
      rw [nobody]
      rfl

end Deliver

/-! ## The lists and the subscriptions -/

/-- A hub whose subscriptions are held by these holders. -/
structure Sound (hub : Hub) (holders : Holders) : Prop where
  next : hub.next = holders.length
  held : ∀ number,
    (hub.subscriptions.get? number).map Subscription.holder = holders.holder? number
  /-- Nobody is on a list twice. -/
  once : ∀ topic, (hub.numbers topic).Nodup
  /-- Only those who joined are on a list. -/
  known : ∀ topic, ∀ number ∈ hub.numbers topic, number < hub.next
  /-- Whoever is still there is on the list of his topic and on no other. -/
  listed : ∀ {number holder}, holders.holder? number = some holder →
    ∀ topic, number ∈ hub.numbers topic ↔ holder.topic = topic

theorem sound_empty : Sound empty [] where
  next := rfl
  held _ := rfl
  once _ := List.nodup_nil
  known _ _ member := nomatch member
  listed found := nomatch found

namespace Sound

variable {hub : Hub} {holders : Holders} (sound : hub.Sound holders)

include sound

theorem lt_next {number : Nat} {holder : Holder} (holds : holders.holder? number = some holder) :
    number < hub.next :=
  sound.next ▸ lt_length_of_holder? holds

theorem exists_subscription {number : Nat} {holder : Holder}
    (holds : holders.holder? number = some holder) :
    ∃ subscription, hub.subscriptions.get? number = some subscription ∧
      subscription.holder = holder :=
  Option.map_eq_some_iff.mp ((sound.held number).trans holds)

/-- Lists may lose those who have gone, and messages come and go. -/
theorem of_shrunk {after : Hub} (next : after.next = hub.next)
    (same : ∀ number, (after.subscriptions.get? number).map Subscription.holder =
      (hub.subscriptions.get? number).map Subscription.holder)
    (shrunk : ∀ topic, (after.numbers topic).Sublist (hub.numbers topic))
    (kept : ∀ topic, ∀ number ∈ hub.numbers topic, hub.subscriptions.contains number = true →
      number ∈ after.numbers topic) : after.Sound holders where
  next := next.trans sound.next
  held number := (same number).trans (sound.held number)
  once topic := (sound.once topic).sublist (shrunk topic)
  known topic number member := next ▸ sound.known topic number ((shrunk topic).subset member)
  listed := by
    intro number holder holds topic
    rcases sound.exists_subscription holds with ⟨subscription, found, -⟩
    have there : hub.subscriptions.contains number = true :=
      OrderedMap.contains_iff.mpr ⟨subscription, found⟩
    rw [← sound.listed holds topic]
    exact ⟨fun member => (shrunk topic).subset member, fun member => kept topic number member there⟩

theorem join (topic id : String) :
    (hub.join topic id).2.Sound (holders.after (.join topic id)) := by
  have numbers (other : String) : (hub.join topic id).2.numbers other =
      if other = topic then hub.numbers topic ++ [hub.next] else hub.numbers other := by
    rw [Hub.numbers, Hub.listed, Hub.join, OrderedMap.get?_insert]
    split
    · exact List.map_append
    · rfl
  have fresh (other : String) : hub.next ∉ hub.numbers other :=
    fun member => Nat.lt_irrefl _ (sound.known other _ member)
  refine ⟨?_, ?_, ?_, ?_, ?_⟩
  · rw [Holders.after, List.length_append]
    exact congrArg (· + 1) sound.next
  · intro number
    rw [holder?_join, ← sound.next, Hub.join, OrderedMap.get?_insert]
    split
    · rfl
    · exact sound.held number
  · intro other
    rw [numbers]
    split
    · rw [List.nodup_append]
      refine ⟨sound.once topic, List.nodup_singleton _, ?_⟩
      rintro number member final last rfl
      rw [List.mem_singleton.mp last] at member
      exact fresh topic member
    · exact sound.once other
  · intro other number member
    rw [numbers] at member
    change number < hub.next + 1
    split at member
    · rcases List.mem_append.mp member with before | last
      · exact Nat.lt_succ_of_lt (sound.known topic number before)
      · rw [List.mem_singleton.mp last]
        exact Nat.lt_succ_self _
    · exact Nat.lt_succ_of_lt (sound.known other number member)
  · intro number holder holds other
    rw [holder?_join, ← sound.next] at holds
    rw [numbers]
    split at holds
    next last =>
      cases holds
      rw [last]
      split
      next same => exact iff_of_true (List.mem_append_right _ (List.mem_singleton_self _)) same.symm
      next different => exact iff_of_false (fresh other) (Ne.symm different)
    next before =>
      rw [← sound.listed holds other]
      split
      next same =>
          rw [List.mem_append, List.mem_singleton, same]
          exact or_iff_left before
      next => rfl

theorem deliver (topic : String) (message : Message) :
    (hub.deliver topic message).Sound holders := by
  refine sound.of_shrunk (hub.deliver_next topic message) ?_ ?_ ?_
  · intro number
    rw [get?_deliver hub topic message (sound.once topic)]
    split
    · rw [Option.map_map]
      rfl
    · rfl
  · intro other
    rw [Hub.numbers, listed_deliver]
    split
    next same => exact same ▸ List.filter_sublist.map _
    next => exact List.Sublist.refl _
  · intro other number member there
    rw [Hub.numbers, listed_deliver]
    split
    next same =>
        rcases List.mem_map.mp member with ⟨subscriber, inside, rfl⟩
        exact List.mem_map_of_mem (List.mem_filter.mpr ⟨same ▸ inside, there⟩)
    next => exact member

theorem publish (number : Nat) (data : Bytes) : (hub.publish number data).Sound holders := by
  rw [Hub.publish]
  split
  · exact sound.deliver _ _
  · exact sound

theorem nextMessage (number : Nat) : (hub.nextMessage number).2.Sound holders := by
  rw [Hub.nextMessage]
  split
  next subscription found =>
      split
      next message waiting _ =>
          refine sound.of_shrunk rfl ?_ (fun _ => List.Sublist.refl _) fun _ _ member _ => member
          intro other
          rw [OrderedMap.get?_insert]
          split
          next same =>
              rw [same, found]
              rfl
          next => rfl
      next => split <;> exact sound
  next => exact sound

theorem leave (gone : Nat) : (hub.leave gone).2.Sound (holders.after (.leave gone)) where
  next := sound.next.trans List.length_set.symm
  held number := by
    rw [holder?_leave, Hub.leave, OrderedMap.get?_erase]
    split
    · rfl
    · exact sound.held number
  once := sound.once
  known := sound.known
  listed := by
    intro number holder holds topic
    rw [holder?_leave] at holds
    split at holds
    · cases holds
    · exact sound.listed holds topic

theorem perform (call : Call) : (hub.perform call).Sound (holders.after call) := by
  cases call with
  | join topic id => exact sound.join topic id
  | publish number data => exact sound.publish number data
  | next number => exact sound.nextMessage number
  | leave number => exact sound.leave number

theorem run (calls : List Call) :
    (hub.run calls).Sound (calls.foldl Holders.after holders) := by
  induction calls generalizing hub holders with
  | nil => exact sound
  | cons call rest ih => exact ih (sound.perform call)

end Sound

/-! ## What waits and what is taken -/

/-- What waits at a subscription. -/
def waiting (hub : Hub) (number : Nat) : List Message :=
  ((hub.subscriptions.get? number).map Subscription.waiting).getD []

/-- The message that a call hands to the holder of a subscription. -/
def handed (number : Nat) (hub : Hub) : Call → List Message
  | .next asked => if asked = number then (hub.take asked).1.toList else []
  | _ => []

/-- The messages that the holder of a subscription takes. -/
def taken (number : Nat) : Hub → List Call → List Message := gather perform (handed number)

/-- What the holder of a subscription has received: what he took and what waits for him. -/
def received (number : Nat) (hub : Hub) (calls : List Call) : List Message × List Message :=
  (taken number hub calls, (hub.run calls).waiting number)

/-- What a call means to the holder of a subscription. -/
inductive Turn where
  /-- A message comes. -/
  | comes (message : Message)
  /-- He asks for the next message. -/
  | asks

/-- The turn that a call is for the holder of a subscription to a topic, if it is any. -/
def Holders.turn? (holders : Holders) (number : Nat) (topic : String) : Call → Option Turn
  | .next asked => if asked = number then some .asks else none
  | .publish publisher data => (holders.message? topic (.publish publisher data)).map .comes
  | .join _ _ => none
  | .leave _ => none

def turns (number : Nat) (topic : String) : Holders → List Call → List Turn :=
  gather Holders.after fun holders call => (holders.turn? number topic call).toList

/-- What is taken of a queue, and what is left of it. -/
def replay : List Message → List Turn → List Message × List Message
  | queue, [] => ([], queue)
  | queue, .comes message :: rest => replay (queue ++ [message]) rest
  | queue, .asks :: rest =>
    (queue.head?.toList ++ (replay queue.tail rest).1, (replay queue.tail rest).2)

theorem waiting_nextMessage (hub : Hub) (asked number : Nat) :
    (hub.nextMessage asked).2.waiting number =
      if asked = number then (hub.waiting number).tail else hub.waiting number := by
  rw [nextMessage]
  split
  next subscription found =>
      split
      next message rest queue =>
          rw [waiting, OrderedMap.get?_insert, waiting]
          by_cases same : asked = number
          · rw [if_pos same.symm, if_pos same, ← same, found, Option.map_some, Option.map_some,
              Option.getD_some, Option.getD_some, queue]
            rfl
          · rw [if_neg (Ne.symm same), if_neg same]
      next queue =>
          have unchanged : hub.waiting asked = [] := by rw [waiting, found]; exact queue
          split
          all_goals
            split
            next same => rw [← same, unchanged]; rfl
            next => rfl
  next missing =>
      split
      next same => rw [← same, waiting, missing]; rfl
      next => rfl

theorem waiting_leave (hub : Hub) {gone number : Nat} (stays : number ≠ gone) :
    (hub.leave gone).2.waiting number = hub.waiting number := by
  rw [waiting, leave, OrderedMap.get?_erase_of_ne _ stays]
  rfl

namespace Sound

variable {hub : Hub} {holders : Holders} {number : Nat} {holder : Holder}
  (sound : hub.Sound holders) (holds : holders.holder? number = some holder)

include sound holds

/-- A subscription that has not ended is never found closed. -/
theorem nextMessage_fst :
    (hub.nextMessage number).1 = .ok (hub.waiting number).head? := by
  rcases sound.exists_subscription holds with ⟨subscription, found, -⟩
  have member := (sound.listed holds holder.topic).mpr rfl
  have sender : hub.hasSender number = true := by
    rcases List.mem_map.mp member with ⟨subscriber, inside, same⟩
    cases stored : hub.subscribers.get? holder.topic with
    | none =>
        rw [Hub.listed, stored] at inside
        cases inside
    | some members =>
        rw [Hub.listed, stored] at inside
        refine List.any_eq_true.mpr ⟨members, OrderedMap.mem_values_iff.mpr ⟨_, stored⟩, ?_⟩
        exact List.any_eq_true.mpr ⟨subscriber, inside, beq_iff_eq.mpr same⟩
  rw [Hub.nextMessage, Hub.waiting, found, sender]
  dsimp only [Option.map_some, Option.getD_some]
  cases subscription.waiting <;> rfl

theorem waiting_deliver (topic : String) (message : Message) :
    (hub.deliver topic message).waiting number =
      hub.waiting number ++ if holder.topic = topic then [message] else [] := by
  rcases sound.exists_subscription holds with ⟨subscription, found, -⟩
  rw [Hub.waiting, get?_deliver hub topic message (sound.once topic),
    if_congr (sound.listed holds topic) rfl rfl, Hub.waiting, found]
  split
  · rfl
  · exact (List.append_nil _).symm

theorem waiting_publish (publisher : Nat) (data : Bytes) :
    (hub.publish publisher data).waiting number = hub.waiting number ++
      (holders.message? holder.topic (.publish publisher data)).toList := by
  rw [Hub.publish, Holders.message?, ← sound.held publisher]
  cases hub.subscriptions.get? publisher with
  | none => exact (List.append_nil _).symm
  | some subscription =>
      refine (sound.waiting_deliver holds _ _).trans (congrArg (hub.waiting number ++ ·) ?_)
      dsimp only [Option.map_some, Subscription.holder]
      by_cases same : holder.topic = subscription.topic
      · rw [if_pos same, if_pos same.symm]
        rfl
      · rw [if_neg same, if_neg (Ne.symm same)]
        rfl

theorem waiting_join (topic id : String) :
    (hub.join topic id).2.waiting number = hub.waiting number := by
  have other : number ≠ hub.next := Nat.ne_of_lt (sound.lt_next holds)
  rw [Hub.waiting, Hub.join, OrderedMap.get?_insert_of_ne _ other]
  rfl

/-- A call is to the holder of a subscription what his turn says. -/
theorem replay_turn? {call : Call} (stays : call ≠ .leave number) (later : List Turn) :
    replay (hub.waiting number) ((holders.turn? number holder.topic call).toList ++ later) =
      (handed number hub call ++ (replay ((hub.perform call).waiting number) later).1,
        (replay ((hub.perform call).waiting number) later).2) := by
  cases call with
  | join topic id =>
      rw [Hub.perform, sound.waiting_join holds]
      rfl
  | publish publisher data =>
      rw [Hub.perform, sound.waiting_publish holds, Holders.turn?]
      cases holders.message? holder.topic (.publish publisher data) with
      | none =>
          rw [Option.toList_none, List.append_nil]
          rfl
      | some message => rfl
  | next asked =>
      rw [Hub.perform, waiting_nextMessage, Holders.turn?, handed]
      by_cases mine : asked = number
      · have answer : (hub.take asked).1 = (hub.waiting number).head? := by
          change (hub.nextMessage asked).1.toOption.join = _
          rw [mine, sound.nextMessage_fst holds]
          rfl
        rw [if_pos mine, if_pos mine, if_pos mine, answer]
        rfl
      · rw [if_neg mine, if_neg mine, if_neg mine]
        rfl
  | leave gone =>
      have other : number ≠ gone := fun same => stays (congrArg Call.leave same.symm)
      rw [Hub.perform, hub.waiting_leave other]
      rfl

/-- What a holder receives is determined by his turns. -/
theorem received_eq {calls : List Call} (stays : .leave number ∉ calls) :
    received number hub calls =
      replay (hub.waiting number) (turns number holder.topic holders calls) := by
  induction calls generalizing hub holders with
  | nil => rfl
  | cons call rest ih =>
      rcases not_or.mp (mt List.mem_cons.mpr stays) with ⟨here, later⟩
      -- as he does not leave, the next call finds him as this one did
      have still := holder?_after holds (Ne.symm here)
      have others := ih (sound.perform call) still later
      calc received number hub (call :: rest)
        _ = (handed number hub call ++ (received number (hub.perform call) rest).1,
              (received number (hub.perform call) rest).2) := rfl
        _ = replay (hub.waiting number) (turns number holder.topic holders (call :: rest)) := by
          rw [others, turns, gather, sound.replay_turn? holds (Ne.symm here)]

end Sound

/-! ## The turns of a holder -/

/-- The message that a turn brings. -/
def Turn.message? : Turn → Option Message
  | .comes message => some message
  | .asks => none

/-- What was taken and what is left is what there was and what came, in its order. -/
theorem replay_append (queue : List Message) (turns : List Turn) :
    (replay queue turns).1 ++ (replay queue turns).2 =
      queue ++ turns.filterMap Turn.message? := by
  induction turns generalizing queue with
  | nil => exact (List.append_nil queue).symm
  | cons turn rest ih =>
      cases turn with
      | comes message =>
          rw [replay, ih, List.append_assoc]
          rfl
      | asks =>
          rw [replay, List.append_assoc, ih, ← List.append_assoc]
          cases queue <;> rfl

/-- What comes to the holder of a subscription is what is published on his topic. -/
theorem filterMap_turns (number : Nat) (topic : String) (holders : Holders)
    (calls : List Call) :
    (turns number topic holders calls).filterMap Turn.message? =
      published topic holders calls := by
  induction calls generalizing holders with
  | nil => rfl
  | cons call rest ih =>
      have here : (holders.turn? number topic call).toList.filterMap Turn.message? =
          (holders.message? topic call).toList := by
        cases call with
        | join other id => rfl
        | publish publisher data =>
            rw [Holders.turn?]
            cases holders.message? topic (.publish publisher data) <;> rfl
        | next asked =>
            rw [Holders.turn?]
            split <;> rfl
        | leave gone => rfl
      rw [turns, gather, List.filterMap_append, here]
      exact congrArg (_ ++ ·) (ih _)

/-- The holders are the same but for one who may have gone. -/
structure SameBut (gone : Nat) (one other : Holders) : Prop where
  length : one.length = other.length
  same : ∀ number, number ≠ gone → one.holder? number = other.holder? number

theorem SameBut.after {gone : Nat} {one other : Holders} (same : SameBut gone one other)
    (call : Call) : SameBut gone (one.after call) (other.after call) := by
  cases call with
  | join topic id =>
      refine ⟨?_, fun number different => ?_⟩
      · rw [Holders.after, Holders.after, List.length_append, List.length_append, same.length]
      · rw [holder?_join, holder?_join, same.length, same.same number different]
  | publish publisher data => exact same
  | next asked => exact same
  | leave left =>
      refine ⟨?_, fun number different => ?_⟩
      · rw [Holders.after, Holders.after, List.length_set, List.length_set, same.length]
      · rw [holder?_leave, holder?_leave, same.same number different]

theorem sameBut_leave (holders : Holders) (gone : Nat) :
    SameBut gone (holders.after (.leave gone)) holders where
  length := List.length_set
  same number different := by rw [holder?_leave, if_neg different]

/-- If the one who has gone publishes nothing, nobody's turns change. -/
theorem SameBut.turns_eq {gone : Nat} {one other : Holders} (same : SameBut gone one other)
    {calls : List Call} (silent : ∀ data, .publish gone data ∉ calls) (number : Nat)
    (topic : String) : turns number topic one calls = turns number topic other calls := by
  induction calls generalizing one other with
  | nil => rfl
  | cons call rest ih =>
      have later : ∀ data, .publish gone data ∉ rest :=
        fun data member => silent data (List.mem_cons_of_mem _ member)
      have here : one.turn? number topic call = other.turn? number topic call := by
        cases call with
        | join other id => rfl
        | publish publisher data =>
            have different : publisher ≠ gone := by
              rintro rfl
              exact silent data List.mem_cons_self
            rw [Holders.turn?, Holders.turn?, Holders.message?, Holders.message?,
              same.same publisher different]
        | next asked => rfl
        | leave left => rfl
      rw [turns, gather, gather, here]
      exact congrArg (_ ++ ·) (ih (same.after call) later)

theorem turns_append (number : Nat) (topic : String) (holders : Holders)
    (front back : List Call) :
    turns number topic holders (front ++ back) =
      turns number topic holders front ++
        turns number topic (front.foldl Holders.after holders) back :=
  gather_append ..

/-- That another one goes is nobody's turn. -/
theorem turns_leave {number gone : Nat} {topic : String} (holders : Holders)
    (front : List Call) {back : List Call} (silent : ∀ data, .publish gone data ∉ back) :
    turns number topic holders (front ++ .leave gone :: back) =
      turns number topic holders (front ++ back) := by
  rw [turns_append, turns_append]
  exact congrArg (_ ++ ·) ((sameBut_leave _ gone).turns_eq silent number topic)

/-- What is published on another topic is nobody's turn. -/
theorem turns_publish {number publisher : Nat} {topic : String} {data : Bytes}
    (holders : Holders) (front back : List Call)
    (elsewhere : (front.foldl Holders.after holders).message? topic (.publish publisher data) =
      none) :
    turns number topic holders (front ++ .publish publisher data :: back) =
      turns number topic holders (front ++ back) := by
  rw [turns_append, turns_append, turns, gather, Holders.turn?, elsewhere]
  rfl

/-! ## Delivery -/

/-- What one receives who has joined a topic, while these calls are made. -/
structure Delivered (number : Nat) (topic : String) (joined : Hub) (held : Holders)
    (calls : List Call) : Prop where
  /-- All that is published on the topic comes to him, in its order and once. -/
  complete : taken number joined calls ++ (joined.run calls).waiting number =
    published topic held calls
  /-- He can ask at any time, and is given the first message that waits. -/
  answered : ((joined.run calls).nextMessage number).1 =
    .ok ((joined.run calls).waiting number).head?
  /-- He receives the same if another one stays who goes. -/
  going : ∀ front gone back, calls = front ++ .leave gone :: back →
    (∀ data, .publish gone data ∉ back) →
      received number joined calls = received number joined (front ++ back)
  /-- He receives the same if nothing is published on other topics. -/
  elsewhere : ∀ front publisher data back, calls = front ++ .publish publisher data :: back →
    (joined.run front).topic? publisher ≠ some topic →
      received number joined calls = received number joined (front ++ back)

/-- Whatever was done with a hub before, and whatever others do with it afterwards, one who
joins a topic receives what is published there until he leaves. -/
theorem delivered_once_in_order (before after : List Call) (topic id : String)
    (stays : .leave ((empty.run before).join topic id).1 ∉ after) :
    Delivered ((empty.run before).join topic id).1 topic ((empty.run before).join topic id).2
      (holders (before ++ [.join topic id])) after := by
  have earlier : (empty.run before).Sound (holders before) := sound_empty.run before
  have sound := earlier.join topic id
  have held : holders (before ++ [.join topic id]) = (holders before).after (.join topic id) :=
    List.foldl_append
  have nothing : ((empty.run before).join topic id).2.waiting
      ((empty.run before).join topic id).1 = [] := by
    rw [waiting, join, OrderedMap.get?_insert_self]
    rfl
  have holds : ((holders before).after (.join topic id)).holder?
      ((empty.run before).join topic id).1 = some ⟨topic, id⟩ := by
    rw [holder?_join]
    exact if_pos earlier.next
  rw [held]
  generalize (holders before).after (.join topic id) = held at sound holds
  generalize ((empty.run before).join topic id).1 = number at *
  generalize ((empty.run before).join topic id).2 = joined at *
  have replays {calls : List Call} (still : .leave number ∉ calls) :
      received number joined calls = replay [] (turns number topic held calls) := by
    rw [sound.received_eq holds still, nothing]
  have shorter {front back : List Call} {call : Call}
      (still : .leave number ∉ front ++ call :: back) : .leave number ∉ front ++ back :=
    fun member => still (((List.sublist_cons_self call back).append_left front).subset member)
  refine ⟨?_, ?_, ?_, ?_⟩
  · have whole := replay_append [] (turns number topic held after)
    rw [← replays stays, filterMap_turns] at whole
    exact whole
  · exact (sound.run after).nextMessage_fst (holder?_foldl_after holds stays)
  · rintro front gone back rfl silent
    rw [replays stays, replays (shorter stays), turns_leave held front silent]
  · rintro front publisher data back rfl different
    have silent : (front.foldl Holders.after held).message? topic (.publish publisher data) =
        none := by
      have known := (sound.run front).held publisher
      rw [topic?] at different
      rw [Holders.message?, ← known]
      cases found : (joined.run front).subscriptions.get? publisher with
      | none => rfl
      | some subscription =>
          rw [found] at different
          exact if_neg fun same => different (congrArg some same)
    rw [replays stays, replays (shorter stays), turns_publish held front back silent]

/-- After the second of two subscribers with one id has joined, both of them publish, he takes
a message, the first one goes, and a third one publishes elsewhere. -/
def sampleCalls : List Call :=
  [.publish 0 [1], .publish 1 [2], .next 1, .leave 0, .publish 1 [3], .join "other" "c",
    .publish 2 [4]]

/-- The second subscriber receives the three messages on his topic. -/
theorem delivered_once_in_order_sample :
    .leave ((empty.run [.join "blocks" "a"]).join "blocks" "a").1 ∉ sampleCalls ∧
      ∃ joined, taken 1 joined sampleCalls ++ (joined.run sampleCalls).waiting 1 =
        [⟨"a", "a", [1]⟩, ⟨"a", "a", [2]⟩, ⟨"a", "a", [3]⟩] := by
  have stays : .leave ((empty.run [.join "blocks" "a"]).join "blocks" "a").1 ∉ sampleCalls := by
    decide
  have messages : published "blocks" (holders ([.join "blocks" "a"] ++ [.join "blocks" "a"]))
      sampleCalls = [⟨"a", "a", [1]⟩, ⟨"a", "a", [2]⟩, ⟨"a", "a", [3]⟩] := by
    decide
  exact ⟨stays, _, (delivered_once_in_order _ sampleCalls "blocks" "a" stays).complete.trans
    messages⟩

end Hub

end LedgerNode
