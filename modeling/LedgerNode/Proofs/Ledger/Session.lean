import LedgerNode.Proofs.Ledger.Acceptance
import LedgerNode.Proofs.Ledger.Integrity

namespace LedgerNode

/-!
# Sessions on a ledger

A session is an open store with the blocks that wait beside it.  Calls come one
after another, in any order and with any arguments; now and then the store is
closed and opened again, and what waited is lost.

Every call leads from a picture with the cursor at the tip to another such
picture.  By induction this holds after every history, so whatever is read
from the store can be read off a picture.
-/

namespace Ledger

/-! ## Calls and answers -/

/-- A call that excludes the others by the lock.  Its texts and lists are such
as a machine can hold.

The check takes the lock only to start a chain.  But a program makes it before
any of the others, so it excludes them too. -/
inductive LockedCall where
  | check
  | append (block : Block) (fits : block.Fits)
  | appendBuilt (build : Cursor → Block) (fits : ∀ tip, (build tip).Fits)
  | accept (parcel : WaitingBlock) (fits : parcel.Fits)

/-- A call that needs no lock, and may act between the steps of the others. -/
inductive FreeCall where
  | acceptTransactions (transactions : List Transaction)
    (fits : ∀ transaction ∈ transactions, transaction.Fits)
  | addPending (transaction : Transaction)

/-- A call of the ledger. -/
inductive Call where
  | locked (call : LockedCall)
  | free (call : FreeCall)

/-- What a call answers if it does not fail. -/
inductive Answer where
  | checked (outcome : StartOutcome)
  | appended (tip : Cursor)
  | built (block : Block)
  | accepted (acceptance : Acceptance)
  | stored (count : Nat)
  | pending

/-- Whether a call tells that it extended the chain. -/
def tellsExtension : Except Fault Answer → Bool
  | .ok (.appended _) => true
  | .ok (.built _) => true
  | .ok (.accepted (.extended _)) => true
  | _ => false

def LockedCall.perform : LockedCall → LedgerAction Answer
  | check => do return .checked (← LedgerAction.ofStore Ledger.check)
  | append block _ => do return .appended (← LedgerAction.ofStore (Ledger.append block))
  | appendBuilt build _ => do return .built (← LedgerAction.ofStore (Ledger.appendBuilt build))
  | accept parcel _ => do return .accepted (← Ledger.accept parcel.block parcel.transactions)

def FreeCall.perform : FreeCall → StoreAction Answer
  | acceptTransactions transactions _ => do
    return .stored (← Ledger.acceptTransactions transactions)
  | addPending transaction => do
    Ledger.addPending transaction
    return .pending

def Call.perform : Call → LedgerAction Answer
  | locked call => call.perform
  | free call => LedgerAction.ofStore call.perform

/-! ## What calls do to a picture -/

/-- A check never fails, and a peer's block is refused by an answer unless
there is no chain. -/
def LockedCall.MayFail (picture : Picture) : LockedCall → Prop
  | check => False
  | append _ _ => True
  | appendBuilt _ _ => True
  | accept _ _ => picture.chain = []

/-- What a call that takes the lock answers and does. -/
inductive Performed (picture : Picture) (waiting : WaitingBlocks) :
    LockedCall → Except Fault Answer → WaitingBlocks → Picture → Prop where
  | failed {call : LockedCall} (mayFail : call.MayFail picture) (fault : Fault) :
    Performed picture waiting call (.error fault) waiting picture
  | checked {outcome : StartOutcome} {after : Picture}
    (found : Checked picture outcome after) :
    Performed picture waiting .check (.ok (.checked outcome)) waiting after
  | appended {block : Block} {fits : block.Fits} {after : Picture}
    (grown : picture.ExtendedBy [ownParcel block] after) :
    Performed picture waiting (.append block fits) (.ok (.appended (.ofBlock block)))
      waiting after
  | built {build : Cursor → Block} {fits : ∀ tip, (build tip).Fits} {block : Block}
    {after : Picture} (grown : picture.ExtendedBy [ownParcel block] after)
    (made : ∃ tip : Cursor, tip.ExtendedBy block ∧ build tip = block) :
    Performed picture waiting (.appendBuilt build fits) (.ok (.built block)) waiting after
  | accepted {parcel : WaitingBlock} {fits : parcel.Fits} {tip : Cursor}
    {acceptance : Acceptance} {kept : WaitingBlocks} {after : Picture}
    (last : Chain.tip picture.chain = some tip)
    (became : Accepted picture tip waiting parcel acceptance kept after) :
    Performed picture waiting (.accept parcel fits) (.ok (.accepted acceptance)) kept after

/-- The blocks that a call may bring to the ledger, with their transactions. -/
def LockedCall.Brings : LockedCall → WaitingBlock → Prop
  | check, _ => False
  | append block _, parcel => parcel = ownParcel block
  | appendBuilt build _, parcel =>
    ∃ tip : Cursor, tip.ExtendedBy parcel.block ∧ parcel = ownParcel (build tip)
  | accept brought _, parcel => parcel = brought

theorem LockedCall.perform_meets (call : LockedCall) {picture : Picture}
    {waiting : WaitingBlocks} (settled : picture.Settled) (others : waiting.Fit) :
    call.perform.Meets holder (Performed picture waiting call) waiting picture := by
  cases call with
  | check =>
      apply LedgerAction.meets_ofStore_bind_returns (check_meets (.inl settled))
      intro outcome after found
      exact .checked found
  | append block fits =>
      apply LedgerAction.meets_ofStore_bind
      apply (append_meets settled fits).imp
      intro outcome after reached
      cases outcome with
      | ok tip =>
          rcases reached with ⟨here, grown⟩
          subst here
          exact .appended grown
      | error fault =>
          subst reached
          refine .failed ?_ fault
          trivial
  | appendBuilt build fits =>
      apply LedgerAction.meets_ofStore_bind
      apply (appendBuilt_meets settled fun tip _ => fits tip).imp
      intro outcome after reached
      cases outcome with
      | ok block =>
          rcases reached with ⟨made, grown⟩
          exact .built grown made
      | error fault =>
          subst reached
          refine .failed ?_ fault
          trivial
  | accept parcel fits =>
      apply LedgerAction.Meets.bind
      apply (accept_meets settled fits others).imp
      intro outcome kept after reached
      cases outcome with
      | ok acceptance =>
          rcases reached with ⟨tip, last, became⟩
          exact .accepted last became
      | error fault =>
          rcases reached with ⟨nothing, kept, same⟩
          subst kept same
          refine .failed ?_ fault
          exact nothing

theorem FreeCall.perform_meets (call : FreeCall) (picture : Picture) :
    call.perform.Meets guest (StoreAction.Returns fun answer _ =>
      tellsExtension (.ok answer) = false) picture := by
  cases call with
  | acceptTransactions transactions fits =>
      apply StoreAction.Meets.bind_returns (acceptTransactions_meets fits picture)
      intro _ _ _
      rfl
  | addPending transaction =>
      apply StoreAction.Meets.bind_returns (addPending_meets transaction picture)
      intro _ _ _
      rfl

theorem fit_empty : WaitingBlocks.Fit ∅ := by
  intro entry member
  cases member

namespace Performed

variable {picture after : Picture} {waiting kept : WaitingBlocks} {call : LockedCall}
  {answer : Except Fault Answer}

theorem settled (performed : Performed picture waiting call answer kept after)
    (settled : picture.Settled) : after.Settled := by
  cases performed with
  | failed => exact settled
  | checked found =>
      cases found with
      | started _ _ final _ => exact final
      | trusted => exact settled
      | rescanned last _ => exact last.symm
  | appended grown => exact grown.settled
  | built grown => exact grown.settled
  | accepted last became => exact became.settled settled

theorem fit (performed : Performed picture waiting call answer kept after)
    (others : waiting.Fit) : kept.Fit := by
  cases performed with
  | failed => exact others
  | checked => exact others
  | appended => exact others
  | built => exact others
  | @accepted parcel fits _ _ _ _ _ became => exact became.fit fits others

/-- A call that does not tell of an extension leaves an existing chain as it
is. -/
theorem chain_eq (performed : Performed picture waiting call answer kept after)
    (standing : picture.chain ≠ []) (silent : tellsExtension answer = false) :
    after.chain = picture.chain := by
  cases performed with
  | failed => rfl
  | checked found =>
      cases found with
      | started nothing => exact absurd nothing standing
      | trusted => rfl
      | rescanned => rfl
  | appended => cases silent
  | built => cases silent
  | accepted _ became =>
      cases became with
      | compared => rfl
      | ahead => rfl
      | extended => cases silent
      | unlinked => rfl

/-- A call extends an existing chain by commits of blocks that it brings or that
waited. -/
theorem extendedBy (performed : Performed picture waiting call answer kept after)
    (settled : picture.Settled) (standing : picture.chain ≠ []) :
    ∃ parcels, picture.ExtendedBy parcels after ∧ ∀ parcel ∈ parcels,
      call.Brings parcel ∨ ∃ height, waiting.get? height = some parcel := by
  have nothing : ∃ parcels, picture.ExtendedBy parcels picture ∧ ∀ parcel ∈ parcels,
      call.Brings parcel ∨ ∃ height, waiting.get? height = some parcel :=
    ⟨[], .refl settled, List.forall_mem_nil _⟩
  cases performed with
  | failed => exact nothing
  | checked found =>
      cases found with
      | started empty => exact absurd empty standing
      | trusted => exact nothing
      | rescanned _ stale => exact absurd settled stale
  | appended grown => exact ⟨_, grown, List.forall_mem_singleton.mpr (.inl rfl)⟩
  | built grown made =>
      rcases made with ⟨tip, follows, here⟩
      exact ⟨_, grown, List.forall_mem_singleton.mpr (.inl ⟨tip, follows, here ▸ rfl⟩)⟩
  | accepted _ became => exact became.extendedBy settled

/-- What waits after a call waited before or was brought by the call. -/
theorem waited_or_brought (performed : Performed picture waiting call answer kept after)
    {height : Nat} {parcel : WaitingBlock} (waits : kept.get? height = some parcel) :
    waiting.get? height = some parcel ∨ call.Brings parcel := by
  cases performed with
  | failed => exact .inl waits
  | checked => exact .inl waits
  | appended => exact .inl waits
  | built => exact .inl waits
  | @accepted brought _ _ _ _ _ last became =>
      cases became with
      | compared => exact .inl waits
      | ahead =>
          rcases get?_hold waits with before | ⟨_, here⟩
          · exact .inl before
          · exact .inr here
      | extended => exact .inl (get?_waitingAbove waits).1
      | unlinked => exact .inl waits

end Performed

end Ledger

end LedgerNode
