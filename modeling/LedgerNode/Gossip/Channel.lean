import LedgerNode.Gossip.Envelope
import LedgerNode.Gossip.Message
import LedgerNode.Ledger.Extension

namespace LedgerNode

/-!
# The channel between gossip and ledger

The channel takes the messages of the block topic and stores what they carry.
A message that the node published itself comes back to it sooner or later and
is passed over, and so is a message that is no envelope.
-/

/-- What became of a message. -/
inductive Delivery where
  | selfOriginated
  | undecodable
  | block (height : UInt64) (acceptance : Ledger.Acceptance)
  /-- So many transactions were stored. -/
  | transactions (stored : Nat)
deriving DecidableEq

/-- How a channel is told to stop receiving. -/
inductive ChannelEnd where
  | shutdown
  | failure (fault : Fault)
deriving DecidableEq

namespace Channel

def store : Envelope → LedgerAction Delivery
  | .newBlock block transactions => do
    return .block block.height (← Ledger.accept block transactions)
  | .newTransactions transactions => do
    return .transactions (← LedgerAction.ofStore (Ledger.acceptTransactions transactions))

/-- Take one message as the node with the given id. -/
def handle (id : String) (message : Message) : LedgerAction Delivery :=
  if message.origin = id then return .selfOriginated
  else match Envelope.decode message.data with
    | .error _ => return .undecodable
    | .ok envelope => store envelope

/-- Take messages one after another.  A message that cannot be stored does not
keep the next one from being taken. -/
def handleAll (id : String) (messages : List Message) : LedgerAction Unit :=
  messages.forM fun message =>
    tryCatch (do let _ ← handle id message) fun _ => return ()

/-- Take messages until the end comes after the last of them. -/
def receive (id : String) (messages : List Message) (ending : ChannelEnd) :
    LedgerAction Unit := do
  handleAll id messages
  match ending with
  | .shutdown => return ()
  | .failure fault => throw fault

end Channel

end LedgerNode
