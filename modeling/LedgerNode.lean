import LedgerNode.Account.Address
import LedgerNode.Command.Execution
import LedgerNode.Command.Footprint
import LedgerNode.Config.Settings
import LedgerNode.Gossip.Channel
import LedgerNode.Gossip.Hub
import LedgerNode.Gossip.Overlay
import LedgerNode.Json.Reader
import LedgerNode.Json.Writer
import LedgerNode.Key.Identity
import LedgerNode.Ledger.Integrity
import LedgerNode.Ledger.Outcome
import LedgerNode.Main
import LedgerNode.Node.Overview
import LedgerNode.Node.Producer
import LedgerNode.Node.Workers
import LedgerNode.Peer.Directory
import LedgerNode.Proofs.Ledger.Interleaving
import LedgerNode.Proofs.Ledger.Confluence
import LedgerNode.Proofs.Ledger.Waiting
import LedgerNode.Proofs.Ledger.Provenance
import LedgerNode.Proofs.Ledger.Permanence
import LedgerNode.Proofs.Ledger.Commitment
import LedgerNode.Proofs.Ledger.RecordHash
import LedgerNode.Proofs.Ledger.Production
import LedgerNode.Proofs.Ledger.Inspection
import LedgerNode.Proofs.Ledger.Verification
import LedgerNode.Proofs.Ledger.HeightRange
import LedgerNode.Proofs.Ledger.Recheck
import LedgerNode.Proofs.Ledger.Reception
import LedgerNode.Proofs.Gossip.Envelope
import LedgerNode.Proofs.Node.Publication
import LedgerNode.Proofs.Node.Replication
import LedgerNode.Proofs.Binary.Records
import LedgerNode.Proofs.Peer.Registry
import LedgerNode.Proofs.Gossip.Overlay
import LedgerNode.Proofs.Gossip.Net
import LedgerNode.Proofs.Gossip.Hearing
import LedgerNode.Proofs.Gossip.Flooding
import LedgerNode.Proofs.Gossip.Handshake
import LedgerNode.Proofs.Store.Tables
import LedgerNode.Proofs.Store.Family
import LedgerNode.Proofs.Gossip.Echo
import LedgerNode.Proofs.Ledger.Reachability
import LedgerNode.Proofs.Node.Messages
import LedgerNode.Proofs.Gossip.Run
import LedgerNode.Proofs.Net.SocketAddress
import LedgerNode.Proofs.Gossip.Window
import LedgerNode.Proofs.Gossip.Endpoints
import LedgerNode.Proofs.Ledger.Frame
import LedgerNode.Proofs.Peer.Snapshot
import LedgerNode.Proofs.Gossip.Acquaintance
import LedgerNode.Proofs.Node.Lifetime
import LedgerNode.Proofs.Binary.Shortest
import LedgerNode.Proofs.Gossip.Spreading
import LedgerNode.Proofs.Json.Tokens
import LedgerNode.Proofs.Json.Grammar
import LedgerNode.Proofs.Json.Writing
import LedgerNode.Proofs.Json.Record
import LedgerNode.Proofs.Peer.Document
import LedgerNode.Proofs.Gossip.Stream
import LedgerNode.Proofs.Base58
import LedgerNode.Proofs.Account.Address
import LedgerNode.Proofs.Peer.Restoration
import LedgerNode.Proofs.Ledger.Intake
import LedgerNode.Proofs.Gossip.Hub
import LedgerNode.Proofs.Account.Checksum
import LedgerNode.Proofs.Bytes.Hex
import LedgerNode.Proofs.Gossip.MessageId
import LedgerNode.Proofs.Key.Document
import LedgerNode.Proofs.Text.Lines
import LedgerNode.Proofs.Key.Keystore
import LedgerNode.Proofs.Peer.Directory
