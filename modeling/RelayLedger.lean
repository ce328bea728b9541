import RelayLedger.Basic
import RelayLedger.Table
import RelayLedger.Layout
import RelayLedger.Layout.Exact
import RelayLedger.Digest
import RelayLedger.Config
import RelayLedger.Channel
import RelayLedger.Packet
import RelayLedger.Capacity
import RelayLedger.Refusal
import RelayLedger.Event
import RelayLedger.LogLine
import RelayLedger.Delivery
import RelayLedger.Ledger
import RelayLedger.Call
import RelayLedger.Encoding
import RelayLedger.Chronicle
import RelayLedger.World
import RelayLedger.Relay
import RelayLedger.Lifecycle
import RelayLedger.Outbound
import RelayLedger.Inbound
import RelayLedger.Relayers
import RelayLedger.Agents
import RelayLedger.Dispatch
import RelayLedger.Genesis
import RelayLedger.Run
import RelayLedger.Query
import RelayLedger.Cost
import RelayLedger.Benchmark
import RelayLedger.Proofs.Success
import RelayLedger.Proofs.Effect
import RelayLedger.Proofs.Inversion
import RelayLedger.Proofs.Reception
import RelayLedger.Proofs.Nesting
import RelayLedger.Proofs.Carried
import RelayLedger.Proofs.Runs
import RelayLedger.Proofs.Fulfilment
import RelayLedger.Proofs.Receipts
import RelayLedger.Proofs.QuietStep
import RelayLedger.Proofs.ReplayGuard
import RelayLedger.Proofs.Intakes
import RelayLedger.Proofs.Reentry
import RelayLedger.Proofs.Outbox
import RelayLedger.Proofs.Conservation
import RelayLedger.Proofs.Pending
import RelayLedger.Proofs.Binding
import RelayLedger.Proofs.Numbering
import RelayLedger.Proofs.Answers
import RelayLedger.Proofs.LedgerPair
import RelayLedger.Proofs.Timeouts
import RelayLedger.Proofs.Provenance
import RelayLedger.Proofs.Agreement
import RelayLedger.Proofs.Authority
import RelayLedger.Proofs.Isolation
import RelayLedger.Proofs.Lifetime
import RelayLedger.Proofs.Roster
import RelayLedger.Proofs.WireForm
import RelayLedger.Proofs.Refusals
import RelayLedger.Proofs.Passage
import RelayLedger.Proofs.Confinement
import RelayLedger.Proofs.Journal
import RelayLedger.Proofs.InFlight
import RelayLedger.Proofs.Occupancy
import RelayLedger.Proofs.Exhaustion
import RelayLedger.Proofs.Attribution
import RelayLedger.Proofs.Convergence
import RelayLedger.Proofs.Pruning
import RelayLedger.Proofs.Naming
import RelayLedger.Proofs.Handouts
import RelayLedger.Proofs.Deeds
import RelayLedger.Proofs.Mappings
import RelayLedger.Proofs.Membership
import RelayLedger.Proofs.Deadlines
import RelayLedger.Proofs.Trials
import RelayLedger.Proofs.Measured
import RelayLedger.Proofs.Eviction
import RelayLedger.Proofs.LargestPayload
