import RelayLedger.Relay

/-!
Packets that come in. A packet is taken once: it leaves a receipt, and while the receipt is
kept no packet with its number is taken on the channel again. The payload goes to its
application, and what the application did is taken back if it rejects the payload; the packet
is received all the same and answered negatively.
-/
namespace RelayLedger

/-- Why a packet that came in is answered negatively. -/
inductive Nack
  | unknownRemoteAgent
  | localAgentNotFound
  | localAgentInactive
  | handlerRejected
  | unsupportedPayload
  deriving DecidableEq

namespace Nack

/-- The code of the answer. -/
def code : Nack → UInt16
  | .unknownRemoteAgent => 1
  | .localAgentNotFound => 2
  | .localAgentInactive => 3
  | .handlerRejected => 4
  | .unsupportedPayload => 5

end Nack

/-- A receipt may go once the retention time after its packet's timeout is over. -/
def Receipt.isStale (cfg : Config) (r : Receipt) (now : Height) : Bool :=
  r.timeout.after cfg.retentionBlocks ≤ now

/-- The lane with a packet received. -/
def Lane.receive (l : Lane) (s : Sequence) (r : Receipt) : Lane :=
  { l with
    receipts := l.receipts.set s (some r)
    sequences := l.sequences.map fun counts => counts.afterRecv s }

namespace Inbound

/-- An agent that the registry knows and that is active. -/
def activeAgent (registry : Registry) (agent : AgentId) : Except Nack AgentId :=
  if !registry.knows agent then .error .localAgentNotFound
  else if !registry.isActive agent then .error .localAgentInactive
  else .ok agent

/-- The active local agent that a remote agent stands for. -/
def resolve (l : Ledger) (registry : Registry) (chain remote : Bytes) : Except Nack AgentId :=
  match l.agentOf chain remote with
  | none => .error .unknownRemoteAgent
  | some agent => activeAgent registry agent

/-- The local agent behind a remote agent that may or may not be named. -/
def resolveNamed (l : Ledger) (registry : Registry) (chain : Bytes) (remote : Option Bytes) :
    Except Nack (Option AgentId) :=
  match remote with
  | none => .ok none
  | some remote => (resolve l registry chain remote).map some

/-- What a packet brings to which application, and the local agent that it concerns. -/
def assign (l : Ledger) (registry : Registry) (channel : Channel) (p : Packet) :
    Except Nack (Content × Option AgentId) :=
  let chain := channel.chain
  match p.payload with
  | .raw data => .ok (.raw chain channel.id data, none)
  | .task taskId requester hint hash =>
    match resolveNamed l registry chain (p.agent.or hint) with
    | .ok assignee => .ok (.task chain taskId requester assignee hash, assignee)
    | .error why => .error why
  | .reputation subject delta hash =>
    let found :=
      match p.agent with
      | some remote => resolve l registry chain remote
      | none => activeAgent registry subject
    match found with
    | .ok agent => .ok (.reputation chain agent delta hash, some agent)
    | .error why => .error why
  | .did subject proof =>
    match resolveNamed l registry chain p.agent with
    | .ok agent => .ok (.did chain agent subject proof, agent)
    | .error why => .error why
  | .ack _ => .error .unsupportedPayload

/-- Lets the application have a payload; what a rejected one did is taken back. -/
def handOver (handle : Handler) (d : Delivery) : Relay Verdict :=
  ExceptT.mk fun w =>
    match handle d w with
    | (.accepted, after) => (.ok .accepted, after)
    | (verdict, after) => (.ok verdict, after.rollback w)

/-- Brings a packet to its application and tells which local agent it concerned. -/
def deliver (handle : Handler) (channel : Channel) (p : Packet) :
    Relay (Except Nack (Option AgentId)) := do
  let w ← get
  match assign w.ledger w.host.registry channel p with
  | .error why => return .error why
  | .ok (content, agent) =>
    match ← handOver handle ⟨p.target, p.sequence, content⟩ with
    | .accepted => return .ok agent
    | .rejected =>
      Relay.log .payloadRejected
      return .error .handlerRejected
    | .tooDeep =>
      Relay.log .payloadTooDeep
      return .error .handlerRejected

/-- The answer to a packet that is handed to its application, and the agent it concerned. -/
def answer (handle : Handler) (channel : Channel) (p : Packet) :
    Relay (Option AgentId × Acknowledgement) := do
  match ← deliver handle channel p with
  | .ok agent => return (agent, .ok)
  | .error why =>
    Relay.log (.answeredNegatively p.target p.sequence why.code)
    return (none, .error why.code)

/-- Only trusted relayers carry anything in. -/
def requireTrusted (who : Account) : Relay Unit := do
  let l ← Relay.ledger
  Relay.ensure (l.isTrusted who) (.notTrusted who) .notTrustedRelayer

/-- Takes in a packet on an opened channel, once and in time. -/
def receive (handle : Handler) (relayer : Account) (p : Packet) : Relay Unit := do
  requireTrusted relayer
  let lane ← Relay.lane p.target
  let channel ← Relay.demand lane.channel .channelNotFound
  Relay.require channel.state.isOpen .channelNotOpen
  Relay.require (channel.counterparty = p.source) .channelMismatch
  Relay.ensure (lane.receipts.get p.sequence).isNone
    (.replayRejected p.target p.sequence relayer) .packetAlreadyReceived
  let now ← Relay.now
  Relay.ensure (!p.isExpired now) (.lateRejected p.target p.sequence p.timeout now)
    .packetTimedOut
  let (agent, ack) ← answer handle channel p
  Relay.updateLane p.target fun l => l.receive p.sequence ⟨now, p.timeout, ack⟩
  Relay.emit (.packetReceived p.target p.sequence relayer agent ack.success ack.code)

/-- Every listed receipt is there and may go; the first one that may not decides. -/
def checkStale (cfg : Config) (receipts : Table Sequence (Option Receipt)) (now : Height) :
    List Sequence → Except Refusal Unit
  | [] => .ok ()
  | s :: rest =>
    match receipts.get s with
    | none => .error .receiptNotFound
    | some r =>
      if r.isStale cfg now then checkStale cfg receipts now rest else .error .receiptStillLive

/-- The receipts without the listed ones, and how many of those there were. -/
def dropReceipts (receipts : Table Sequence (Option Receipt)) :
    List Sequence → Table Sequence (Option Receipt) × Nat
  | [] => (receipts, 0)
  | s :: rest =>
    let (left, count) := dropReceipts (receipts.set s none) rest
    (left, if receipts.get s = none then count else count + 1)

/-- Drops receipts that are no longer needed, all of the listed ones or none. -/
def prune (cfg : Config) (id : Bytes) (sequences : List Sequence) : Relay Unit := do
  let lane ← Relay.lane id
  let now ← Relay.now
  Relay.settle (checkStale cfg lane.receipts now sequences)
  let (left, count) := dropReceipts lane.receipts sequences
  let pruned := UInt32.ofNat count
  Relay.updateLane id fun l => { l with receipts := left }
  Relay.log (.receiptsPruned pruned id)
  Relay.emit (.receiptsPruned id pruned)

end Inbound

end RelayLedger
