import RelayLedger.Channel

/-!
The lines that a ledger writes into its log, and their wording. Unlike events they are never
taken back.
-/
namespace RelayLedger

inductive LogLine
  | channelCreated (channel chain counterparty : Bytes)
  | channelOpen (channel : Bytes)
  | channelClosing (channel : Bytes)
  | channelClosed (channel : Bytes) (pending : UInt32)
  | stepRejected (channel : Bytes) (step : Handshake) (state : ChannelState)
  | sendHeldBack (channel : Bytes) (pending : UInt32)
  | packetCommitted (channel : Bytes) (sequence : Sequence) (timeout : Height)
  | replayRejected (channel : Bytes) (sequence : Sequence) (relayer : Account)
  | lateRejected (channel : Bytes) (sequence : Sequence) (timeout now : Height)
  | payloadRejected
  | payloadTooDeep
  | answeredNegatively (channel : Bytes) (sequence : Sequence) (code : UInt16)
  | unmatchedAck (channel : Bytes) (sequence : Sequence)
  | packetTimedOut (channel : Bytes) (sequence : Sequence)
  | receiptsPruned (count : UInt32) (channel : Bytes)
  | notTrusted (who : Account)
  | relayerAdded (relayer : Account)
  | relayerRemoved (relayer : Account)
  | lastRelayerRemoved (relayer : Account)
  | agentMapped (chain remote : Bytes) (agent : AgentId)
  deriving DecidableEq

inductive LogLevel
  | debug
  | info
  | warn
  deriving DecidableEq

def LogLevel.name : LogLevel → String
  | .debug => "debug"
  | .info => "info"
  | .warn => "warn"

/-- The name of a state in the log. -/
def ChannelState.name : ChannelState → String
  | .init => "Init"
  | .opened => "Open"
  | .closing => "CloseInit"
  | .closed => "Closed"

/-- The name of a step in the log. -/
def Handshake.name : Handshake → String
  | .confirmOpen => "ConfirmOpen"
  | .startClose => "InitClose"
  | .confirmClose => "ConfirmClose"

namespace LogLine

/-- An identifier as text. -/
def shown (id : Bytes) : String := id.toText?.getD "<non-utf8>"

/-- A packet as its channel and number. -/
def label (channel : Bytes) (sequence : Sequence) : String :=
  shown channel ++ "#" ++ toString sequence.toNat

def level : LogLine → LogLevel
  | .channelCreated .. | .channelOpen .. | .channelClosing .. | .channelClosed ..
  | .relayerAdded .. | .relayerRemoved .. | .agentMapped .. => .info
  | .payloadRejected | .payloadTooDeep | .answeredNegatively .. | .lastRelayerRemoved .. => .warn
  | _ => .debug

def text : LogLine → String
  | .channelCreated channel chain counterparty =>
    s!"channel {shown channel} created towards {shown chain}/{shown counterparty}"
  | .channelOpen channel => s!"channel {shown channel} open"
  | .channelClosing channel => s!"channel {shown channel} closing"
  | .channelClosed channel pending =>
    s!"channel {shown channel} closed with {pending.toNat} packet(s) still pending"
  | .stepRejected channel step state =>
    s!"channel {shown channel}: ChannelTransition::{step.name} rejected in state " ++
      s!"ChannelState::{state.name}"
  | .sendHeldBack channel pending =>
    s!"send on {shown channel} refused: {pending.toNat} packet(s) pending"
  | .packetCommitted channel sequence timeout =>
    s!"packet {label channel sequence} committed, times out at {timeout.toNat}"
  | .replayRejected channel sequence relayer =>
    s!"replay of {label channel sequence} from {relayer.toNat} rejected"
  | .lateRejected channel sequence timeout now =>
    s!"late packet {label channel sequence} rejected: timeout {timeout.toNat}, now {now.toNat}"
  | .payloadRejected =>
    "inbound payload rejected by handler: Other(\"handler rejected payload\")"
  | .payloadTooDeep =>
    "inbound payload rejected by handler: Transactional(LimitReached)"
  | .answeredNegatively channel sequence code =>
    s!"packet {label channel sequence} delivered with negative ack {code.toNat}"
  | .unmatchedAck channel sequence => s!"ack for {label channel sequence} without commitment"
  | .packetTimedOut channel sequence => s!"packet {label channel sequence} timed out"
  | .receiptsPruned count channel => s!"pruned {count.toNat} receipt(s) on {shown channel}"
  | .notTrusted who => s!"{who.toNat} is not a trusted relayer"
  | .relayerAdded relayer => s!"relayer {relayer.toNat} added"
  | .relayerRemoved relayer => s!"relayer {relayer.toNat} removed"
  | .lastRelayerRemoved relayer =>
    s!"last relayer {relayer.toNat} removed: packets, acks and handshakes stall until " ++
      "one is added"
  | .agentMapped chain remote agent =>
    s!"{shown chain}/{shown remote} mapped to local agent {agent.toNat}"

/-- The line with its level in front. -/
def render (line : LogLine) : String := line.level.name ++ " " ++ line.text

end LogLine

end RelayLedger
