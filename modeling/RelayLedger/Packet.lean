import RelayLedger.Config
import RelayLedger.Channel
import RelayLedger.Digest

/-!
Packets, what they carry, and the three records that a ledger keeps of them: the commitment of
the sender, the receipt of the receiver, and the record of the acknowledgement that came back.
Every type has its byte layout here; the limits in it are those of a configuration.
-/
namespace RelayLedger

namespace Config

/-! The byte strings that a configuration limits. -/

def channelIds (cfg : Config) : Layout Bytes := .bytes cfg.channelIdLimit.toNat

def chainIds (cfg : Config) : Layout Bytes := .bytes cfg.chainIdLimit.toNat

def agentIds (cfg : Config) : Layout Bytes := .bytes cfg.agentIdLimit.toNat

/-- What packets carry. -/
def data (cfg : Config) : Layout Bytes := .bytes cfg.payloadLimit.toNat

end Config

/-- The answer of the receiving ledger to a packet. -/
structure Acknowledgement where
  success : Bool
  code : Option UInt16
  data : Bytes
  deriving DecidableEq

namespace Acknowledgement

/-- The packet was taken. -/
def ok : Acknowledgement := ⟨true, none, []⟩

/-- The packet was not taken, for the reason with this code. -/
def error (code : UInt16) : Acknowledgement := ⟨false, some code, []⟩

def layout (cfg : Config) : Layout Acknowledgement :=
  (Layout.bool.pair (Layout.word16.option.pair cfg.data)).via
    (fun a => (a.success, a.code, a.data)) (fun (success, code, data) => ⟨success, code, data⟩)

end Acknowledgement

inductive Payload
  | raw (data : Bytes)
  | task (taskId : UInt64) (requester : AgentId) (hint : Option Bytes) (hash : Digest)
  | reputation (subject : AgentId) (delta : Int32) (hash : Digest)
  | did (subject proof : Bytes)
  | ack (answer : Acknowledgement)
  deriving DecidableEq

namespace Payload

/-- Acknowledgements travel in calls of their own and not as payloads. -/
def isAck : Payload → Bool
  | .ack _ => true
  | _ => false

def cases (cfg : Config) : List (Layout.Case Payload) :=
  [.of cfg.data .raw fun | .raw bs => some bs | _ => none,
    .of (Layout.word64.pair (Layout.word64.pair (cfg.agentIds.option.pair Digest.layout)))
      (fun (taskId, requester, hint, hash) => .task taskId requester hint hash)
      fun | .task taskId requester hint hash => some (taskId, requester, hint, hash) | _ => none,
    .of (Layout.word64.pair (Layout.int32.pair Digest.layout))
      (fun (subject, delta, hash) => .reputation subject delta hash)
      fun | .reputation subject delta hash => some (subject, delta, hash) | _ => none,
    .of (cfg.data.pair cfg.data) (fun (subject, proof) => .did subject proof)
      fun | .did subject proof => some (subject, proof) | _ => none,
    .of (Acknowledgement.layout cfg) .ack fun | .ack answer => some answer | _ => none]

def layout (cfg : Config) : Layout Payload := Layout.oneOf (cases cfg)

/-- The encoded size of a payload in bytes. -/
def size (cfg : Config) (p : Payload) : Nat := ((layout cfg).write p).length

/-- A raw payload, if its data keep to the limit. -/
def ofRaw? (cfg : Config) (data : Bytes) : Option Payload :=
  if Bytes.fits cfg.payloadLimit data then some (.raw data) else none

end Payload

structure Packet where
  sequence : Sequence
  source : Bytes
  chain : Bytes
  target : Bytes
  agent : Option Bytes
  payload : Payload
  timeout : Height
  deriving DecidableEq

namespace Packet

def layout (cfg : Config) : Layout Packet :=
  (Layout.word64.pair (cfg.channelIds.pair (cfg.chainIds.pair (cfg.channelIds.pair
    (cfg.agentIds.option.pair ((Payload.layout cfg).pair Layout.word32)))))).via
    (fun p => (p.sequence, p.source, p.chain, p.target, p.agent, p.payload, p.timeout))
    (fun (sequence, source, chain, target, agent, payload, timeout) =>
      ⟨sequence, source, chain, target, agent, payload, timeout⟩)

/-- A packet is too late from its timeout height on. -/
def isExpired (p : Packet) (now : Height) : Bool := p.timeout ≤ now

/-- The text that keeps commitment hashes apart from all other hashes. -/
def commitmentTag : Bytes := Bytes.ofAscii "clawchain/packet-relay/commitment/v1"

/-- What a commitment binds: the tag, the route, number and timeout of the packet, and the
digest of its payload. -/
structure Pledge where
  tag : Bytes
  source : Bytes
  sequence : Sequence
  timeout : Height
  chain : Bytes
  target : Bytes
  agent : Option Bytes
  payload : Digest

namespace Pledge

def layout (cfg : Config) : Layout Pledge :=
  (Layout.anyBytes.pair (cfg.channelIds.pair (Layout.word64.pair (Layout.word32.pair
    (cfg.chainIds.pair (cfg.channelIds.pair (cfg.agentIds.option.pair Digest.layout))))))).via
    (fun p => (p.tag, p.source, p.sequence, p.timeout, p.chain, p.target, p.agent, p.payload))
    (fun (tag, source, sequence, timeout, chain, target, agent, payload) =>
      ⟨tag, source, sequence, timeout, chain, target, agent, payload⟩)

end Pledge

/-- The pledge of a packet. -/
def pledge (cfg : Config) (p : Packet) : Pledge where
  tag := commitmentTag
  source := p.source
  sequence := p.sequence
  timeout := p.timeout
  chain := p.chain
  target := p.target
  agent := p.agent
  payload := Blake2b.digest ((Payload.layout cfg).write p.payload)

/-- The hash by which the sending ledger commits itself to a packet. -/
def commitmentHash (cfg : Config) (p : Packet) : Digest :=
  Blake2b.digest ((Pledge.layout cfg).write (p.pledge cfg))

end Packet

/-- Kept for a packet from sending until it is acknowledged or timed out. -/
structure Commitment where
  hash : Digest
  timeout : Height
  deriving DecidableEq

/-- Kept for a packet that came in, against its repetition. -/
structure Receipt where
  receivedAt : Height
  timeout : Height
  ack : Acknowledgement
  deriving DecidableEq

/-- Kept of a packet that was acknowledged, for a while. -/
structure AckRecord where
  ack : Acknowledgement
  resolvedAt : Height
  deriving DecidableEq

def Commitment.layout : Layout Commitment :=
  (Digest.layout.pair Layout.word32).via (fun c => (c.hash, c.timeout))
    (fun (hash, timeout) => ⟨hash, timeout⟩)

def Receipt.layout (cfg : Config) : Layout Receipt :=
  (Layout.word32.pair (Layout.word32.pair (Acknowledgement.layout cfg))).via
    (fun r => (r.receivedAt, r.timeout, r.ack))
    (fun (receivedAt, timeout, ack) => ⟨receivedAt, timeout, ack⟩)

def AckRecord.layout (cfg : Config) : Layout AckRecord :=
  ((Acknowledgement.layout cfg).pair Layout.word32).via (fun r => (r.ack, r.resolvedAt))
    (fun (ack, resolvedAt) => ⟨ack, resolvedAt⟩)

def Sequences.layout : Layout Sequences :=
  (Layout.word64.pair (Layout.word64.pair Layout.word64)).via (fun s => (s.send, s.recv, s.ack))
    (fun (send, recv, ack) => ⟨send, recv, ack⟩)

def ChannelState.cases : List (Layout.Case ChannelState) :=
  [ChannelState.init, .opened, .closing, .closed].map fun s =>
    .of Layout.nothing (fun _ => s) fun t => if t = s then some () else none

def ChannelState.layout : Layout ChannelState := Layout.oneOf cases

def Channel.layout (cfg : Config) : Layout Channel :=
  (cfg.channelIds.pair (cfg.chainIds.pair (cfg.channelIds.pair (ChannelState.layout.pair
    (Layout.word32.pair (Layout.word32.option.pair Layout.word32.option)))))).via
    (fun c => (c.id, c.chain, c.counterparty, c.state, c.createdAt, c.openedAt, c.closedAt))
    (fun (id, chain, counterparty, state, createdAt, openedAt, closedAt) =>
      ⟨id, chain, counterparty, state, createdAt, openedAt, closedAt⟩)

end RelayLedger
