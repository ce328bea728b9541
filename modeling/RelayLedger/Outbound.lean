import RelayLedger.Capacity
import RelayLedger.Relay

/-!
Packets that leave the ledger. A packet that is sent takes the next number of its channel and
one of the channel's pending places, and leaves a commitment; an acknowledgement or its
timeout takes the commitment away again and gives the place back.
-/
namespace RelayLedger

namespace Lane

/-- The lane with a packet committed under the number that was next. -/
def commit (l : Lane) (counts : Sequences) (c : Commitment) : Lane :=
  { l with
    sequences := some counts.afterSend
    commitments := l.commitments.set counts.send (some c) }

/-- The lane with a commitment taken away and its place given back. -/
def release (l : Lane) (s : Sequence) : Lane :=
  { l with commitments := l.commitments.set s none, pending := Capacity.decrement l.pending }

/-- The lane with one more acknowledgement counted. -/
def countAck (l : Lane) : Lane :=
  { l with sequences := l.sequences.map Sequences.afterAck }

/-- The lane with an acknowledgement kept; the oldest one makes room for it. -/
def retain (limit : UInt32) (l : Lane) (s : Sequence) (r : AckRecord) : Lane :=
  let acks := l.acks.set s (some r)
  match Capacity.pushEvicting limit l.retained s with
  | (none, retained) => { l with acks, retained }
  | (some evicted, retained) => { l with acks := acks.set evicted none, retained }

/-- Keeping an acknowledgement changes nothing but the acknowledgements that are kept. -/
theorem retain_eq (limit : UInt32) (l : Lane) (s : Sequence) (r : AckRecord) :
    retain limit l s r =
      { l with
        acks := (retain limit l s r).acks
        retained := (retain limit l s r).retained } := by
  unfold retain
  split <;> rfl

end Lane

namespace Outbound

/-- Sends a packet to the counterparty of an opened channel and gives its number. -/
def send (cfg : Config) (sender : Account) (id chain counterparty : Bytes)
    (agent : Option Bytes) (payload : Payload) : Relay Sequence := do
  let lane ← Relay.lane id
  let now ← Relay.now
  let channel ← Relay.demand lane.channel .channelNotFound
  Relay.require channel.state.isOpen .channelNotOpen
  Relay.require (channel.chain = chain && channel.counterparty = counterparty) .channelMismatch
  Relay.require (!payload.isAck) .unexpectedAckPayload
  Relay.require (payload.size cfg ≤ cfg.payloadLimit.toNat) .payloadTooLong
  let pending ← Relay.expect (Capacity.increment? cfg.pendingLimit lane.pending)
    (.sendHeldBack id lane.pending) .pendingPacketLimitExceeded
  Relay.updateLane id fun l => { l with pending }
  let counts ← Relay.demand lane.sequences .channelNotFound
  let packet : Packet :=
    { sequence := counts.send, source := id, chain, target := counterparty, agent, payload
      timeout := now.after cfg.timeoutBlocks }
  let hash := packet.commitmentHash cfg
  Relay.updateLane id fun l => l.commit counts ⟨hash, packet.timeout⟩
  Relay.log (.packetCommitted id packet.sequence packet.timeout)
  Relay.emit (.packetSent sender packet hash)
  return packet.sequence

/-- Settles a sent packet with the answer of the receiving ledger. -/
def acknowledge (cfg : Config) (id : Bytes) (s : Sequence) (ack : Acknowledgement) :
    Relay Unit := do
  let lane ← Relay.lane id
  Relay.ensure (lane.commitments.get s).isSome (.unmatchedAck id s) .packetNotFound
  let now ← Relay.now
  Relay.updateLane id fun l =>
    Lane.retain cfg.pendingLimit (l.release s).countAck s ⟨ack, now⟩
  Relay.emit (.packetAcknowledged id s ack.success ack.code)

/-- Settles a sent packet whose timeout has come. -/
def timeOut (id : Bytes) (s : Sequence) : Relay Unit := do
  let lane ← Relay.lane id
  let commitment ← Relay.demand (lane.commitments.get s) .packetNotFound
  let now ← Relay.now
  Relay.require (commitment.timeout ≤ now) .packetNotTimedOut
  Relay.updateLane id fun l => l.release s
  Relay.log (.packetTimedOut id s)
  Relay.emit (.packetTimedOut id s)

end Outbound

end RelayLedger
