import RelayLedger.Packet

/-!
The events by which a ledger tells of what was done, with their byte layout.
-/
namespace RelayLedger

inductive Event
  | channelOpened (channel chain counterparty : Bytes)
  | openConfirmed (channel : Bytes) (relayer : Account)
  | closeStarted (channel : Bytes)
  | channelClosed (channel : Bytes) (relayer : Account)
  | packetSent (sender : Account) (packet : Packet) (commitment : Digest)
  | packetReceived (channel : Bytes) (sequence : Sequence) (relayer : Account)
      (agent : Option AgentId) (success : Bool) (code : Option UInt16)
  | packetAcknowledged (channel : Bytes) (sequence : Sequence) (success : Bool)
      (code : Option UInt16)
  | packetTimedOut (channel : Bytes) (sequence : Sequence)
  | receiptsPruned (channel : Bytes) (count : UInt32)
  | relayerAdded (relayer : Account)
  | relayerRemoved (relayer : Account)
  | agentMapped (chain remote : Bytes) (agent : AgentId)
  | agentUnmapped (chain remote : Bytes) (agent : AgentId)
  deriving DecidableEq

namespace Event

open Layout in
def cases (cfg : Config) : List (Case Event) :=
  [.of (anyBytes.pair (anyBytes.pair anyBytes))
      (fun (channel, chain, counterparty) => .channelOpened channel chain counterparty)
      fun
        | .channelOpened channel chain counterparty => some (channel, chain, counterparty)
        | _ => none,
    .of (anyBytes.pair word64) (fun (channel, relayer) => .openConfirmed channel relayer)
      fun | .openConfirmed channel relayer => some (channel, relayer) | _ => none,
    .of anyBytes .closeStarted fun | .closeStarted channel => some channel | _ => none,
    .of (anyBytes.pair word64) (fun (channel, relayer) => .channelClosed channel relayer)
      fun | .channelClosed channel relayer => some (channel, relayer) | _ => none,
    .of (word64.pair ((Packet.layout cfg).pair Digest.layout))
      (fun (sender, packet, commitment) => .packetSent sender packet commitment)
      fun
        | .packetSent sender packet commitment => some (sender, packet, commitment)
        | _ => none,
    .of (anyBytes.pair (word64.pair (word64.pair (word64.option.pair
        (bool.pair word16.option)))))
      (fun (channel, sequence, relayer, agent, success, code) =>
        .packetReceived channel sequence relayer agent success code)
      fun
        | .packetReceived channel sequence relayer agent success code =>
          some (channel, sequence, relayer, agent, success, code)
        | _ => none,
    .of (anyBytes.pair (word64.pair (bool.pair word16.option)))
      (fun (channel, sequence, success, code) =>
        .packetAcknowledged channel sequence success code)
      fun
        | .packetAcknowledged channel sequence success code =>
          some (channel, sequence, success, code)
        | _ => none,
    .of (anyBytes.pair word64) (fun (channel, sequence) => .packetTimedOut channel sequence)
      fun | .packetTimedOut channel sequence => some (channel, sequence) | _ => none,
    .of (anyBytes.pair word32) (fun (channel, count) => .receiptsPruned channel count)
      fun | .receiptsPruned channel count => some (channel, count) | _ => none,
    .of word64 .relayerAdded fun | .relayerAdded relayer => some relayer | _ => none,
    .of word64 .relayerRemoved fun | .relayerRemoved relayer => some relayer | _ => none,
    .of (anyBytes.pair (anyBytes.pair word64))
      (fun (chain, remote, agent) => .agentMapped chain remote agent)
      fun | .agentMapped chain remote agent => some (chain, remote, agent) | _ => none,
    .of (anyBytes.pair (anyBytes.pair word64))
      (fun (chain, remote, agent) => .agentUnmapped chain remote agent)
      fun | .agentUnmapped chain remote agent => some (chain, remote, agent) | _ => none]

def layout (cfg : Config) : Layout Event := Layout.oneOf (cases cfg)

end Event

end RelayLedger
