import RelayLedger.Packet

/-!
The calls that change a ledger, and their byte layout. Identifiers stand in a call as they
were given, whatever their length; only packets, payloads, acknowledgements and batches are
held to their limits by the layout.
-/
namespace RelayLedger

inductive Call
  | openChannel (chain counterparty : Bytes)
  | confirmOpen (channel : Bytes)
  | startClose (channel : Bytes)
  | confirmClose (channel : Bytes)
  | send (channel chain counterparty : Bytes) (agent : Option Bytes) (payload : Payload)
  | receive (packet : Packet)
  | acknowledge (channel : Bytes) (sequence : Sequence) (ack : Acknowledgement)
  | timeOut (channel : Bytes) (sequence : Sequence)
  | addRelayer (relayer : Account)
  | removeRelayer (relayer : Account)
  | mapAgent (chain remote : Bytes) (agent : AgentId)
  | unmapAgent (chain remote : Bytes)
  | prune (channel : Bytes) (sequences : List Sequence)
  deriving DecidableEq

namespace Call

open Layout in
def cases (cfg : Config) : List (Case Call) :=
  [.of (anyBytes.pair anyBytes) (fun (chain, counterparty) => .openChannel chain counterparty)
      fun | .openChannel chain counterparty => some (chain, counterparty) | _ => none,
    .of anyBytes .confirmOpen fun | .confirmOpen channel => some channel | _ => none,
    .of anyBytes .startClose fun | .startClose channel => some channel | _ => none,
    .of anyBytes .confirmClose fun | .confirmClose channel => some channel | _ => none,
    .of (anyBytes.pair (anyBytes.pair (anyBytes.pair (anyBytes.option.pair
        (Payload.layout cfg)))))
      (fun (channel, chain, counterparty, agent, payload) =>
        .send channel chain counterparty agent payload)
      fun
        | .send channel chain counterparty agent payload =>
          some (channel, chain, counterparty, agent, payload)
        | _ => none,
    .of (Packet.layout cfg) .receive fun | .receive packet => some packet | _ => none,
    .of (anyBytes.pair (word64.pair (Acknowledgement.layout cfg)))
      (fun (channel, sequence, ack) => .acknowledge channel sequence ack)
      fun | .acknowledge channel sequence ack => some (channel, sequence, ack) | _ => none,
    .of (anyBytes.pair word64) (fun (channel, sequence) => .timeOut channel sequence)
      fun | .timeOut channel sequence => some (channel, sequence) | _ => none,
    .of word64 .addRelayer fun | .addRelayer relayer => some relayer | _ => none,
    .of word64 .removeRelayer fun | .removeRelayer relayer => some relayer | _ => none,
    .of (anyBytes.pair (anyBytes.pair word64))
      (fun (chain, remote, agent) => .mapAgent chain remote agent)
      fun | .mapAgent chain remote agent => some (chain, remote, agent) | _ => none,
    .of (anyBytes.pair anyBytes) (fun (chain, remote) => .unmapAgent chain remote)
      fun | .unmapAgent chain remote => some (chain, remote) | _ => none,
    .of (anyBytes.pair (list cfg.pruneLimit.toNat word64))
      (fun (channel, sequences) => .prune channel sequences)
      fun | .prune channel sequences => some (channel, sequences) | _ => none]

def layout (cfg : Config) : Layout Call := Layout.oneOf (cases cfg)

end Call

/-- A call as it is handed in: as a value, or as the bytes of one. -/
inductive Submission
  | value (call : Call)
  | bytes (input : Bytes)

/-- The call that is handed in; one that its layout does not admit is none. -/
def Submission.call? (cfg : Config) : Submission → Option Call
  | .value call => if (Call.layout cfg).admits call then some call else none
  | .bytes input => (Call.layout cfg).readAll input

end RelayLedger
