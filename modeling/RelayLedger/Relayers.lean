import RelayLedger.Capacity
import RelayLedger.Relay

/-!
The set of trusted relayers, kept in order of admission.
-/
namespace RelayLedger.Relayers

/-- Why an account is not taken into the set. -/
def refusal : Capacity.Rejection → Refusal
  | .duplicate => .relayerAlreadyRegistered
  | .full => .tooManyRelayers

def add (cfg : Config) (relayer : Account) : Relay Unit := do
  let l ← Relay.ledger
  let relayers ← Relay.settle
    ((Capacity.insertNew cfg.relayerLimit l.relayers relayer).mapError refusal)
  Relay.update fun l => { l with relayers }
  Relay.log (.relayerAdded relayer)
  Relay.emit (.relayerAdded relayer)

/-- Removes a relayer, the last one too. -/
def remove (relayer : Account) : Relay Unit := do
  let l ← Relay.ledger
  let relayers ← Relay.demand (Capacity.remove? l.relayers relayer) .relayerNotFound
  Relay.update fun l => { l with relayers }
  Relay.log (if relayers = [] then .lastRelayerRemoved relayer else .relayerRemoved relayer)
  Relay.emit (.relayerRemoved relayer)

end RelayLedger.Relayers
