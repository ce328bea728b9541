import RelayLedger.Capacity
import RelayLedger.Relay

/-!
Which local agents the agents of other chains stand for. A mapping is never overwritten: it
has to be removed before the remote agent can stand for another local one.
-/
namespace RelayLedger.Agents

def map (cfg : Config) (chain remote : Bytes) (agent : AgentId) : Relay Unit := do
  let w ← get
  Relay.require (w.host.registry.knows agent) .agentNotFound
  Relay.require (w.ledger.agentOf chain remote).isNone .crossChainAgentAlreadyMapped
  let mapped ← Relay.demand
    (Capacity.increment? cfg.mappingLimit (w.ledger.peer chain).mapped) .tooManyAgentMappings
  Relay.update fun l => l.modifyPeer chain fun p =>
    { p with mapped, agents := p.agents.set remote (some agent) }
  Relay.log (.agentMapped chain remote agent)
  Relay.emit (.agentMapped chain remote agent)

def unmap (chain remote : Bytes) : Relay Unit := do
  let l ← Relay.ledger
  let agent ← Relay.demand (l.agentOf chain remote) .crossChainAgentNotFound
  Relay.update fun l => l.modifyPeer chain fun p =>
    { p with mapped := Capacity.decrement p.mapped, agents := p.agents.set remote none }
  Relay.emit (.agentUnmapped chain remote agent)

end RelayLedger.Agents
