import RelayLedger.Agents
import RelayLedger.Inbound
import RelayLedger.Lifecycle
import RelayLedger.Outbound
import RelayLedger.Relayers

/-!
Carrying out calls. A call is checked against its origin and the limits of its identifiers
before it is done, and it is done as a whole or not at all. An application may hand in calls
of its own while a payload is with it, so calls nest, up to a fixed depth.
-/
namespace RelayLedger

namespace Origin

/-- The account that signed, where one has to. -/
def signer : Origin → Relay Account
  | .signed who => pure who
  | _ => throw .badOrigin

end Origin

namespace Call

/-- Lets only some origins pass. -/
def guardOrigin (passes : Bool) : Relay Unit :=
  if passes then pure () else throw .badOrigin

def guardChannel (cfg : Config) (id : Bytes) : Relay Unit :=
  Relay.require (id.fits cfg.channelIdLimit) .channelIdTooLong

def guardChain (cfg : Config) (chain : Bytes) : Relay Unit :=
  Relay.require (chain.fits cfg.chainIdLimit) .chainIdTooLong

def guardAgent (cfg : Config) (remote : Bytes) : Relay Unit :=
  Relay.require (remote.fits cfg.agentIdLimit) .remoteAgentIdTooLong

/-- The signer of a call that only trusted relayers may make. -/
def trustedSigner (origin : Origin) : Relay Account := do
  let who ← origin.signer
  Inbound.requireTrusted who
  return who

/-- Does what a call says; `handle` takes the payloads that come in by it. -/
def perform (cfg : Config) (handle : Handler) (origin : Origin) : Call → Relay Unit
  | .openChannel chain counterparty => do
    guardOrigin (cfg.isManager origin)
    guardChain cfg chain
    guardChannel cfg counterparty
    discard (Lifecycle.openChannel cfg chain counterparty)
  | .confirmOpen channel => do
    let who ← trustedSigner origin
    guardChannel cfg channel
    Lifecycle.confirmOpen who channel
  | .startClose channel => do
    guardOrigin (cfg.isManager origin)
    guardChannel cfg channel
    Lifecycle.startClose channel
  | .confirmClose channel => do
    let who ← trustedSigner origin
    guardChannel cfg channel
    Lifecycle.confirmClose who channel
  | .send channel chain counterparty agent payload => do
    let who ← origin.signer
    guardChannel cfg channel
    guardChain cfg chain
    guardChannel cfg counterparty
    agent.forM (guardAgent cfg)
    discard (Outbound.send cfg who channel chain counterparty agent payload)
  | .receive packet => do
    let who ← origin.signer
    Inbound.receive handle who packet
  | .acknowledge channel sequence ack => do
    discard (trustedSigner origin)
    guardChannel cfg channel
    Outbound.acknowledge cfg channel sequence ack
  | .timeOut channel sequence => do
    discard origin.signer
    guardChannel cfg channel
    Outbound.timeOut channel sequence
  | .addRelayer relayer => do
    guardOrigin (cfg.isManager origin)
    Relayers.add cfg relayer
  | .removeRelayer relayer => do
    guardOrigin (cfg.isManager origin)
    Relayers.remove relayer
  | .mapAgent chain remote agent => do
    guardOrigin (cfg.isMappingAdmin origin)
    guardChain cfg chain
    guardAgent cfg remote
    Agents.map cfg chain remote agent
  | .unmapAgent chain remote => do
    guardOrigin (cfg.isMappingAdmin origin)
    guardChain cfg chain
    guardAgent cfg remote
    Agents.unmap chain remote
  | .prune channel sequences => do
    discard origin.signer
    guardChannel cfg channel
    Inbound.prune cfg channel sequences

end Call

namespace Application

/-- Follows a script to its end; `submit` carries out the calls that it hands in, and what they did
stays unless the delivery is rejected. -/
def follow (submit : Origin → Submission → Relay Unit) : Script → StateM World Verdict
  | .finish accepts => pure (if accepts then .accepted else .rejected)
  | .submit origin call next => do
    let outcome ← ExceptT.run (submit origin call)
    modify fun w => { w with host.sightings := w.host.sightings ++ [.nested outcome] }
    follow submit (next outcome)

/-- The handler that gives every payload to the application for its topic. -/
def handler (submit : Origin → Submission → Relay Unit) : Handler := fun d => do
  match (← get).host.applications with
  | none => pure .accepted
  | some applications =>
    let app := applications d.content.topic
    let waiting : Topic → Application := fun topic =>
      if topic = d.content.topic then { app with turn := app.turn + 1 } else applications topic
    modify fun w =>
      { w with
        ledger.deliveries := w.ledger.deliveries ++ [d]
        host.applications := some waiting
        host.sightings := w.host.sightings ++ [.delivered d] }
    follow submit (app.plan app.turn d)

end Application

/-- Takes a call in and carries it out, all of it or nothing. -/
def enter (cfg : Config) (handle : Handler) (origin : Origin) (s : Submission) : Relay Unit :=
  match s.call? cfg with
  | none => throw .undecodable
  | some call =>
    Relay.transaction do
      call.perform cfg handle origin
      Relay.enroll origin call

/-- Carries out a call with so many layers left for it, for the applications that it reaches,
and for the calls that they hand in. -/
def dispatch (cfg : Config) : Nat → Origin → Submission → Relay Unit
  | 0, _, _ => throw .tooDeep
  | 1, origin, s => enter cfg (fun _ => pure .tooDeep) origin s
  | layers + 2, origin, s => enter cfg (Application.handler (dispatch cfg layers)) origin s

/-- How many layers there are in all. -/
def layerLimit : Nat := 255

/-- Carries out a call that comes from outside. -/
def submit (cfg : Config) (origin : Origin) (s : Submission) : Relay Unit :=
  dispatch cfg layerLimit origin s

end RelayLedger
