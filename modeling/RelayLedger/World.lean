import RelayLedger.Chronicle
import RelayLedger.Ledger
import RelayLedger.LogLine
import RelayLedger.Refusal

/-!
The world that a ledger lives in: the registry of local agents, the applications that inbound
payloads are handed to, and the log.
-/
namespace RelayLedger

/-- What the registry tells of local agents. -/
structure Registry where
  knows : AgentId → Bool
  isActive : AgentId → Bool

/-- The registry of the agents in some ranges, ends included, of which some are inactive. -/
def Registry.ofRanges (ranges : List (AgentId × AgentId)) (inactive : List AgentId) :
    Registry where
  knows a := ranges.any fun (first, last) => first ≤ a && a ≤ last
  isActive a := a ∉ inactive

/-- The outcome of a call. -/
abbrev Outcome := Except Fault Unit

/-- What an application does with one delivery: it hands in calls one after another, each in
the light of the outcomes so far, and accepts or rejects the delivery in the end. It neither
changes the registry nor takes back a call that was carried out, other than by rejecting the
delivery; what any handler may do is said of a `Handler`. -/
inductive Script
  | finish (accepts : Bool)
  | submit (origin : Origin) (call : Submission) (next : Outcome → Script)

/-- The script of an application that hands in the same calls whatever comes of them. -/
def Script.ofCalls (calls : List (Origin × Submission)) (accepts : Bool) : Script :=
  calls.foldr (fun (origin, call) rest => .submit origin call fun _ => rest) (.finish accepts)

/-- An application: the script for its next delivery depends on how many it had before. -/
structure Application where
  plan : Nat → Delivery → Script
  turn : Nat

namespace Application

/-- Accepts every delivery and hands in nothing. -/
def accepting : Application := ⟨fun _ _ => .finish true, 0⟩

/-- Hands in some calls at its next delivery, and none later. -/
def once (calls : List (Origin × Submission)) (accepts : Bool) : Application where
  plan turn _ := if turn = 0 then .ofCalls calls accepts else .finish accepts
  turn := 0

end Application

/-- What is seen of the applications at work. -/
inductive Sighting
  | delivered (delivery : Delivery)
  | nested (outcome : Outcome)

structure Host where
  registry : Registry
  /-- The applications; without any, every payload is taken unseen. -/
  applications : Option (Topic → Application)
  sightings : List Sighting
  log : List LogLine

namespace Host

/-- A host at the beginning, with applications that accept everything or with none. -/
def opening (registry : Registry) (withApplications : Bool) : Host where
  registry
  applications := if withApplications then some fun _ => .accepting else none
  sightings := []
  log := []

/-- The host with another application for a topic, if it has applications at all. -/
def install (h : Host) (topic : Topic) (app : Application) : Host :=
  { h with
    applications := h.applications.map fun apps other => if other = topic then app else apps other }

end Host

structure World where
  ledger : Ledger
  chronicle : Chronicle
  host : Host

namespace World

/-- The world with all that another one has in store: the ledger, the chronicle and the registry. -/
def rollback (w before : World) : World where
  ledger := before.ledger
  chronicle := before.chronicle
  host := { w.host with registry := before.host.registry }

end World

/-- How an application ends a delivery. -/
inductive Verdict
  | accepted
  | rejected
  /-- It could not be asked, because too many calls were nested already. -/
  | tooDeep
  deriving DecidableEq

/-- What hands a payload to its application. -/
abbrev Handler := Delivery → StateM World Verdict

end RelayLedger
