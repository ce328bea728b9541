import RelayLedger.Basic

/-!
What a ledger is set up with: its limits and waiting times, and the two rights that are reserved
for some origins. Which origins have a right is up to the runtime, which may give it to root, to a
council, to every account that signs, or to nobody.
-/
namespace RelayLedger

/-- Who asks for a call to be carried out. -/
inductive Origin
  | root
  | unsigned
  | signed (who : Account)
  /-- An origin of the runtime's own, such as the vote of a council. -/
  | other (tag : Nat)
  deriving DecidableEq

/-- A right that is reserved for some origins. -/
structure Privilege where
  accepts : Origin → Bool
  /-- An origin that the runtime names as one that has the right, if it can name one. -/
  successful : Option Origin

namespace Privilege

/-- The origin that is named does have the right. -/
def Truthful (p : Privilege) : Prop :=
  ∀ origin, p.successful = some origin → p.accepts origin = true

/-- A right of root and of some accounts. -/
def rootOr (accounts : List Account) : Privilege where
  accepts
    | .root => true
    | .signed who => who ∈ accounts
    | _ => false
  successful := some .root

instance : Coe (List Account) Privilege := ⟨rootOr⟩

end Privilege

structure Config where
  /-- Trusted relayers at most. -/
  relayerLimit : UInt32
  /-- Channels towards one chain at most. -/
  channelLimit : UInt32
  channelIdLimit : UInt32
  chainIdLimit : UInt32
  agentIdLimit : UInt32
  /-- Encoded payload bytes at most. -/
  payloadLimit : UInt32
  /-- Unresolved packets, and kept acknowledgements, of one channel at most. -/
  pendingLimit : UInt32
  /-- Blocks after sending at which a packet times out. -/
  timeoutBlocks : UInt32
  /-- Blocks past its packet's timeout for which a receipt is kept. -/
  retentionBlocks : UInt32
  /-- Receipts that one call may prune at most. -/
  pruneLimit : UInt32
  /-- Mapped agents of one chain at most. -/
  mappingLimit : UInt32
  /-- The right to open and close channels and to choose the relayers. -/
  managers : Privilege
  /-- The right to map remote agents. -/
  mappingAdmins : Privilege

namespace Config

/-- Whether an origin may open and close channels and choose the relayers. -/
def isManager (cfg : Config) (origin : Origin) : Bool := cfg.managers.accepts origin

/-- Whether an origin may map remote agents. -/
def isMappingAdmin (cfg : Config) (origin : Origin) : Bool := cfg.mappingAdmins.accepts origin

end Config

end RelayLedger
