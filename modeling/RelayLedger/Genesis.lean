import RelayLedger.Capacity
import RelayLedger.Ledger

/-!
How a ledger begins, and which configurations are sound enough to begin with.
-/
namespace RelayLedger

namespace Genesis

/-- The distinct accounts of a list in order of first occurrence, if they keep to a limit. -/
def distinct? (limit : UInt32) : List Account → List Account → Option (List Account)
  | known, [] => some known
  | known, who :: rest =>
    match Capacity.insertNew limit known who with
    | .ok known => distinct? limit known rest
    | .error .duplicate => distinct? limit known rest
    | .error .full => none

/-- The ledger that trusts some relayers and has nothing else. -/
def ledger? (cfg : Config) (relayers : List Account) : Option Ledger :=
  (distinct? cfg.relayerLimit [] relayers).map fun relayers => { Ledger.initial with relayers }

end Genesis

/-- What makes a configuration unsound. -/
inductive Unsound
  | noTimeout
  | noPending
  | noRelayers
  | noPruning
  | channelIdsTooShort
  deriving DecidableEq

namespace Unsound

def message : Unsound → String
  | .noTimeout => "PacketTimeoutBlocks must be non-zero"
  | .noPending => "MaxPendingPackets must be non-zero"
  | .noRelayers => "MaxRelayers must be non-zero"
  | .noPruning => "MaxPruneBatch must be non-zero"
  | .channelIdsTooShort => "MaxChannelIdLen too small for generated channel IDs"

end Unsound

/-- The first thing that makes a configuration unsound. -/
def Config.unsound? (cfg : Config) : Option Unsound :=
  if cfg.timeoutBlocks = 0 then some .noTimeout
  else if cfg.pendingLimit = 0 then some .noPending
  else if cfg.relayerLimit = 0 then some .noRelayers
  else if cfg.pruneLimit = 0 then some .noPruning
  else if cfg.channelIdLimit < 28 then some .channelIdsTooShort
  else none

/-- What a ledger says when it cannot begin with all its relayers. -/
def Genesis.tooManyRelayers : String := "genesis relayers exceed MaxRelayers"

end RelayLedger
