import RelayLedger.Dispatch
import RelayLedger.Genesis

/-!
Runs of a ledger: from its beginning through the things that happen to it from outside.
-/
namespace RelayLedger

/-- One thing that happens to a ledger from outside. -/
inductive Step
  /-- The block number becomes `height`. -/
  | reach (height : Height)
  | setRegistry (registry : Registry)
  | install (topic : Topic) (app : Application)
  | call (origin : Origin) (call : Submission)

namespace World

/-- The world in which a ledger begins, if all its relayers can be trusted. -/
def genesis? (cfg : Config) (relayers : List Account) (host : Host) : Option World :=
  (Genesis.ledger? cfg relayers).map fun ledger => ⟨ledger, .empty, host⟩

/-- What comes of a step; only calls can fail. -/
def take (cfg : Config) (w : World) : Step → Outcome × World
  | .reach height => (.ok (), { w with ledger.height := height })
  | .setRegistry registry => (.ok (), { w with host.registry := registry })
  | .install topic app => (.ok (), { w with host := w.host.install topic app })
  | .call origin call => (submit cfg origin call).run w

/-- What comes of several steps, one after another. -/
def takeAll (cfg : Config) (w : World) : List Step → List Outcome × World
  | [] => ([], w)
  | step :: rest =>
    let (outcome, next) := w.take cfg step
    let (outcomes, last) := next.takeAll cfg rest
    (outcome :: outcomes, last)

end World

end RelayLedger
