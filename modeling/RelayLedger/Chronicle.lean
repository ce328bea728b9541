import RelayLedger.Call
import RelayLedger.Event

/-!
The chronicle of a ledger: the events that it told of, and the calls that took effect, each in
order. What a failed call added to the chronicle is taken back with what it did to the ledger.
-/
namespace RelayLedger

/-- A call that took effect. -/
structure Deed where
  height : Height
  origin : Origin
  call : Call
  deriving DecidableEq

structure Chronicle where
  events : List Event
  deeds : List Deed
  deriving DecidableEq

namespace Chronicle

def empty : Chronicle := ⟨[], []⟩

/-- The chronicle with an event at a height; before the first block no event is recorded. -/
def tell (c : Chronicle) (height : Height) (e : Event) : Chronicle :=
  if height = 0 then c else { c with events := c.events ++ [e] }

/-- The chronicle with a call that took effect. -/
def enroll (c : Chronicle) (d : Deed) : Chronicle := { c with deeds := c.deeds ++ [d] }

end Chronicle

end RelayLedger
