import RelayLedger.Proofs.Receipts
import RelayLedger.Proofs.Runs

/-!
The packets that one call takes in for good, with everything that is nested in it. The lists
follow the execution: a failed call and a rejected payload leave nothing, and a packet comes
after those that its application took in, since its receipt is written after theirs.
-/
namespace RelayLedger

open Reception

/-- A channel and a number on it. -/
abbrev Place := Bytes × Sequence

def Packet.place (p : Packet) : Place := (p.target, p.sequence)

/-- The packets that were received, by their places. -/
def Chronicle.received (c : Chronicle) : List Place :=
  c.events.filterMap fun
    | .packetReceived channel sequence .. => some (channel, sequence)
    | _ => none

/-- The deliveries that applications accepted, by the places of their packets. -/
def Ledger.accepted (l : Ledger) : List Place :=
  l.deliveries.map fun d => (d.channel, d.sequence)

namespace Ledger

def receiptAt (l : Ledger) (place : Place) : Option Receipt := l.receipt place.1 place.2

/-- A receipt for a packet that could still be in time; no call can prune it. -/
def LiveAt (l : Ledger) (place : Place) : Prop :=
  ∃ r, l.receiptAt place = some r ∧ l.height < r.timeout

end Ledger

/-- A packet taken in for good. -/
structure Intake where
  place : Place
  /-- The places whose deliveries were under way when the packet came in. -/
  within : List Place
  /-- What its receipt was written over. -/
  found : Option Receipt

/-- What the calls of a script take in, if the script is followed to its end. -/
def Script.intakes (submit : Origin → Submission → Relay Unit)
    (taken : Origin → Submission → World → List Intake) : Script → World → List Intake
  | .finish _, _ => []
  | .submit origin s next, w =>
    taken origin s w ++ (next ((submit origin s).run w).1).intakes submit taken
      (((submit origin s).run w).2.see (.nested ((submit origin s).run w).1))

/-- What the application for a delivery takes in, if it is let have it. -/
def Application.intakes (submit : Origin → Submission → Relay Unit)
    (taken : Origin → Submission → World → List Intake) (d : Delivery) (w : World) :
    List Intake :=
  match w.host.applications with
  | none => []
  | some applications =>
    (scriptFor applications d).intakes submit taken (begin applications d w)

namespace Packet

/-- What is taken in while a packet is answered; `nested` tells it for its delivery. Nothing
is left of it unless the application accepts the payload. -/
def nestedIntakes (handle : Handler) (nested : Delivery → World → List Intake) (p : Packet)
    (channel : Channel) (w : World) : List Intake :=
  match Inbound.assign w.ledger w.host.registry channel p with
  | .error _ => []
  | .ok (content, _) =>
    if (handle (delivery p content) w).1 = .accepted then
      nested (delivery p content) w
    else []

/-- What is taken in with a packet that is received, itself last. -/
def intakes (handle : Handler) (nested : Delivery → World → List Intake) (busy : List Place)
    (p : Packet) (w : World) : List Intake :=
  match (w.ledger.lane p.target).channel with
  | none => []
  | some channel =>
    p.nestedIntakes handle nested channel w ++
      [⟨p.place, busy,
        ((Inbound.answer handle channel p).run w).2.ledger.receiptAt p.place⟩]

end Packet

/-- What a submission takes in while the deliveries for the `busy` places are under way. -/
def enterIntakes (cfg : Config) (handle : Handler)
    (nested : Place → Delivery → World → List Intake) (busy : List Place) (origin : Origin)
    (s : Submission) (w : World) : List Intake :=
  match s.call? cfg, ((enter cfg handle origin s).run w).1 with
  | some (.receive p), .ok () => p.intakes handle (nested p.place) busy w
  | _, _ => []

section

variable {cfg : Config} {handle : Handler} {nested : Place → Delivery → World → List Intake}
  {busy : List Place} {origin : Origin} {s : Submission} {w after : World}

theorem Packet.intakes_of_channel {nested : Delivery → World → List Intake} {p : Packet}
    {channel : Channel} (h : (w.ledger.lane p.target).channel = some channel) :
    p.intakes handle nested busy w =
      p.nestedIntakes handle nested channel w ++
        [⟨p.place, busy,
          ((Inbound.answer handle channel p).run w).2.ledger.receiptAt p.place⟩] := by
  rw [intakes, h]

theorem enterIntakes_of_error {fault : Fault}
    (h : (enter cfg handle origin s).run w = (.error fault, after)) :
    enterIntakes cfg handle nested busy origin s w = [] := by
  unfold enterIntakes
  rw [h]
  split
  · next hok => cases hok
  · rfl

theorem enterIntakes_of_receive {p : Packet} (hcall : s.call? cfg = some (.receive p))
    (h : (enter cfg handle origin s).run w = (.ok (), after)) :
    enterIntakes cfg handle nested busy origin s w =
      p.intakes handle (nested p.place) busy w := by
  simp only [enterIntakes, hcall, h]

theorem enterIntakes_of_other {call : Call} (hcall : s.call? cfg = some call)
    (hother : ∀ p, call ≠ .receive p) : enterIntakes cfg handle nested busy origin s w = [] := by
  unfold enterIntakes
  rw [hcall]
  split
  · next p heq _ => exact absurd (Option.some.inj heq) (hother p)
  · rfl

end

/-- What a submission with so many layers left takes in. -/
def dispatchIntakes (cfg : Config) :
    Nat → List Place → Origin → Submission → World → List Intake
  | 0, _, _, _, _ => []
  | 1, busy, origin, s, w =>
    enterIntakes cfg (fun _ => pure .tooDeep) (fun _ _ _ => []) busy origin s w
  | layers + 2, busy, origin, s, w =>
    enterIntakes cfg (Application.handler (dispatch cfg layers))
      (fun place => Application.intakes (dispatch cfg layers)
        (dispatchIntakes cfg layers (place :: busy))) busy origin s w

/-- The packets that a call from outside takes in for good. -/
def World.intakes (cfg : Config) (w : World) (origin : Origin) (s : Submission) : List Intake :=
  dispatchIntakes cfg layerLimit [] origin s w

end RelayLedger
