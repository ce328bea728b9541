import RelayLedger.Proofs.Runs

/-!
Steps of a ledger whose applications hand in no calls. Such a step makes one call at most, so
what it does to the lanes and to the chronicle is what this call says, or nothing.
-/
namespace RelayLedger

open Reception

/-- What comes of a call from outside to a ledger whose applications hand in no calls: it is
refused, it has its effect, or it brings a packet in. -/
inductive QuietCall (cfg : Config) (w : World) : Origin → Submission → World → Prop
  | refused {origin : Origin} {s : Submission} (host : Host) :
      QuietCall cfg w origin s { w with host := host }
  | call {origin : Origin} {s : Submission} {call : Call} {l : Ledger} {e : Event} (host : Host)
      (hcall : s.call? cfg = some call) (hok : (w.take cfg (.call origin s)).1 = .ok ())
      (heffect : Effect cfg w origin call l e) :
      QuietCall cfg w origin s { w.book origin call l e with host := host }
  | receive {who : Account} {s : Submission} {p : Packet} {channel : Channel}
      {agent : Option AgentId} {ack : Acknowledgement} (deliveries : List Delivery) (host : Host)
      (hcall : s.call? cfg = some (.receive p))
      (hok : (w.take cfg (.call (.signed who) s)).1 = .ok ())
      (hadmitted : Admitted w who p channel) :
      QuietCall cfg w (.signed who) s
        { w.book (.signed who) (.receive p)
            { receipted w.ledger w.ledger.height p ack with deliveries := deliveries }
            (news who p agent ack) with
          host := host }

theorem take_quietCall (cfg : Config) {w : World} (hquiet : w.host.Quiet) (origin : Origin)
    (s : Submission) : QuietCall cfg w origin s (w.take cfg (.call origin s)).2 := by
  rcases hrun : w.take cfg (.call origin s) with ⟨fault | _, after⟩
  · obtain ⟨host, rfl⟩ := take_call_error hrun
    exact .refused host
  · have hok : (w.take cfg (.call origin s)).1 = .ok () := by rw [hrun]
    obtain ⟨call, mid, hcall, hperform, rfl⟩ := take_call_ok_iff.mp hrun
    by_cases hreceive : ∃ p, call = .receive p
    · obtain ⟨p, rfl⟩ := hreceive
      obtain ⟨who, channel, agent, ack, late, rfl, hadmitted, hanswered, rfl⟩ :=
        receive_ok hperform
      obtain ⟨deliveries, host, rfl⟩ := hanswered.eq_of_quiet hquiet
      exact .receive deliveries host hcall hok hadmitted
    · have hnot : ∀ p, call ≠ .receive p := fun p hp => hreceive ⟨p, hp⟩
      obtain ⟨l, e, lines, heffect, rfl⟩ := Inversion.caused_of_ok hnot hperform
      exact .call { w.host with log := lines } hcall hok heffect

/-- What a step does to the lanes and the chronicle of a ledger whose applications hand in no
calls. -/
inductive QuietStep (cfg : Config) (w : World) : Step → World → Prop
  | idle {step : Step} {after : World}
      (hlane : ∀ id, after.ledger.lane id = w.ledger.lane id)
      (hchronicle : after.chronicle = w.chronicle) : QuietStep cfg w step after
  | call {origin : Origin} {s : Submission} {call : Call} {l : Ledger} {e : Event}
      {after : World} (hcall : s.call? cfg = some call)
      (hok : (w.take cfg (.call origin s)).1 = .ok ())
      (heffect : Effect cfg w origin call l e)
      (hlane : ∀ id, after.ledger.lane id = l.lane id)
      (hchronicle : after.chronicle = (w.book origin call l e).chronicle) :
      QuietStep cfg w (.call origin s) after
  | receive {who : Account} {s : Submission} {p : Packet} {channel : Channel}
      {agent : Option AgentId} {ack : Acknowledgement} {after : World}
      (hcall : s.call? cfg = some (.receive p))
      (hok : (w.take cfg (.call (.signed who) s)).1 = .ok ())
      (hadmitted : Admitted w who p channel)
      (hlane : ∀ id, after.ledger.lane id =
        (receipted w.ledger w.ledger.height p ack).lane id)
      (hchronicle : after.chronicle = (w.book (.signed who) (.receive p)
        (receipted w.ledger w.ledger.height p ack) (news who p agent ack)).chronicle) :
      QuietStep cfg w (.call (.signed who) s) after

variable {cfg : Config} {w : World} {step : Step}

theorem take_quiet (cfg : Config) (hquiet : step.Quiet w) :
    QuietStep cfg w step (w.take cfg step).2 := by
  cases step with
  | reach height => exact .idle (fun _ => rfl) rfl
  | setRegistry registry => exact .idle (fun _ => rfl) rfl
  | install topic app => exact .idle (fun _ => rfl) rfl
  | call origin s =>
    have hcall := take_quietCall cfg hquiet origin s
    generalize (w.take cfg (.call origin s)).2 = after at hcall ⊢
    cases hcall with
    | refused host => exact .idle (fun _ => rfl) rfl
    | call host hcall hok heffect => exact .call hcall hok heffect (fun _ => rfl) rfl
    | receive deliveries host hcall hok hadmitted =>
      exact .receive hcall hok hadmitted (fun _ => rfl) rfl

end RelayLedger
