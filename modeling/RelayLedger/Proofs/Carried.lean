import RelayLedger.Run
import RelayLedger.Proofs.Nesting

/-!
What goes on within one call from outside. The applications that the call reaches may hand in
calls of their own, and each of these is carried out in a world in between, at the block height
of the outer call. A call that succeeds there does so for the same reasons as one from outside,
whether or not it is taken back in the end.
-/
namespace RelayLedger

open Reception

/-- While a call from outside is carried out from the world `start`, a submission is carried out
with so many layers left: it is the one from outside, or it is handed in by an application that
was given the packet of another one. -/
inductive Carried (cfg : Config) (caller : Origin) (outer : Submission) (start : World) :
    Nat → Origin → Submission → World → Prop
  | outside : Carried cfg caller outer start layerLimit caller outer start
  | nested {layers : Nat} {who : Account} {origin : Origin} {s t : Submission} {w mid : World}
      {p : Packet} {channel : Channel} {content : Content} {agent : Option AgentId}
      {applications : Topic → Application}
      (h : Carried cfg caller outer start (layers + 2) (.signed who) s w)
      (hcall : s.call? cfg = some (.receive p)) (hadmitted : Admitted w who p channel)
      (hassign : Inbound.assign w.ledger w.host.registry channel p = .ok (content, agent))
      (happlications : w.host.applications = some applications)
      (hhands : Application.Hands (dispatch cfg layers)
        (Application.scriptFor applications (delivery p content))
        (Application.begin applications (delivery p content) w) origin t mid) :
      Carried cfg caller outer start layers origin t mid

/-- With a step, by itself or nested in it, a call is carried out in the world `mid`. -/
def World.Carries (cfg : Config) (w : World) (step : Step) (origin : Origin) (call : Call)
    (mid : World) (outcome : Outcome) : Prop :=
  ∃ caller outer layers s, step = .call caller outer ∧
    Carried cfg caller outer w layers origin s mid ∧ s.call? cfg = some call ∧
    ((dispatch cfg layers origin s).run mid).1 = outcome

section

variable {cfg : Config} {caller origin : Origin} {outer s : Submission} {start mid : World}
  {layers : Nat}

theorem Carried.proceeds (h : Carried cfg caller outer start layers origin s mid) :
    Proceeds cfg start mid := by
  induction h with
  | outside => exact .refl start
  | @nested layers _ _ _ _ _ _ _ _ _ _ applications _ _ _ _ _ hhands ih =>
    exact (ih.trans (Application.begin_proceeds applications _ _)).trans
      (hhands.proceeds (dispatch_proceeds cfg layers))

/-- Every delivery takes two of the layers, so one is always left for the call itself. -/
theorem Carried.layers_odd (h : Carried cfg caller outer start layers origin s mid) :
    layers % 2 = 1 := by
  induction h with
  | outside => rfl
  | nested _ _ _ _ _ _ ih => omega

namespace World.Carries

variable {w : World} {step : Step} {call : Call} {outcome : Outcome} {p : Packet}

theorem proceeds (h : w.Carries cfg step origin call mid outcome) : Proceeds cfg w mid := by
  obtain ⟨_, _, _, _, _, hcarried, _, _⟩ := h
  exact hcarried.proceeds

theorem height_eq (h : w.Carries cfg step origin call mid outcome) :
    mid.ledger.height = w.ledger.height := h.proceeds.height_eq

/-- What a call comes to is what its program comes to, with some handler for its payload. -/
theorem outcome_eq (h : w.Carries cfg step origin call mid outcome) :
    ∃ handle, outcome = ((call.perform cfg handle origin).run mid).1 := by
  obtain ⟨_, _, layers, s, _, hcarried, hcall, rfl⟩ := h
  have hodd := hcarried.layers_odd
  obtain ⟨below, rfl⟩ : ∃ below, layers = below + 1 := ⟨layers - 1, by omega⟩
  refine ⟨handlerAt cfg below, ?_⟩
  rw [dispatch_succ, run_enter_of_some hcall]
  rcases (call.perform cfg (handlerAt cfg below) origin).run mid with ⟨fault | _, after⟩ <;> rfl

/-- A call other than receiving that succeeds has its effect. -/
theorem effect (h : w.Carries cfg step origin call mid (.ok ()))
    (hcall : ∀ p, call ≠ .receive p) : ∃ l e, Effect cfg mid origin call l e := by
  obtain ⟨handle, hok⟩ := h.outcome_eq
  obtain ⟨l, e, _, heffect, _⟩ := Inversion.caused_of_ok hcall (Prod.ext hok.symm rfl)
  exact ⟨l, e, heffect⟩

/-- A packet that is received was admitted. -/
theorem admitted (h : w.Carries cfg step origin (.receive p) mid (.ok ())) :
    ∃ who channel, origin = .signed who ∧ Admitted mid who p channel := by
  obtain ⟨handle, hok⟩ := h.outcome_eq
  exact admitted_of_receive_ok (Prod.ext hok.symm rfl)

end World.Carries

end

end RelayLedger
