import RelayLedger.Proofs.Reception

/-!
What can come of a world while calls are carried out. A call that a script hands in is nested
in the delivery that the script belongs to, and a delivery in the call that received its
packet. What a failed call or a rejected payload did is taken back, so what is left of a call
with everything nested in it is a course of effects, one after another, in which only the
checks of a packet and its receipt stand apart.
-/
namespace RelayLedger

open Reception

/-- The world `after` can come of `w` while calls are carried out. -/
inductive Proceeds (cfg : Config) : World → World → Prop
  | refl (w : World) : Proceeds cfg w w
  | host {w mid : World} (host : Host) (h : Proceeds cfg w mid) :
      Proceeds cfg w { mid with host := host }
  | deliver {w mid : World} (d : Delivery) (h : Proceeds cfg w mid) :
      Proceeds cfg w { mid with ledger := mid.ledger.deliver d }
  | call {w mid : World} {origin : Origin} {call : Call} {l : Ledger} {e : Event}
      (h : Proceeds cfg w mid) (heffect : Effect cfg mid origin call l e) :
      Proceeds cfg w (mid.book origin call l e)
  | receive {w mid late : World} {who : Account} {p : Packet} {channel : Channel}
      (agent : Option AgentId) (ack : Acknowledgement) (h : Proceeds cfg w mid)
      (hadmitted : Admitted mid who p channel) (hnested : Proceeds cfg mid late) :
      Proceeds cfg w (late.book (.signed who) (.receive p)
        (receipted late.ledger mid.ledger.height p ack) (news who p agent ack))

namespace Proceeds

variable {cfg : Config} {w mid after : World}

theorem trans (h : Proceeds cfg w mid) (hnext : Proceeds cfg mid after) :
    Proceeds cfg w after := by
  induction hnext with
  | refl => exact h
  | host host _ ih => exact .host host (ih h)
  | deliver d _ ih => exact .deliver d (ih h)
  | call _ heffect ih => exact .call (ih h) heffect
  | receive agent ack _ hadmitted hnested ih =>
    exact .receive agent ack (ih h) hadmitted hnested

theorem height_eq (h : Proceeds cfg w after) : after.ledger.height = w.ledger.height := by
  induction h with
  | refl => rfl
  | host _ _ ih => exact ih
  | deliver _ _ ih => exact ih
  | call _ heffect ih => exact heffect.height_eq.trans ih
  | receive _ _ _ _ _ ih hlate => exact hlate.trans ih

end Proceeds

/-- No application hands in calls of its own. -/
def Host.Quiet (h : Host) : Prop :=
  ∀ applications, h.applications = some applications →
    ∀ topic turn d, ∃ accepts, (applications topic).plan turn d = .finish accepts

/-- The world with one more thing seen of its applications. -/
def World.see (w : World) (sighting : Sighting) : World :=
  { w with host.sightings := w.host.sightings ++ [sighting] }

namespace Application

variable (submit : Origin → Submission → Relay Unit)

/-- The script that the application for a delivery follows. -/
def scriptFor (applications : Topic → Application) (d : Delivery) : Script :=
  (applications d.content.topic).plan (applications d.content.topic).turn d

/-- The world in which an application begins with a delivery. -/
def begin (applications : Topic → Application) (d : Delivery) (w : World) : World :=
  { w with
    ledger := w.ledger.deliver d
    host.applications := some fun topic =>
      if topic = d.content.topic then
        { applications d.content.topic with turn := (applications d.content.topic).turn + 1 }
      else applications topic
    host.sightings := w.host.sightings ++ [.delivered d] }

theorem handler_of_none {d : Delivery} {w : World} (h : w.host.applications = none) :
    handler submit d w = (.accepted, w) := by
  simp only [handler, bind, StateT.bind, get, getThe, MonadStateOf.get, StateT.get, pure, h]
  rfl

theorem handler_of_some {d : Delivery} {w : World} {applications : Topic → Application}
    (h : w.host.applications = some applications) :
    handler submit d w = follow submit (scriptFor applications d) (begin applications d w) := by
  simp only [handler, bind, StateT.bind, get, getThe, MonadStateOf.get, StateT.get, pure, h]
  rfl

theorem follow_submit (origin : Origin) (s : Submission) (next : Outcome → Script) (w : World) :
    follow submit (.submit origin s next) w =
      follow submit (next ((submit origin s).run w).1)
        (((submit origin s).run w).2.see (.nested ((submit origin s).run w).1)) := (rfl)

/-- From a world in which it follows a script, an application comes to a world in which it hands
in a submission. -/
inductive Hands : Script → World → Origin → Submission → World → Prop
  | now {origin : Origin} {s : Submission} {next : Outcome → Script} {w : World} :
      Hands (.submit origin s next) w origin s w
  | later {origin other : Origin} {s t : Submission} {next : Outcome → Script} {w mid : World}
      (h : Hands (next ((submit origin s).run w).1)
        (((submit origin s).run w).2.see (.nested ((submit origin s).run w).1)) other t mid) :
      Hands (.submit origin s next) w other t mid

variable {submit}

variable (submit) in
/-- A quiet application leaves the ledger but for its own record of the delivery. -/
theorem handler_of_quiet {w : World} (hquiet : w.host.Quiet) (d : Delivery) :
    (handler submit d w).2 = w ∨
      ∃ applications, (handler submit d w).2 = begin applications d w := by
  cases h : w.host.applications with
  | none =>
    rw [handler_of_none submit h]
    exact .inl rfl
  | some applications =>
    obtain ⟨accepts, hscript⟩ := hquiet applications h d.content.topic
      (applications d.content.topic).turn d
    rw [handler_of_some submit h, scriptFor, hscript]
    exact .inr ⟨applications, rfl⟩

theorem begin_proceeds {cfg : Config} (applications : Topic → Application) (d : Delivery)
    (w : World) : Proceeds cfg w (begin applications d w) :=
  .host (begin applications d w).host (.deliver d (.refl w))

variable {cfg : Config} (hsubmit : ∀ origin s w, Proceeds cfg w ((submit origin s).run w).2)
include hsubmit

theorem follow_proceeds (script : Script) (w : World) :
    Proceeds cfg w (follow submit script w).2 := by
  induction script generalizing w with
  | finish accepts => exact .refl w
  | submit origin s next ih =>
    rw [follow_submit]
    exact (Proceeds.host _ (hsubmit origin s w)).trans (ih _ _)

theorem Hands.proceeds {script : Script} {origin : Origin} {s : Submission} {w mid : World}
    (h : Hands submit script w origin s mid) : Proceeds cfg w mid := by
  induction h with
  | now => exact .refl _
  | @later origin _ s _ _ w _ _ ih => exact (Proceeds.host _ (hsubmit origin s w)).trans ih

theorem handler_proceeds (d : Delivery) (w : World) :
    Proceeds cfg w (handler submit d w).2 := by
  cases h : w.host.applications with
  | none =>
    rw [handler_of_none submit h]
    exact .refl w
  | some applications =>
    rw [handler_of_some submit h]
    exact (begin_proceeds applications d w).trans (follow_proceeds hsubmit _ _)

end Application

/-! Carrying out a call that was handed in. -/

section Entering

variable {cfg : Config} {handle : Handler} {origin : Origin} {s : Submission} {w after : World}

theorem run_enter_of_some {call : Call} (h : s.call? cfg = some call) :
    (enter cfg handle origin s).run w =
      match (call.perform cfg handle origin).run w with
      | (.ok (), mid) => (.ok (),
        { mid with chronicle := mid.chronicle.enroll ⟨mid.ledger.height, origin, call⟩ })
      | (.error fault, mid) =>
        (.error fault, { w with host := { mid.host with registry := w.host.registry } }) := by
  simp only [enter, h, Relay.run_transaction, Relay.run_bind, Relay.run_enroll]
  rcases (call.perform cfg handle origin).run w with ⟨fault | _, mid⟩ <;> rfl

/-- A submission takes effect if its call is carried out, and is then noted down. -/
theorem enter_ok_iff :
    (enter cfg handle origin s).run w = (.ok (), after) ↔
      ∃ call mid, s.call? cfg = some call ∧
        (call.perform cfg handle origin).run w = (.ok (), mid) ∧
        after = { mid with
          chronicle := mid.chronicle.enroll ⟨mid.ledger.height, origin, call⟩ } := by
  cases hcall : s.call? cfg with
  | none => simp [enter, hcall]
  | some call =>
    rw [run_enter_of_some hcall]
    rcases hperform : (call.perform cfg handle origin).run w with ⟨fault | _, mid⟩
    · simp [hperform]
    · simp [hperform, eq_comm]

/-- A submission that fails leaves the ledger and its chronicle as they were. -/
theorem enter_error {fault : Fault}
    (h : (enter cfg handle origin s).run w = (.error fault, after)) :
    ∃ host, after = { w with host := host } := by
  cases hcall : s.call? cfg with
  | none =>
    simp only [enter, hcall, Relay.run_throw, Prod.mk.injEq] at h
    exact ⟨w.host, h.2.symm⟩
  | some call =>
    rw [run_enter_of_some hcall] at h
    rcases hperform : (call.perform cfg handle origin).run w with ⟨_ | _, mid⟩ <;>
      simp only [hperform, Prod.mk.injEq, reduceCtorEq, false_and] at h
    exact ⟨_, h.2.symm⟩

theorem Reception.Answered.proceeds {channel : Channel} {p : Packet} {agent : Option AgentId}
    {ack : Acknowledgement} (hhandle : ∀ d w, Proceeds cfg w (handle d w).2)
    (h : Answered handle w channel p agent ack after) : Proceeds cfg w after := by
  cases h with
  | unassigned => exact .host _ (.refl w)
  | @accepted content _ _ hassign haccepted =>
    have hwork := hhandle (delivery p content) w
    rwa [haccepted] at hwork
  | rejected => exact .host _ (.refl w)

theorem enter_proceeds (hhandle : ∀ d w, Proceeds cfg w (handle d w).2) (origin : Origin)
    (s : Submission) (w : World) : Proceeds cfg w ((enter cfg handle origin s).run w).2 := by
  rcases h : (enter cfg handle origin s).run w with ⟨fault | _, after⟩
  · obtain ⟨host, rfl⟩ := enter_error h
    exact .host host (.refl w)
  · obtain ⟨call, mid, -, hperform, rfl⟩ := enter_ok_iff.mp h
    by_cases hcall : ∃ p, call = .receive p
    · obtain ⟨p, rfl⟩ := hcall
      obtain ⟨who, channel, agent, ack, late, rfl, hadmitted, hanswered, rfl⟩ :=
        receive_ok hperform
      exact .receive agent ack (.refl w) hadmitted (hanswered.proceeds hhandle)
    · have hother : ∀ p, call ≠ .receive p := fun p hp => hcall ⟨p, hp⟩
      obtain ⟨l, e, lines, heffect, rfl⟩ := Inversion.caused_of_ok hother hperform
      exact .host _ (.call (.refl w) heffect)

end Entering

/-- The handler of a call that has so many more layers below it. -/
def handlerAt (cfg : Config) : Nat → Handler
  | 0 => fun _ => pure .tooDeep
  | layers + 1 => Application.handler (dispatch cfg layers)

theorem dispatch_succ (cfg : Config) (layers : Nat) (origin : Origin) (s : Submission) :
    dispatch cfg (layers + 1) origin s = enter cfg (handlerAt cfg layers) origin s := by
  cases layers <;> rfl

theorem submit_eq (cfg : Config) (origin : Origin) (s : Submission) :
    submit cfg origin s = enter cfg (handlerAt cfg 254) origin s :=
  dispatch_succ cfg 254 origin s

/-- Of a packet's answer a quiet application leaves nothing but its own record and what the host
saw. -/
theorem Reception.Answered.eq_of_quiet {cfg : Config} {layers : Nat} {w mid : World}
    {channel : Channel} {p : Packet} {agent : Option AgentId} {ack : Acknowledgement}
    (hquiet : w.host.Quiet) (h : Answered (handlerAt cfg layers) w channel p agent ack mid) :
    ∃ deliveries host, mid = { w with ledger.deliveries := deliveries, host := host } := by
  cases h with
  | unassigned => exact ⟨_, _, rfl⟩
  | rejected => exact ⟨_, _, rfl⟩
  | @accepted content _ _ hassign haccepted =>
    cases layers with
    | zero => cases haccepted
    | succ layers =>
      have hrun : Application.handler (dispatch cfg layers) (delivery p content) w =
        (.accepted, mid) := haccepted
      have hmid := Application.handler_of_quiet (dispatch cfg layers) hquiet (delivery p content)
      rw [hrun] at hmid
      rcases hmid with rfl | ⟨applications, rfl⟩
      · exact ⟨_, _, rfl⟩
      · exact ⟨_, _, rfl⟩

/-- Whatever call is carried out with however many layers, the world proceeds. -/
theorem dispatch_proceeds (cfg : Config) : (layers : Nat) → (origin : Origin) →
    (s : Submission) → (w : World) → Proceeds cfg w ((dispatch cfg layers origin s).run w).2
  | 0, _, _, w => .refl w
  | 1, origin, s, w => enter_proceeds (fun _ w => .refl w) origin s w
  | layers + 2, origin, s, w =>
    enter_proceeds (Application.handler_proceeds (dispatch_proceeds cfg layers)) origin s w

end RelayLedger
