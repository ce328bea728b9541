import RelayLedger.Proofs.QuietStep

/-!
Channels side by side. A call on a channel looks at the lane of the channel and at nothing else
that another such call can change, and it writes nothing but this lane, the chronicle and the
log. So where no application hands in calls, two calls on different channels come to the same in
either order, the order of their events apart.
-/
namespace RelayLedger

/-- What a call on a channel can see. -/
structure View where
  lane : Lane
  height : Height
  relayers : List Account
  peers : Table Bytes Peer
  registry : Registry

/-- What a call on a channel leaves: the lane of the channel, and what it adds to the chronicle
and to the log. -/
structure Mark where
  lane : Lane
  events : List Event
  deeds : List Deed
  lines : List LogLine

namespace Mark

/-- The mark of a step of which the chronicle does not tell. -/
def untold (lane : Lane) (lines : List LogLine) : Mark := ⟨lane, [], [], lines⟩

/-- The mark of two steps, one after the other. -/
def followedBy (m next : Mark) : Mark where
  lane := next.lane
  events := m.events ++ next.events
  deeds := m.deeds ++ next.deeds
  lines := m.lines ++ next.lines

end Mark

namespace World

variable (w : World) (id : Bytes)

def view : View :=
  ⟨w.ledger.lane id, w.ledger.height, w.ledger.relayers, w.ledger.peers, w.host.registry⟩

/-- The world with a mark on one channel. -/
def mark (m : Mark) : World where
  ledger := w.ledger.modifyLane id fun _ => m.lane
  chronicle := ⟨w.chronicle.events ++ m.events, w.chronicle.deeds ++ m.deeds⟩
  host := { w.host with log := w.host.log ++ m.lines }

/-- A mark with the lane as it was leaves the ledger. -/
theorem mark_view_lane (events : List Event) (deeds : List Deed) (lines : List LogLine) :
    w.mark id ⟨(w.view id).lane, events, deeds, lines⟩ =
      { ledger := w.ledger
        chronicle := ⟨w.chronicle.events ++ events, w.chronicle.deeds ++ deeds⟩
        host := { w.host with log := w.host.log ++ lines } } := by
  have hledger : w.ledger.modifyLane id (fun _ => w.ledger.lane id) = w.ledger := by
    rw [Ledger.modifyLane, Table.modify, Ledger.lane, Table.set_get]
  simp only [mark, view, hledger]

theorem mark_untold (lines : List LogLine) :
    w.mark id (.untold (w.view id).lane lines) = { w with host.log := w.host.log ++ lines } := by
  rw [Mark.untold, mark_view_lane, List.append_nil, List.append_nil]

/-- Taken back, a mark is only seen in the log. -/
theorem rollback_mark (m : Mark) :
    (w.mark id m).rollback w = w.mark id (.untold (w.view id).lane m.lines) :=
  (w.mark_untold id m.lines).symm

variable {id} {m next : Mark}

theorem mark_mark : (w.mark id m).mark id next = w.mark id (m.followedBy next) := by
  simp only [mark, Mark.followedBy, Ledger.modifyLane_modifyLane, List.append_assoc]

theorem view_mark : (w.mark id m).view id = { w.view id with lane := m.lane } := by
  simp only [view, mark, Ledger.lane_modifyLane, if_pos]
  rfl

/-- A mark on one channel is not seen from another one. -/
theorem view_mark_of_ne {other : Bytes} (h : other ≠ id) :
    (w.mark id m).view other = w.view other := by
  simp only [view, mark, Ledger.lane_modifyLane, if_neg h]
  rfl

/-- Marks on different channels may trade places on the ledger. -/
theorem ledger_mark_comm {other : Bytes} (h : id ≠ other) :
    ((w.mark id m).mark other next).ledger = ((w.mark other next).mark id m).ledger := by
  simp only [mark, Ledger.modifyLane, Table.modify]
  rw [Table.set_comm _ _ _ h]

end World

namespace Relay

variable {α β : Type} {id : Bytes}

/-- As long as there are no applications, what a step sees of the world through one channel
tells what comes of it and what mark it leaves on the channel; and it leaves nothing else. -/
def Confined (id : Bytes) (act : Relay α) : Prop :=
  ∀ v : View, ∃ outcome m, ∀ w : World, w.host.applications = none → w.view id = v →
    act.run w = (outcome, w.mark id m)

/-- A step is confined if its outcome and its mark can be told from the view. -/
theorem confined_of_run {act : Relay α} (outcome : View → Except Fault α) (m : View → Mark)
    (h : ∀ w, w.host.applications = none →
      act.run w = (outcome (w.view id), w.mark id (m (w.view id)))) : act.Confined id :=
  fun v => ⟨outcome v, m v, fun w hnone hview => hview ▸ h w hnone⟩

/-- A step that only looks is confined if what it finds can be told from the view. -/
theorem confined_of_still {act : Relay α} (outcome : View → Except Fault α)
    (h : ∀ w, w.host.applications = none → act.run w = (outcome (w.view id), w)) :
    act.Confined id :=
  confined_of_run outcome (fun v => .untold v.lane []) fun w hnone => by
    rw [h w hnone, World.mark_untold, List.append_nil]

/-- A step may look at the view before it goes on. -/
theorem confined_of_view {act : Relay α} (f : View → Relay α) (hf : ∀ v, (f v).Confined id)
    (h : ∀ w, act.run w = (f (w.view id)).run w) : act.Confined id := by
  intro v
  obtain ⟨outcome, m, hrun⟩ := hf v v
  refine ⟨outcome, m, fun w hnone hview => ?_⟩
  rw [h w, hview]
  exact hrun w hnone hview

/-! What is confined step by step is confined as a whole. -/

theorem Confined.bind {act : Relay α} {f : α → Relay β} (h : act.Confined id)
    (hf : ∀ a, (f a).Confined id) : (act >>= f).Confined id := by
  intro v
  obtain ⟨outcome, m, hrun⟩ := h v
  cases outcome with
  | error fault =>
    refine ⟨.error fault, m, fun w hnone hview => ?_⟩
    rw [run_bind, hrun w hnone hview]
  | ok a =>
    -- what follows sees the channel as the first step left it
    obtain ⟨outcome, next, hnext⟩ := hf a { v with lane := m.lane }
    refine ⟨outcome, m.followedBy next, fun w hnone hview => ?_⟩
    rw [run_bind, hrun w hnone hview, ← World.mark_mark]
    exact hnext _ hnone (by rw [World.view_mark, hview])

theorem Confined.discard {act : Relay α} (h : act.Confined id) : (discard act).Confined id := by
  intro v
  obtain ⟨outcome, m, hrun⟩ := h v
  refine ⟨outcome.map fun _ => PUnit.unit, m, fun w hnone hview => ?_⟩
  rw [run_discard, hrun w hnone hview]

theorem Confined.transaction {act : Relay α} (h : act.Confined id) :
    (transaction act).Confined id := by
  intro v
  obtain ⟨outcome, m, hrun⟩ := h v
  cases outcome with
  | ok a =>
    refine ⟨.ok a, m, fun w hnone hview => ?_⟩
    rw [run_transaction, hrun w hnone hview]
  | error fault =>
    refine ⟨.error fault, .untold v.lane m.lines, fun w hnone hview => ?_⟩
    rw [run_transaction, hrun w hnone hview, ← hview, ← World.rollback_mark]

/-! The steps that the programs of the calls are made of. -/

theorem confined_pure (a : α) : (pure a : Relay α).Confined id :=
  confined_of_still (fun _ => .ok a) fun _ _ => rfl

theorem confined_throw (fault : Fault) : (throw fault : Relay α).Confined id :=
  confined_of_still (fun _ => .error fault) fun _ _ => rfl

theorem confined_lane : (lane id).Confined id :=
  confined_of_still (fun v => .ok v.lane) fun _ _ => rfl

theorem confined_now : now.Confined id :=
  confined_of_still (fun v => .ok v.height) fun _ _ => rfl

theorem confined_log (line : LogLine) : (log line).Confined id :=
  confined_of_run (fun _ => .ok ()) (fun v => .untold v.lane [line]) fun w _ => by
    rw [World.mark_untold]
    rfl

theorem confined_updateLane (f : Lane → Lane) : (updateLane id f).Confined id :=
  confined_of_run (fun _ => .ok ()) (fun v => .untold (f v.lane) []) fun w _ => by
    simp only [run_updateLane, World.mark, Mark.untold, List.append_nil]
    rfl

theorem confined_emit (e : Event) : (emit e).Confined id :=
  confined_of_run (fun _ => .ok ())
    (fun v => ⟨v.lane, if v.height = 0 then [] else [e], [], []⟩) fun w _ => by
    rw [World.mark_view_lane, run_emit, World.view, Chronicle.tell, List.append_nil,
      List.append_nil]
    split
    · rw [List.append_nil]
    · rfl

theorem confined_enroll (origin : Origin) (call : Call) : (enroll origin call).Confined id :=
  confined_of_run (fun _ => .ok ()) (fun v => ⟨v.lane, [], [⟨v.height, origin, call⟩], []⟩)
    fun w _ => by
    rw [World.mark_view_lane, run_enroll, Chronicle.enroll, List.append_nil, List.append_nil]
    rfl

variable (line : LogLine) (why : Refusal)

theorem confined_reject : (reject line why : Relay α).Confined id :=
  (confined_log line).bind fun _ => confined_throw _

theorem confined_require (c : Bool) : (require c why).Confined id := by
  cases c with
  | true => exact confined_pure ()
  | false => exact confined_throw _

theorem confined_ensure (c : Bool) : (ensure c line why).Confined id := by
  cases c with
  | true => exact confined_pure ()
  | false => exact confined_reject line why

theorem confined_demand (x : Option α) : (demand x why).Confined id := by
  cases x with
  | some a => exact confined_pure a
  | none => exact confined_throw _

theorem confined_expect (x : Option α) : (expect x line why).Confined id := by
  cases x with
  | some a => exact confined_pure a
  | none => exact confined_reject line why

theorem confined_settle (x : Except Refusal α) : (settle x).Confined id := by
  cases x with
  | ok a => exact confined_pure a
  | error why => exact confined_throw _

end Relay

/-! The programs of the calls on a channel. -/

open Relay

section

variable {cfg : Config} {id : Bytes}

theorem Lifecycle.confined_advance (step : Handshake) : (advance id step).Confined id :=
  confined_lane.bind fun lane =>
    (confined_demand .channelNotFound lane.channel).bind fun channel =>
    (confined_expect _ _ (channel.state.step step)).bind fun _ =>
    confined_now.bind fun _ => confined_updateLane _

theorem Lifecycle.confined_confirmOpen (who : Account) : (confirmOpen who id).Confined id :=
  (confined_advance .confirmOpen).bind fun _ =>
    (confined_log _).bind fun _ => confined_emit _

theorem Lifecycle.confined_startClose : (startClose id).Confined id :=
  (confined_advance .startClose).bind fun _ =>
    (confined_log _).bind fun _ => confined_emit _

theorem Lifecycle.confined_confirmClose (who : Account) : (confirmClose who id).Confined id :=
  (confined_advance .confirmClose).bind fun _ =>
    confined_lane.bind fun _ => (confined_log _).bind fun _ => confined_emit _

theorem Outbound.confined_send (who : Account) (chain counterparty : Bytes)
    (agent : Option Bytes) (payload : Payload) :
    (send cfg who id chain counterparty agent payload).Confined id :=
  confined_lane.bind fun lane => confined_now.bind fun _ =>
    (confined_demand _ lane.channel).bind fun _ =>
    (confined_require _ _).bind fun _ => (confined_require _ _).bind fun _ =>
    (confined_require _ _).bind fun _ => (confined_require _ _).bind fun _ =>
    (confined_expect _ _ _).bind fun _ => (confined_updateLane _).bind fun _ =>
    (confined_demand _ lane.sequences).bind fun _ =>
    (confined_updateLane _).bind fun _ => (confined_log _).bind fun _ =>
    (confined_emit _).bind fun _ => confined_pure _

theorem Outbound.confined_acknowledge (s : Sequence) (ack : Acknowledgement) :
    (acknowledge cfg id s ack).Confined id :=
  confined_lane.bind fun _ => (confined_ensure _ _ _).bind fun _ =>
    confined_now.bind fun _ => (confined_updateLane _).bind fun _ => confined_emit _

theorem Outbound.confined_timeOut (s : Sequence) : (timeOut id s).Confined id :=
  confined_lane.bind fun _ => (confined_demand _ _).bind fun _ =>
    confined_now.bind fun _ => (confined_require _ _).bind fun _ =>
    (confined_updateLane _).bind fun _ => (confined_log _).bind fun _ => confined_emit _

theorem Inbound.confined_prune (sequences : List Sequence) : (prune cfg id sequences).Confined id :=
  confined_lane.bind fun _ => confined_now.bind fun _ =>
    (confined_settle _).bind fun _ => (confined_updateLane _).bind fun _ =>
    (confined_log _).bind fun _ => confined_emit _

/-! Receiving also looks at the relayers, at the agents and at the registry, which no call on a
channel changes. -/

theorem Inbound.confined_requireTrusted (who : Account) : (requireTrusted who).Confined id :=
  confined_of_view (fun v => ensure (who ∈ v.relayers) (.notTrusted who) .notTrustedRelayer)
    (fun _ => confined_ensure _ _ _) fun _ => rfl

/-- Whom a packet concerns is a matter of the mapped agents. -/
theorem Inbound.assign_congr {l other : Ledger} (h : l.peers = other.peers) (registry : Registry)
    (channel : Channel) (p : Packet) :
    assign l registry channel p = assign other registry channel p := by
  have hresolve : resolve l registry = resolve other registry := by
    funext chain remote
    rw [resolve, resolve, Ledger.agentOf, Ledger.agentOf, Ledger.peer, Ledger.peer, h]
  have hnamed : resolveNamed l registry = resolveNamed other registry := by
    funext chain remote
    cases remote with
    | none => rfl
    | some remote => rw [resolveNamed, resolveNamed, hresolve]
  rw [assign, assign, hresolve, hnamed]

variable (cfg) in
/-- Where there are no applications, every payload that has a taker is accepted unseen. -/
theorem Inbound.confined_deliver (layers : Nat) (channel : Channel) (p : Packet) :
    (deliver (handlerAt cfg (layers + 1)) channel p).Confined id :=
  confined_of_still
    (fun v => .ok ((assign { Ledger.initial with peers := v.peers } v.registry channel p).map
      Prod.snd))
    fun w hnone => by
    have hassign : assign { Ledger.initial with peers := w.ledger.peers } w.host.registry channel
        p = assign w.ledger w.host.registry channel p := assign_congr rfl _ _ _
    rw [World.view, hassign, deliver, run_get_bind]
    cases assign w.ledger w.host.registry channel p with
    | error why => rfl
    | ok found =>
      obtain ⟨content, agent⟩ := found
      have hhandle : handlerAt cfg (layers + 1) ⟨p.target, p.sequence, content⟩ w =
          (.accepted, w) := Application.handler_of_none (dispatch cfg layers) hnone
      simp only [run_bind, Reception.run_handOver, hhandle]
      rfl

variable (cfg) in
theorem Inbound.confined_answer (layers : Nat) (channel : Channel) (p : Packet) :
    (answer (handlerAt cfg (layers + 1)) channel p).Confined id := by
  refine (confined_deliver cfg layers channel p).bind fun found => ?_
  cases found with
  | ok agent => exact confined_pure _
  | error why => exact (confined_log _).bind fun _ => confined_pure _

variable (cfg) in
theorem Inbound.confined_receive (layers : Nat) (who : Account) (p : Packet) :
    (receive (handlerAt cfg (layers + 1)) who p).Confined p.target :=
  (confined_requireTrusted who).bind fun _ => confined_lane.bind fun lane =>
    (confined_demand _ lane.channel).bind fun _ =>
    (confined_require _ _).bind fun _ => (confined_require _ _).bind fun _ =>
    (confined_ensure _ _ _).bind fun _ => confined_now.bind fun _ =>
    (confined_ensure _ _ _).bind fun _ => (confined_answer cfg layers _ p).bind fun _ =>
    (confined_updateLane _).bind fun _ => confined_emit _

theorem Origin.confined_signer (origin : Origin) : origin.signer.Confined id := by
  cases origin with
  | signed who => exact confined_pure who
  | root | unsigned | other => exact confined_throw _

namespace Call

/-- The channel that a call is about, unless it opens one or is about none. -/
def channelOf : Call → Option Bytes
  | .confirmOpen channel | .startClose channel | .confirmClose channel => some channel
  | .send channel .. | .acknowledge channel .. | .timeOut channel _ => some channel
  | .prune channel _ => some channel
  | .receive packet => some packet.target
  | _ => none

theorem confined_guardOrigin (passes : Bool) : (guardOrigin passes).Confined id := by
  cases passes with
  | true => exact confined_pure ()
  | false => exact confined_throw _

theorem confined_trustedSigner (origin : Origin) : (trustedSigner origin).Confined id :=
  origin.confined_signer.bind fun who =>
    (Inbound.confined_requireTrusted who).bind fun _ => confined_pure who

theorem confined_guardAgents (agent : Option Bytes) :
    (agent.forM (guardAgent cfg)).Confined id := by
  cases agent with
  | none => exact confined_pure _
  | some remote => exact confined_require _ _

/-- Without applications a call on a channel is confined to it. -/
theorem confined_perform (layers : Nat) (origin : Origin) {call : Call}
    (h : call.channelOf = some id) :
    (call.perform cfg (handlerAt cfg (layers + 1)) origin).Confined id := by
  cases call with
  | confirmOpen channel =>
    obtain rfl := Option.some.inj h
    exact (confined_trustedSigner origin).bind fun who => (confined_require _ _).bind fun _ =>
      Lifecycle.confined_confirmOpen who
  | startClose channel =>
    obtain rfl := Option.some.inj h
    exact (confined_guardOrigin _).bind fun _ => (confined_require _ _).bind fun _ =>
      Lifecycle.confined_startClose
  | confirmClose channel =>
    obtain rfl := Option.some.inj h
    exact (confined_trustedSigner origin).bind fun who => (confined_require _ _).bind fun _ =>
      Lifecycle.confined_confirmClose who
  | send channel chain counterparty agent payload =>
    obtain rfl := Option.some.inj h
    exact origin.confined_signer.bind fun who => (confined_require _ _).bind fun _ =>
      (confined_require _ _).bind fun _ => (confined_require _ _).bind fun _ =>
      (confined_guardAgents agent).bind fun _ =>
      (Outbound.confined_send who chain counterparty agent payload).discard
  | receive packet =>
    obtain rfl := Option.some.inj h
    exact origin.confined_signer.bind fun who => Inbound.confined_receive cfg layers who packet
  | acknowledge channel s ack =>
    obtain rfl := Option.some.inj h
    exact (confined_trustedSigner origin).discard.bind fun _ =>
      (confined_require _ _).bind fun _ => Outbound.confined_acknowledge s ack
  | timeOut channel s =>
    obtain rfl := Option.some.inj h
    exact origin.confined_signer.discard.bind fun _ => (confined_require _ _).bind fun _ =>
      Outbound.confined_timeOut s
  | prune channel sequences =>
    obtain rfl := Option.some.inj h
    exact origin.confined_signer.discard.bind fun _ => (confined_require _ _).bind fun _ =>
      Inbound.confined_prune sequences
  | openChannel | addRelayer | removeRelayer | mapAgent | unmapAgent => cases h

end Call

theorem confined_submit (origin : Origin) {s : Submission} {call : Call}
    (hcall : s.call? cfg = some call) (h : call.channelOf = some id) :
    (submit cfg origin s).Confined id := by
  rw [submit_eq]
  simp only [enter, hcall]
  exact ((Call.confined_perform 253 origin h).bind fun _ => confined_enroll origin call).transaction

end

/-- A call that is carried out tells of one event, whatever its applications are given. -/
theorem exists_told_of_perform {cfg : Config} {layers : Nat} {w mid : World} {origin : Origin}
    {call : Call} (hquiet : w.host.Quiet)
    (h : (call.perform cfg (handlerAt cfg layers) origin).run w = (.ok (), mid)) :
    ∃ e, mid.chronicle.events = (w.chronicle.tell w.ledger.height e).events := by
  by_cases hreceive : ∃ p, call = .receive p
  · obtain ⟨p, rfl⟩ := hreceive
    obtain ⟨_, _, _, _, _, rfl, _, hanswered, rfl⟩ := Reception.receive_ok h
    obtain ⟨_, _, rfl⟩ := hanswered.eq_of_quiet hquiet
    exact ⟨_, rfl⟩
  · have hnot : ∀ p, call ≠ .receive p := fun p hp => hreceive ⟨p, hp⟩
    obtain ⟨l, e, _, heffect, rfl⟩ := Inversion.caused_of_ok hnot h
    exact ⟨e, by rw [heffect.height_eq]⟩

/-- A call that takes effect tells of it in one event, but before the first block of none; and a
call that fails tells of nothing. -/
theorem World.told_of_take (cfg : Config) {w : World} (hquiet : w.host.Quiet) (origin : Origin)
    (s : Submission) :
    ∃ e : Option Event, (w.take cfg (.call origin s)).2.chronicle.events =
        w.chronicle.events ++ e.toList ∧
      (e.isSome ↔ (w.take cfg (.call origin s)).1 = .ok () ∧ w.ledger.height ≠ 0) := by
  rcases hrun : w.take cfg (.call origin s) with ⟨fault | _, after⟩
  · obtain ⟨host, rfl⟩ := take_call_error hrun
    exact ⟨none, by simp, by simp⟩
  · obtain ⟨call, mid, -, hperform, rfl⟩ := take_call_ok_iff.mp hrun
    obtain ⟨e, he⟩ := exists_told_of_perform hquiet hperform
    rw [Chronicle.events_tell] at he
    by_cases hzero : w.ledger.height = 0
    · rw [if_pos hzero] at he
      exact ⟨none, by simpa [Chronicle.enroll] using he, by simp [hzero]⟩
    · rw [if_neg hzero] at he
      exact ⟨some e, by simpa [Chronicle.enroll] using he, by simp [hzero]⟩

/-- Without applications, two calls on different channels come to the same in either order. Each
of them has the outcome and tells of the event that it has without the other one before it, and
the ledger is the same in the end; only the order of the events is not. -/
theorem calls_on_different_channels_commute {cfg : Config} {w : World} {x y : Submission}
    {call other : Call} {i j : Bytes} (hnone : w.host.applications = none)
    (hx : x.call? cfg = some call) (hy : y.call? cfg = some other)
    (hi : call.channelOf = some i) (hj : other.channelOf = some j) (hij : i ≠ j) (a b : Origin) :
    ∃ (rx ry : Outcome) (ex ey : Option Event) (wx wy wxy wyx : World),
      w.take cfg (.call a x) = (rx, wx) ∧ wx.take cfg (.call b y) = (ry, wxy) ∧
      w.take cfg (.call b y) = (ry, wy) ∧ wy.take cfg (.call a x) = (rx, wyx) ∧
      wxy.ledger = wyx.ledger ∧
      wx.chronicle.events = w.chronicle.events ++ ex.toList ∧
      wxy.chronicle.events = w.chronicle.events ++ (ex.toList ++ ey.toList) ∧
      wy.chronicle.events = w.chronicle.events ++ ey.toList ∧
      wyx.chronicle.events = w.chronicle.events ++ (ey.toList ++ ex.toList) ∧
      (ex.isSome ↔ rx = .ok () ∧ w.ledger.height ≠ 0) ∧
      (ey.isSome ↔ ry = .ok () ∧ w.ledger.height ≠ 0) := by
  have hquiet : w.host.Quiet := by
    intro applications happlications
    rw [hnone] at happlications
    cases happlications
  obtain ⟨rx, mx, hrunx⟩ := confined_submit a hx hi (w.view i)
  obtain ⟨ry, my, hruny⟩ := confined_submit b hy hj (w.view j)
  -- neither call sees the mark of the other one
  have hwx : w.take cfg (.call a x) = (rx, w.mark i mx) := hrunx w hnone rfl
  have hwy : w.take cfg (.call b y) = (ry, w.mark j my) := hruny w hnone rfl
  have hwxy : (w.mark i mx).take cfg (.call b y) = (ry, (w.mark i mx).mark j my) :=
    hruny _ hnone (w.view_mark_of_ne hij.symm)
  have hwyx : (w.mark j my).take cfg (.call a x) = (rx, (w.mark j my).mark i mx) :=
    hrunx _ hnone (w.view_mark_of_ne hij)
  obtain ⟨ex, hex, hsomex⟩ := w.told_of_take cfg hquiet a x
  obtain ⟨ey, hey, hsomey⟩ := w.told_of_take cfg hquiet b y
  rw [hwx] at hex hsomex
  rw [hwy] at hey hsomey
  have hmx : mx.events = ex.toList := List.append_cancel_left hex
  have hmy : my.events = ey.toList := List.append_cancel_left hey
  refine ⟨rx, ry, ex, ey, _, _, _, _, hwx, hwxy, hwy, hwyx, World.ledger_mark_comm w hij, hex, ?_,
    hey, ?_, hsomex, hsomey⟩
  · rw [← hmx, ← hmy]
    exact List.append_assoc ..
  · rw [← hmx, ← hmy]
    exact List.append_assoc ..

namespace Small

/-- A world without applications, in which two channels are open. -/
def neighbours : World :=
  World.after cfg ⟨{ Ledger.initial with relayers := [10] }, .empty, .opening host.registry false⟩
    [.reach 1, .call .root (.value (.openChannel [1] [2])),
      .call .root (.value (.openChannel [1] [2])),
      .call (.signed 10) (.value (.confirmOpen channel)),
      .call (.signed 10) (.value (.confirmOpen (Channel.idOf 1)))]

/-- A packet for the second channel. -/
def neighbourly : Submission := .value (.receive { packet 70 with target := Channel.idOf 1 })

/-- The first channel sends and the second one receives, in either order. -/
theorem neighbours_commute :
    ∃ wx wy wxy wyx, neighbours.take cfg (.call (.signed 1) sending) = (.ok (), wx) ∧
      wx.take cfg (.call (.signed 10) neighbourly) = (.ok (), wxy) ∧
      neighbours.take cfg (.call (.signed 10) neighbourly) = (.ok (), wy) ∧
      wy.take cfg (.call (.signed 1) sending) = (.ok (), wyx) ∧
      wxy.ledger = wyx.ledger ∧ (wxy.ledger.lane channel).pending = 1 ∧
      wxy.chronicle.events.length = neighbours.chronicle.events.length + 2 := by
  have hsend : sending.call? cfg = some (.send channel [1] [2] none (.raw [7])) := rfl
  have hreceive : neighbourly.call? cfg =
      some (.receive { packet 70 with target := Channel.idOf 1 }) := rfl
  obtain ⟨rx, ry, ex, ey, wx, wy, wxy, wyx, hx, hxy, hy, hyx, hledger, -, hevents, -, -, hex,
    hey⟩ := calls_on_different_channels_commute (w := neighbours) rfl hsend hreceive rfl rfl
      (by decide) (.signed 1) (.signed 10)
  obtain rfl : Except.ok () = rx := congrArg Prod.fst hx
  obtain rfl : Except.ok () = ry := congrArg Prod.fst hy
  have hheight : neighbours.ledger.height ≠ 0 := by decide
  obtain ⟨e, rfl⟩ := Option.isSome_iff_exists.mp (hex.mpr ⟨rfl, hheight⟩)
  obtain ⟨e', rfl⟩ := Option.isSome_iff_exists.mp (hey.mpr ⟨rfl, hheight⟩)
  have hpending : (((neighbours.take cfg (.call (.signed 1) sending)).2.take cfg
      (.call (.signed 10) neighbourly)).2.ledger.lane channel).pending = 1 := rfl
  rw [hx, hxy] at hpending
  refine ⟨wx, wy, wxy, wyx, hx, hxy, hy, hyx, hledger, hpending, ?_⟩
  rw [hevents, List.length_append]
  rfl

end Small

end RelayLedger
