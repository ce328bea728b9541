import RelayLedger.Proofs.Runs

/-!
A call that can have its effect has it. Each program is run here once from the conditions of its
effect, so these are all that it asks for, and a call whose conditions hold is never refused.
-/
namespace RelayLedger

namespace Fulfilment

open Relay

variable {α β : Type} {cfg : Config} {w mid : World} {who : Account}

theorem run_bind_of_ok {x : Relay α} {a : α} (h : x.run w = (.ok a, mid)) (f : α → Relay β) :
    (x >>= f).run w = (f a).run mid := by
  rw [run_bind, h]

theorem run_discard_of_ok {x : Relay α} {a : α} (h : x.run w = (.ok a, mid)) :
    (discard x).run w = (.ok (), mid) := by
  rw [run_discard, h]
  rfl

theorem run_require {condition : Bool} (h : condition = true) (why : Refusal) :
    (require condition why).run w = (.ok (), w) := by
  rw [h]
  rfl

theorem run_guardOrigin {passes : Bool} (h : passes = true) :
    (Call.guardOrigin passes).run w = (.ok (), w) := by
  rw [h]
  rfl

theorem run_guardChannel {id : Bytes} (h : id.fits cfg.channelIdLimit = true) :
    (Call.guardChannel cfg id).run w = (.ok (), w) := run_require h _

theorem run_guardChain {chain : Bytes} (h : chain.fits cfg.chainIdLimit = true) :
    (Call.guardChain cfg chain).run w = (.ok (), w) := run_require h _

theorem run_guardAgent {remote : Bytes} (h : remote.fits cfg.agentIdLimit = true) :
    (Call.guardAgent cfg remote).run w = (.ok (), w) := run_require h _

theorem run_guardAgents {agent : Option Bytes}
    (h : ∀ remote ∈ agent, remote.fits cfg.agentIdLimit = true) :
    (agent.forM (Call.guardAgent cfg)).run w = (.ok (), w) := by
  cases agent with
  | none => rfl
  | some remote => exact run_guardAgent (h remote rfl)

theorem run_signer (who : Account) (w : World) :
    (Origin.signed who).signer.run w = (.ok who, w) := (rfl)

theorem run_trusted (h : w.ledger.isTrusted who = true) :
    (Call.trustedSigner (.signed who)).run w = (.ok who, w) := by
  have hrequired := (Inversion.requireTrusted_ok_iff (u := ())).mpr ⟨h, rfl⟩
  rw [Call.trustedSigner, run_bind_of_ok (run_signer who w), run_bind_of_ok hrequired]
  rfl

theorem run_advance {id : Bytes} {step : Handshake} {channel : Channel} {state : ChannelState}
    (hchannel : (w.ledger.lane id).channel = some channel)
    (hstate : channel.state.step step = some state) :
    (Lifecycle.advance id step).run w =
      (.ok (), { w with ledger := w.ledger.modifyLane id fun l =>
        { l with channel := some (channel.enter state w.ledger.height) } }) := by
  simp [Lifecycle.advance, hchannel, hstate]

theorem run_openChannel {chain : Bytes}
    (hid : (Channel.idOf w.ledger.counter).fits cfg.channelIdLimit = true)
    (hfree : (w.ledger.lane (Channel.idOf w.ledger.counter)).channel = none)
    (hnew : Channel.idOf w.ledger.counter ∉ (w.ledger.peer chain).channels)
    (hroom : (w.ledger.peer chain).channels.length < cfg.channelLimit.toNat)
    (counterparty : Bytes) :
    (Lifecycle.openChannel cfg chain counterparty).run w =
      (.ok (Channel.idOf w.ledger.counter),
        { w with
          ledger := w.ledger.opened chain counterparty
          chronicle := w.chronicle.tell w.ledger.height
            (.channelOpened (Channel.idOf w.ledger.counter) chain counterparty)
          host.log := w.host.log ++
            [.channelCreated (Channel.idOf w.ledger.counter) chain counterparty] }) := by
  have hinsert := Capacity.insertNew_eq_ok_iff.mpr ⟨hnew, hroom, rfl⟩
  have hsettled := mapError_ok_iff (f := Lifecycle.refusal) |>.mpr hinsert
  simp only [Lifecycle.openChannel, run_ledger_bind, run_require_bind, hid, hfree,
    Option.isNone_none, if_true, hsettled, run_settle_bind, run_update_bind, run_updateLane_bind,
    run_log_bind, run_emit_bind]
  rfl

theorem run_send {id : Bytes} {channel : Channel} {counts : Sequences} {pending : UInt32}
    {payload : Payload} (hchannel : (w.ledger.lane id).channel = some channel)
    (hopen : channel.state = .opened) (hpayload : payload.isAck = false)
    (hsize : payload.size cfg ≤ cfg.payloadLimit.toNat)
    (hpending : Capacity.increment? cfg.pendingLimit (w.ledger.lane id).pending = some pending)
    (hcounts : (w.ledger.lane id).sequences = some counts) (agent : Option Bytes) :
    (Outbound.send cfg who id channel.chain channel.counterparty agent payload).run w =
      (.ok counts.send,
        { w with
          ledger := w.ledger.modifyLane id fun l =>
            { l with pending }.commit counts
              ((Packet.draft cfg w.ledger.height counts id channel.chain channel.counterparty
                agent payload).commitment cfg)
          chronicle := w.chronicle.tell w.ledger.height (.packetSent who
            (Packet.draft cfg w.ledger.height counts id channel.chain channel.counterparty agent
              payload)
            ((Packet.draft cfg w.ledger.height counts id channel.chain channel.counterparty agent
              payload).commitmentHash cfg))
          host.log := w.host.log ++
            [.packetCommitted id counts.send (w.ledger.height.after cfg.timeoutBlocks)] }) := by
  have hisOpen : channel.state.isOpen = true := by simp [ChannelState.isOpen, hopen]
  simp only [Outbound.send, run_lane_bind, run_now_bind, run_demand_bind, hchannel,
    run_require_bind, hisOpen, hpayload, decide_eq_true hsize, run_expect_bind, hpending, hcounts,
    run_updateLane_bind, Ledger.modifyLane_modifyLane, run_log_bind, run_emit_bind, if_true,
    decide_true, Bool.and_self, Bool.not_false]
  rfl

/-! What is done once it is settled who may do it. -/

theorem run_confirmOpen {id : Bytes} {channel : Channel} {state : ChannelState}
    (hchannel : (w.ledger.lane id).channel = some channel)
    (hstate : channel.state.step .confirmOpen = some state) (who : Account) :
    ∃ lines, (Lifecycle.confirmOpen who id).run w =
      (.ok (),
        ⟨w.ledger.modifyLane id fun l =>
            { l with channel := some (channel.enter state w.ledger.height) },
          w.chronicle.tell w.ledger.height (.openConfirmed id who),
          { w.host with log := lines }⟩) := by
  rw [Lifecycle.confirmOpen, run_bind_of_ok (run_advance hchannel hstate)]
  exact ⟨_, rfl⟩

theorem run_startClose {id : Bytes} {channel : Channel} {state : ChannelState}
    (hchannel : (w.ledger.lane id).channel = some channel)
    (hstate : channel.state.step .startClose = some state) :
    ∃ lines, (Lifecycle.startClose id).run w =
      (.ok (),
        ⟨w.ledger.modifyLane id fun l =>
            { l with channel := some (channel.enter state w.ledger.height) },
          w.chronicle.tell w.ledger.height (.closeStarted id), { w.host with log := lines }⟩) := by
  rw [Lifecycle.startClose, run_bind_of_ok (run_advance hchannel hstate)]
  exact ⟨_, rfl⟩

variable (cfg) in
theorem run_acknowledge {id : Bytes} {s : Sequence} {c : Commitment}
    (hcommitment : (w.ledger.lane id).commitments.get s = some c) (ack : Acknowledgement) :
    ∃ lines, (Outbound.acknowledge cfg id s ack).run w =
      (.ok (),
        ⟨w.ledger.modifyLane id fun l =>
            Lane.retain cfg.pendingLimit (l.release s).countAck s ⟨ack, w.ledger.height⟩,
          w.chronicle.tell w.ledger.height (.packetAcknowledged id s ack.success ack.code),
          { w.host with log := lines }⟩) := by
  simp only [Outbound.acknowledge, run_lane_bind, run_ensure_bind, hcommitment,
    Option.isSome_some, if_true, run_now_bind, run_updateLane_bind]
  exact ⟨_, rfl⟩

theorem run_addRelayer {relayer : Account} (hnew : relayer ∉ w.ledger.relayers)
    (hroom : w.ledger.relayers.length < cfg.relayerLimit.toNat) :
    ∃ lines, (Relayers.add cfg relayer).run w =
      (.ok (),
        ⟨w.ledger.withRelayers (w.ledger.relayers ++ [relayer]),
          w.chronicle.tell w.ledger.height (.relayerAdded relayer),
          { w.host with log := lines }⟩) := by
  have hinsert := Capacity.insertNew_eq_ok_iff.mpr ⟨hnew, hroom, rfl⟩
  have hsettled := mapError_ok_iff (f := Relayers.refusal) |>.mpr hinsert
  simp only [Relayers.add, run_ledger_bind, hsettled, run_settle_bind]
  exact ⟨_, rfl⟩

theorem run_mapAgent {chain remote : Bytes} {agent : AgentId} {mapped : UInt32}
    (hknown : w.host.registry.knows agent = true)
    (hfree : w.ledger.agentOf chain remote = none)
    (hmapped : Capacity.increment? cfg.mappingLimit (w.ledger.peer chain).mapped = some mapped) :
    ∃ lines, (Agents.map cfg chain remote agent).run w =
      (.ok (),
        ⟨w.ledger.modifyPeer chain fun p =>
            { p with mapped, agents := p.agents.set remote (some agent) },
          w.chronicle.tell w.ledger.height (.agentMapped chain remote agent),
          { w.host with log := lines }⟩) := by
  simp only [Agents.map, run_get_bind, run_require_bind, hknown, hfree, Option.isNone_none,
    if_true, hmapped, run_demand_bind]
  exact ⟨_, rfl⟩

end Fulfilment

open Fulfilment Relay in
/-- Where a call can have its effect its program goes through and does just that. -/
theorem Effect.run_perform {cfg : Config} {w : World} {origin : Origin} {call : Call}
    {l : Ledger} {e : Event} (h : Effect cfg w origin call l e) (handle : Handler) :
    ∃ lines, (call.perform cfg handle origin).run w =
      (.ok (), ⟨l, w.chronicle.tell l.height e, { w.host with log := lines }⟩) := by
  cases h with
  | @openChannel _ chain counterparty hmanager hchain hcounterparty hid hfree hnew hroom =>
    rw [Call.perform, run_bind_of_ok (run_guardOrigin hmanager),
      run_bind_of_ok (run_guardChain hchain), run_bind_of_ok (run_guardChannel hcounterparty)]
    exact ⟨_, run_discard_of_ok (run_openChannel hid hfree hnew hroom counterparty)⟩
  | confirmOpen htrusted hid hchannel hstate =>
    rw [Call.perform, run_bind_of_ok (run_trusted htrusted),
      run_bind_of_ok (run_guardChannel hid)]
    exact run_confirmOpen hchannel hstate _
  | startClose hmanager hid hchannel hstate =>
    rw [Call.perform, run_bind_of_ok (run_guardOrigin hmanager),
      run_bind_of_ok (run_guardChannel hid)]
    exact run_startClose hchannel hstate
  | confirmClose htrusted hid hchannel hstate =>
    rw [Call.perform, run_bind_of_ok (run_trusted htrusted), run_bind_of_ok (run_guardChannel hid),
      Lifecycle.confirmClose, run_bind_of_ok (run_advance hchannel hstate)]
    exact ⟨_, rfl⟩
  | send hid hchain hcounterparty hagent hchannel hopen hroute hpayload hsize hpending hcounts =>
    obtain ⟨rfl, rfl⟩ := hroute
    rw [Call.perform, run_bind_of_ok (run_signer _ w), run_bind_of_ok (run_guardChannel hid),
      run_bind_of_ok (run_guardChain hchain), run_bind_of_ok (run_guardChannel hcounterparty),
      run_bind_of_ok (run_guardAgents hagent)]
    exact ⟨_, run_discard_of_ok
      (run_send hchannel hopen hpayload hsize hpending hcounts _)⟩
  | acknowledge htrusted hid hcommitment =>
    rw [Call.perform, run_bind_of_ok (run_discard_of_ok (run_trusted htrusted)),
      run_bind_of_ok (run_guardChannel hid)]
    exact run_acknowledge cfg hcommitment _
  | timeOut hid hcommitment hdue =>
    rw [Call.perform, run_bind_of_ok (run_discard_of_ok (run_signer _ w)),
      run_bind_of_ok (run_guardChannel hid)]
    simp only [Outbound.timeOut, run_lane_bind, run_demand_bind, hcommitment, run_now_bind,
      run_require_bind, decide_eq_true hdue, if_true, run_updateLane_bind, run_log_bind]
    exact ⟨_, rfl⟩
  | addRelayer hmanager hnew hroom =>
    rw [Call.perform, run_bind_of_ok (run_guardOrigin hmanager)]
    exact run_addRelayer hnew hroom
  | removeRelayer hmanager hmember =>
    have hremove := Capacity.remove?_eq_some_iff.mpr ⟨hmember, rfl⟩
    rw [Call.perform, run_bind_of_ok (run_guardOrigin hmanager)]
    simp only [Relayers.remove, run_ledger_bind, hremove, run_demand_bind]
    exact ⟨_, rfl⟩
  | mapAgent hadmin hchain hremote hknown hfree hmapped =>
    rw [Call.perform, run_bind_of_ok (run_guardOrigin hadmin),
      run_bind_of_ok (run_guardChain hchain), run_bind_of_ok (run_guardAgent hremote)]
    exact run_mapAgent hknown hfree hmapped
  | unmapAgent hadmin hchain hremote hagent =>
    rw [Call.perform, run_bind_of_ok (run_guardOrigin hadmin),
      run_bind_of_ok (run_guardChain hchain), run_bind_of_ok (run_guardAgent hremote)]
    simp only [Agents.unmap, run_ledger_bind, hagent, run_demand_bind]
    exact ⟨_, rfl⟩
  | prune hid hstale =>
    rw [Call.perform, run_bind_of_ok (run_discard_of_ok (run_signer _ w)),
      run_bind_of_ok (run_guardChannel hid)]
    simp only [Inbound.prune, run_lane_bind, run_now_bind, hstale, run_settle_bind]
    exact ⟨_, rfl⟩

section

variable {cfg : Config} {w after : World} {origin : Origin} {call : Call} {l : Ledger} {e : Event}
  {s : Submission} {layers : Nat}

/-- A call takes effect where it can, nested or not. -/
theorem Effect.dispatch_eq (h : Effect cfg w origin call l e) (hcall : s.call? cfg = some call)
    (layers : Nat) :
    ∃ lines, (dispatch cfg (layers + 1) origin s).run w =
      (.ok (), { w.book origin call l e with host.log := lines }) := by
  obtain ⟨lines, hrun⟩ := h.run_perform (handlerAt cfg layers)
  rw [dispatch_succ]
  exact ⟨lines, enter_ok_iff.mpr ⟨call, _, hcall, hrun, rfl⟩⟩

/-- A call from outside takes effect where it can. -/
theorem Effect.take_eq (h : Effect cfg w origin call l e) (hcall : s.call? cfg = some call) :
    ∃ lines, w.take cfg (.call origin s) =
      (.ok (), { w.book origin call l e with host.log := lines }) :=
  h.dispatch_eq hcall 254

/-- A call that takes effect could. -/
theorem effect_of_dispatch (h : (dispatch cfg (layers + 1) origin s).run w = (.ok (), after))
    (hcall : s.call? cfg = some call) (hother : ∀ p, call ≠ .receive p) :
    ∃ l e lines, Effect cfg w origin call l e ∧
      after = { w.book origin call l e with host.log := lines } := by
  rw [dispatch_succ] at h
  obtain ⟨call', mid, hcall', hperform, rfl⟩ := enter_ok_iff.mp h
  obtain rfl := Option.some.inj (hcall.symm.trans hcall')
  obtain ⟨l, e, lines, heffect, rfl⟩ := Inversion.caused_of_ok hother hperform
  exact ⟨l, e, lines, heffect, rfl⟩

end

end RelayLedger
