import RelayLedger.Proofs.Effect

/-!
A call that was carried out had its effect. Each program of a call is taken apart here once,
from its success; apart from the log nothing else of the world has changed.
-/
namespace RelayLedger

/-- From `w` a call has had its effect, and the log may have grown. -/
def Caused (cfg : Config) (w : World) (origin : Origin) (call : Call) (after : World) : Prop :=
  ∃ l e lines, Effect cfg w origin call l e ∧
    after = ⟨l, w.chronicle.tell l.height e, { w.host with log := lines }⟩

namespace Inversion

open Relay

variable {cfg : Config} {origin : Origin} {handle : Handler} {w mid after : World}

theorem signer_ok {who : Account} (h : origin.signer.run w = (.ok who, mid)) :
    origin = .signed who ∧ w = mid := by
  cases origin with
  | signed a =>
    obtain ⟨rfl, rfl⟩ := run_pure_ok_iff.mp h
    exact ⟨rfl, rfl⟩
  | root | unsigned | other => simp [Origin.signer] at h

theorem guardOrigin_ok {passes : Bool} {u : Unit}
    (h : (Call.guardOrigin passes).run w = (.ok u, mid)) : passes = true ∧ w = mid := by
  cases passes with
  | true =>
    obtain ⟨-, rfl⟩ := run_pure_ok_iff.mp h
    exact ⟨rfl, rfl⟩
  | false => simp [Call.guardOrigin] at h

theorem requireTrusted_ok_iff {who : Account} {u : Unit} :
    (Inbound.requireTrusted who).run w = (.ok u, mid) ↔
      w.ledger.isTrusted who = true ∧ w = mid := by
  simp only [Inbound.requireTrusted, run_ledger_bind, run_ensure_ok_iff]

theorem trustedSigner_ok {who : Account}
    (h : (Call.trustedSigner origin).run w = (.ok who, mid)) :
    origin = .signed who ∧ w.ledger.isTrusted who = true ∧ w = mid := by
  simp only [Call.trustedSigner, run_bind_ok_iff] at h
  obtain ⟨a, _, hsigner, _, _, hrequired, hpure⟩ := h
  obtain ⟨rfl, rfl⟩ := signer_ok hsigner
  obtain ⟨htrusted, rfl⟩ := requireTrusted_ok_iff.mp hrequired
  obtain ⟨rfl, rfl⟩ := run_pure_ok_iff.mp hpure
  exact ⟨rfl, htrusted, rfl⟩

theorem guardAgents_ok {agent : Option Bytes} {u : PUnit}
    (h : (agent.forM (Call.guardAgent cfg)).run w = (.ok u, mid)) :
    (∀ a ∈ agent, a.fits cfg.agentIdLimit = true) ∧ w = mid := by
  cases agent with
  | none =>
    obtain ⟨-, rfl⟩ := run_pure_ok_iff.mp h
    exact ⟨by simp, rfl⟩
  | some a =>
    obtain ⟨hfits, rfl⟩ := run_require_ok_iff.mp h
    exact ⟨by simpa using hfits, rfl⟩

theorem openChannel_ok {chain counterparty : Bytes}
    (h : (Call.perform cfg handle origin (.openChannel chain counterparty)).run w =
      (.ok (), after)) :
    Caused cfg w origin (.openChannel chain counterparty) after := by
  simp only [Call.perform, Lifecycle.openChannel, run_bind_ok_iff, run_discard_ok_iff,
    Call.guardChain, Call.guardChannel, run_require_ok_iff, run_settle_ok_iff, run_ledger_bind,
    run_update_bind, run_updateLane_bind, run_log_bind, run_emit_bind, run_pure_ok_iff,
    and_assoc, exists_and_left, exists_eq_left', exists_const] at h
  obtain ⟨_, _, horigin, hchain, hcounterparty, hid, hfree, _, channels, hadded, -, rfl⟩ := h
  obtain ⟨hmanager, rfl⟩ := guardOrigin_ok horigin
  obtain ⟨hnew, hroom, rfl⟩ := Capacity.insertNew_eq_ok_iff.mp (mapError_ok_iff.mp hadded)
  exact ⟨_, _, _, .openChannel hmanager hchain hcounterparty hid (by simpa using hfree) hnew
    hroom, rfl⟩

/-- A handshake step that was taken led from the channel's state to the next one. -/
theorem advance_ok {id : Bytes} {step : Handshake}
    (h : (Lifecycle.advance id step).run w = (.ok (), mid)) :
    ∃ channel state, (w.ledger.lane id).channel = some channel ∧
      channel.state.step step = some state ∧
      mid = { w with ledger := w.ledger.modifyLane id fun l =>
        { l with channel := some (channel.enter state w.ledger.height) } } := by
  simp only [Lifecycle.advance, run_bind_ok_iff, run_lane_bind, run_demand_ok_iff,
    run_expect_ok_iff, run_now_bind, run_updateLane, Prod.mk.injEq, true_and,
    and_assoc, exists_and_left, exists_eq_left'] at h
  obtain ⟨channel, hchannel, state, hstate, rfl⟩ := h
  exact ⟨channel, state, hchannel, hstate, rfl⟩

theorem confirmOpen_ok {id : Bytes}
    (h : (Call.perform cfg handle origin (.confirmOpen id)).run w = (.ok (), after)) :
    Caused cfg w origin (.confirmOpen id) after := by
  simp only [Call.perform, Lifecycle.confirmOpen, run_bind_ok_iff, Call.guardChannel,
    run_require_ok_iff, run_log_bind, run_emit, Prod.mk.injEq, true_and,
    and_assoc, exists_and_left, exists_eq_left', exists_const] at h
  obtain ⟨who, _, hsigner, hid, _, _, hstep, rfl⟩ := h
  obtain ⟨rfl, htrusted, rfl⟩ := trustedSigner_ok hsigner
  obtain ⟨channel, state, hchannel, hstate, rfl⟩ := advance_ok hstep
  exact ⟨_, _, _, .confirmOpen htrusted hid hchannel hstate, rfl⟩

theorem startClose_ok {id : Bytes}
    (h : (Call.perform cfg handle origin (.startClose id)).run w = (.ok (), after)) :
    Caused cfg w origin (.startClose id) after := by
  simp only [Call.perform, Lifecycle.startClose, run_bind_ok_iff, Call.guardChannel,
    run_require_ok_iff, run_log_bind, run_emit, Prod.mk.injEq, true_and,
    and_assoc, exists_and_left, exists_eq_left', exists_const] at h
  obtain ⟨_, _, horigin, hid, _, _, hstep, rfl⟩ := h
  obtain ⟨hmanager, rfl⟩ := guardOrigin_ok horigin
  obtain ⟨channel, state, hchannel, hstate, rfl⟩ := advance_ok hstep
  exact ⟨_, _, _, .startClose hmanager hid hchannel hstate, rfl⟩

theorem confirmClose_ok {id : Bytes}
    (h : (Call.perform cfg handle origin (.confirmClose id)).run w = (.ok (), after)) :
    Caused cfg w origin (.confirmClose id) after := by
  simp only [Call.perform, Lifecycle.confirmClose, run_bind_ok_iff, Call.guardChannel,
    run_require_ok_iff, run_lane_bind, run_log_bind, run_emit, Prod.mk.injEq, true_and,
    and_assoc, exists_and_left, exists_eq_left', exists_const] at h
  obtain ⟨who, _, hsigner, hid, _, _, hstep, rfl⟩ := h
  obtain ⟨rfl, htrusted, rfl⟩ := trustedSigner_ok hsigner
  obtain ⟨channel, state, hchannel, hstate, rfl⟩ := advance_ok hstep
  exact ⟨_, _, _, .confirmClose htrusted hid hchannel hstate, rfl⟩

theorem send_ok {id chain counterparty : Bytes} {agent : Option Bytes} {payload : Payload}
    (h : (Call.perform cfg handle origin (.send id chain counterparty agent payload)).run w =
      (.ok (), after)) :
    Caused cfg w origin (.send id chain counterparty agent payload) after := by
  simp only [Call.perform, Outbound.send, run_bind_ok_iff, run_discard_ok_iff, Call.guardChain,
    Call.guardChannel, run_require_ok_iff, run_lane_bind, run_now_bind, run_demand_ok_iff,
    run_expect_ok_iff, run_updateLane_bind, run_log_bind, run_emit_bind, run_pure_ok_iff,
    and_assoc, exists_and_left, exists_eq_left', exists_const] at h
  obtain ⟨who, _, hsigner, hid, hchain, hcounterparty, _, _, hforM, h⟩ := h
  obtain ⟨rfl, rfl⟩ := signer_ok hsigner
  obtain ⟨hagent, rfl⟩ := guardAgents_ok hforM
  obtain ⟨_, channel, hchannel, hopen, hroute, hpayload, hsize, pending, hpending, counts,
    hcounts, -, rfl⟩ := h
  rw [Ledger.modifyLane_modifyLane]
  refine ⟨_, _, _, .send hid hchain hcounterparty hagent hchannel ?_ ?_ ?_ ?_ hpending hcounts,
    rfl⟩
  · simpa [ChannelState.isOpen] using hopen
  · simpa using hroute
  · simpa using hpayload
  · simpa using hsize

theorem acknowledge_ok {id : Bytes} {s : Sequence} {ack : Acknowledgement}
    (h : (Call.perform cfg handle origin (.acknowledge id s ack)).run w = (.ok (), after)) :
    Caused cfg w origin (.acknowledge id s ack) after := by
  simp only [Call.perform, Outbound.acknowledge, run_bind_ok_iff, run_discard_ok_iff,
    Call.guardChannel, run_require_ok_iff, run_lane_bind, run_ensure_ok_iff, run_now_bind,
    run_updateLane_bind, run_emit, Prod.mk.injEq, true_and,
    and_assoc, exists_and_left, exists_eq_left', exists_const] at h
  obtain ⟨_, ⟨who, hsigner⟩, hid, hcommitment, rfl⟩ := h
  obtain ⟨rfl, htrusted, rfl⟩ := trustedSigner_ok hsigner
  obtain ⟨c, hcommitment⟩ := Option.isSome_iff_exists.mp hcommitment
  exact ⟨_, _, _, .acknowledge htrusted hid hcommitment, rfl⟩

theorem timeOut_ok {id : Bytes} {s : Sequence}
    (h : (Call.perform cfg handle origin (.timeOut id s)).run w = (.ok (), after)) :
    Caused cfg w origin (.timeOut id s) after := by
  simp only [Call.perform, Outbound.timeOut, run_bind_ok_iff, run_discard_ok_iff,
    Call.guardChannel, run_require_ok_iff, run_lane_bind, run_demand_ok_iff, run_now_bind,
    run_updateLane_bind, run_log_bind, run_emit, Prod.mk.injEq, true_and,
    and_assoc, exists_and_left, exists_eq_left', exists_const] at h
  obtain ⟨_, ⟨who, hsigner⟩, hid, c, hcommitment, hdue, rfl⟩ := h
  obtain ⟨rfl, rfl⟩ := signer_ok hsigner
  exact ⟨_, _, _, .timeOut hid hcommitment (by simpa using hdue), rfl⟩

theorem addRelayer_ok {relayer : Account}
    (h : (Call.perform cfg handle origin (.addRelayer relayer)).run w = (.ok (), after)) :
    Caused cfg w origin (.addRelayer relayer) after := by
  simp only [Call.perform, Relayers.add, run_bind_ok_iff, run_ledger_bind, run_settle_ok_iff,
    run_update_bind, run_log_bind, run_emit, Prod.mk.injEq, true_and,
    and_assoc, exists_and_left, exists_eq_left'] at h
  obtain ⟨_, _, horigin, relayers, hadded, rfl⟩ := h
  obtain ⟨hmanager, rfl⟩ := guardOrigin_ok horigin
  obtain ⟨hnew, hroom, rfl⟩ := Capacity.insertNew_eq_ok_iff.mp (mapError_ok_iff.mp hadded)
  exact ⟨_, _, _, .addRelayer hmanager hnew hroom, rfl⟩

theorem removeRelayer_ok {relayer : Account}
    (h : (Call.perform cfg handle origin (.removeRelayer relayer)).run w = (.ok (), after)) :
    Caused cfg w origin (.removeRelayer relayer) after := by
  simp only [Call.perform, Relayers.remove, run_bind_ok_iff, run_ledger_bind,
    run_demand_ok_iff, run_update_bind, run_log_bind, run_emit, Prod.mk.injEq, true_and,
    and_assoc, exists_and_left, exists_eq_left'] at h
  obtain ⟨_, _, horigin, relayers, hremoved, rfl⟩ := h
  obtain ⟨hmanager, rfl⟩ := guardOrigin_ok horigin
  obtain ⟨hmember, rfl⟩ := Capacity.remove?_eq_some_iff.mp hremoved
  exact ⟨_, _, _, .removeRelayer hmanager hmember, rfl⟩

theorem mapAgent_ok {chain remote : Bytes} {agent : AgentId}
    (h : (Call.perform cfg handle origin (.mapAgent chain remote agent)).run w =
      (.ok (), after)) :
    Caused cfg w origin (.mapAgent chain remote agent) after := by
  simp only [Call.perform, Agents.map, run_bind_ok_iff, Call.guardChain, Call.guardAgent,
    run_require_ok_iff, run_get_bind, run_demand_ok_iff, run_update_bind, run_log_bind, run_emit,
    Prod.mk.injEq, true_and, and_assoc, exists_and_left, exists_eq_left', exists_const] at h
  obtain ⟨_, _, horigin, hchain, hremote, hknown, hfree, mapped, hmapped, rfl⟩ := h
  obtain ⟨hadmin, rfl⟩ := guardOrigin_ok horigin
  exact ⟨_, _, _, .mapAgent hadmin hchain hremote hknown (by simpa using hfree) hmapped, rfl⟩

theorem unmapAgent_ok {chain remote : Bytes}
    (h : (Call.perform cfg handle origin (.unmapAgent chain remote)).run w = (.ok (), after)) :
    Caused cfg w origin (.unmapAgent chain remote) after := by
  simp only [Call.perform, Agents.unmap, run_bind_ok_iff, Call.guardChain, Call.guardAgent,
    run_require_ok_iff, run_ledger_bind, run_demand_ok_iff, run_update_bind, run_emit,
    Prod.mk.injEq, true_and, and_assoc, exists_and_left, exists_eq_left', exists_const] at h
  obtain ⟨_, _, horigin, hchain, hremote, agent, hagent, rfl⟩ := h
  obtain ⟨hadmin, rfl⟩ := guardOrigin_ok horigin
  exact ⟨_, _, w.host.log, .unmapAgent hadmin hchain hremote hagent, rfl⟩

theorem prune_ok {id : Bytes} {sequences : List Sequence}
    (h : (Call.perform cfg handle origin (.prune id sequences)).run w = (.ok (), after)) :
    Caused cfg w origin (.prune id sequences) after := by
  simp only [Call.perform, Inbound.prune, run_bind_ok_iff, run_discard_ok_iff,
    Call.guardChannel, run_require_ok_iff, run_lane_bind, run_now_bind, run_settle_ok_iff,
    run_updateLane_bind, run_log_bind, run_emit, Prod.mk.injEq, true_and,
    and_assoc, exists_and_left, exists_eq_left', exists_const] at h
  obtain ⟨_, ⟨who, hsigner⟩, hid, _, hstale, rfl⟩ := h
  obtain ⟨rfl, rfl⟩ := signer_ok hsigner
  exact ⟨_, _, _, .prune hid hstale, rfl⟩

/-- Every call but receiving that was carried out had its effect. -/
theorem caused_of_ok {call : Call} (hcall : ∀ p, call ≠ .receive p)
    (h : (call.perform cfg handle origin).run w = (.ok (), after)) :
    Caused cfg w origin call after := by
  cases call with
  | openChannel => exact openChannel_ok h
  | confirmOpen => exact confirmOpen_ok h
  | startClose => exact startClose_ok h
  | confirmClose => exact confirmClose_ok h
  | send => exact send_ok h
  | receive p => exact absurd rfl (hcall p)
  | acknowledge => exact acknowledge_ok h
  | timeOut => exact timeOut_ok h
  | addRelayer => exact addRelayer_ok h
  | removeRelayer => exact removeRelayer_ok h
  | mapAgent => exact mapAgent_ok h
  | unmapAgent => exact unmapAgent_ok h
  | prune => exact prune_ok h

end Inversion

end RelayLedger
