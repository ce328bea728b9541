import RelayLedger.Proofs.Pending

/-!
Programs that are refused. The programs of the calls are also run by themselves, and then nothing
takes back what they did before they failed. It is not needed: each of them checks before it
writes, and what it does after its last check cannot fail. The one exception is a send, which
takes its place before it looks for the counts of its channel; there the counts have to be kept
with every channel, and on every ledger that came about by calls they are.
-/
namespace RelayLedger

namespace Relay

variable {α β : Type} {w after : World}

/-- If a step fails in a world, it has done nothing there but write into the log. -/
def FailsClean (act : Relay α) (w : World) : Prop :=
  ∀ fault after, act.run w = (.error fault, after) → ∃ lines, after = { w with host.log := lines }

theorem failsClean_of_ok {act : Relay α} {a : α} (h : act.run w = (.ok a, after)) :
    act.FailsClean w := by
  intro fault failed hfailed
  rw [h] at hfailed
  cases hfailed

theorem failsClean_refuse (why : Refusal) : (refuse why : Relay α).FailsClean w := by
  intro fault failed hfailed
  cases hfailed
  exact ⟨w.host.log, rfl⟩

theorem failsClean_reject (line : LogLine) (why : Refusal) :
    (reject line why : Relay α).FailsClean w := by
  intro fault failed hfailed
  cases hfailed
  exact ⟨_, rfl⟩

/-! A check that is passed changes nothing, so what follows it decides. -/

variable {why : Refusal} {line : LogLine}

@[simp] theorem failsClean_lane_bind {id : Bytes} {f : Lane → Relay β} :
    (lane id >>= f).FailsClean w ↔ (f (w.ledger.lane id)).FailsClean w := .rfl

@[simp] theorem failsClean_ledger_bind {f : Ledger → Relay β} :
    (ledger >>= f).FailsClean w ↔ (f w.ledger).FailsClean w := .rfl

@[simp] theorem failsClean_get_bind {f : World → Relay β} :
    ((get : Relay World) >>= f).FailsClean w ↔ (f w).FailsClean w := .rfl

@[simp] theorem failsClean_now_bind {f : Height → Relay β} :
    (now >>= f).FailsClean w ↔ (f w.ledger.height).FailsClean w := .rfl

@[simp] theorem failsClean_require_bind {c : Bool} {f : Unit → Relay β} :
    (require c why >>= f).FailsClean w ↔ (c = true → (f ()).FailsClean w) := by
  cases c with
  | false => exact iff_of_true (failsClean_refuse why) nofun
  | true => exact ⟨fun h _ => h, fun h => h rfl⟩

@[simp] theorem failsClean_ensure_bind {c : Bool} {f : Unit → Relay β} :
    (ensure c line why >>= f).FailsClean w ↔ (c = true → (f ()).FailsClean w) := by
  cases c with
  | false => exact iff_of_true (failsClean_reject line why) nofun
  | true => exact ⟨fun h _ => h, fun h => h rfl⟩

@[simp] theorem failsClean_demand_bind {x : Option α} {f : α → Relay β} :
    (demand x why >>= f).FailsClean w ↔ ∀ a, x = some a → (f a).FailsClean w := by
  cases x with
  | none => exact iff_of_true (failsClean_refuse why) nofun
  | some a => exact ⟨fun h b hb => Option.some.inj hb ▸ h, fun h => h a rfl⟩

@[simp] theorem failsClean_expect_bind {x : Option α} {f : α → Relay β} :
    (expect x line why >>= f).FailsClean w ↔ ∀ a, x = some a → (f a).FailsClean w := by
  cases x with
  | none => exact iff_of_true (failsClean_reject line why) nofun
  | some a => exact ⟨fun h b hb => Option.some.inj hb ▸ h, fun h => h a rfl⟩

@[simp] theorem failsClean_settle_bind {x : Except Refusal α} {f : α → Relay β} :
    (settle x >>= f).FailsClean w ↔ ∀ a, x = .ok a → (f a).FailsClean w := by
  cases x with
  | error why => exact iff_of_true (failsClean_refuse why) nofun
  | ok a => exact ⟨fun h b hb => Except.ok.inj hb ▸ h, fun h => h a rfl⟩

/-- After a step that fails clean nothing else may fail. -/
theorem FailsClean.bind {act : Relay α} {f : α → Relay β} (h : act.FailsClean w)
    (hf : ∀ a mid, act.run w = (.ok a, mid) → ∃ b last, (f a).run mid = (.ok b, last)) :
    (act >>= f).FailsClean w := by
  rcases hrun : act.run w with ⟨fault | a, mid⟩
  · intro fault' failed hfailed
    rw [run_bind, hrun] at hfailed
    cases hfailed
    exact h fault mid hrun
  · obtain ⟨b, last, hlast⟩ := hf a mid hrun
    have hwhole : (act >>= f).run w = (.ok b, last) := by
      rw [run_bind, hrun]
      exact hlast
    exact failsClean_of_ok hwhole

end Relay

/-- Each channel that is there has its counts. -/
def World.Counted (w : World) : Prop :=
  ∀ id, (w.ledger.lane id).channel ≠ none → (w.ledger.lane id).sequences ≠ none

/-- The programs that the calls run, for any arguments and any handler of payloads. -/
inductive Call.Program (cfg : Config) : (α : Type) → Relay α → Prop
  | openChannel (chain counterparty : Bytes) :
      Program cfg Bytes (Lifecycle.openChannel cfg chain counterparty)
  | confirmOpen (who : Account) (id : Bytes) : Program cfg Unit (Lifecycle.confirmOpen who id)
  | startClose (id : Bytes) : Program cfg Unit (Lifecycle.startClose id)
  | confirmClose (who : Account) (id : Bytes) : Program cfg Unit (Lifecycle.confirmClose who id)
  | send (who : Account) (id chain counterparty : Bytes) (agent : Option Bytes)
      (payload : Payload) :
      Program cfg Sequence (Outbound.send cfg who id chain counterparty agent payload)
  | receive (handle : Handler) (who : Account) (p : Packet) :
      Program cfg Unit (Inbound.receive handle who p)
  | acknowledge (id : Bytes) (s : Sequence) (ack : Acknowledgement) :
      Program cfg Unit (Outbound.acknowledge cfg id s ack)
  | timeOut (id : Bytes) (s : Sequence) : Program cfg Unit (Outbound.timeOut id s)
  | prune (id : Bytes) (sequences : List Sequence) :
      Program cfg Unit (Inbound.prune cfg id sequences)
  | addRelayer (who : Account) : Program cfg Unit (Relayers.add cfg who)
  | removeRelayer (who : Account) : Program cfg Unit (Relayers.remove who)
  | mapAgent (chain remote : Bytes) (agent : AgentId) :
      Program cfg Unit (Agents.map cfg chain remote agent)
  | unmapAgent (chain remote : Bytes) : Program cfg Unit (Agents.unmap chain remote)

namespace Call.Program

open Relay

variable {cfg : Config} {w : World} {id : Bytes}

theorem failsClean_advance (id : Bytes) (step : Handshake) :
    (Lifecycle.advance id step).FailsClean w := by
  simp only [Lifecycle.advance, failsClean_lane_bind, failsClean_demand_bind,
    failsClean_expect_bind, failsClean_now_bind]
  intro channel _ state _
  exact failsClean_of_ok rfl

/-- A send whose channel has its counts finds them when it has taken its place. -/
theorem failsClean_send (hcounted : w.Counted) (who : Account) (id chain counterparty : Bytes)
    (agent : Option Bytes) (payload : Payload) :
    (Outbound.send cfg who id chain counterparty agent payload).FailsClean w := by
  simp only [Outbound.send, failsClean_lane_bind, failsClean_demand_bind, failsClean_now_bind,
    failsClean_require_bind, failsClean_expect_bind]
  intro channel hchannel _ _ _ _ pending _
  have hopened : (w.ledger.lane id).channel ≠ none := by
    rw [hchannel]
    exact Option.some_ne_none channel
  obtain ⟨counts, hcounts⟩ := Option.ne_none_iff_exists'.mp (hcounted id hopened)
  rw [hcounts]
  exact failsClean_of_ok rfl

/-- After the checks of a packet nothing fails, whatever its application does. -/
theorem failsClean_receive (handle : Handler) (who : Account) (p : Packet) :
    (Inbound.receive handle who p).FailsClean w := by
  simp only [Inbound.receive, Inbound.requireTrusted, bind_assoc, failsClean_ledger_bind,
    failsClean_ensure_bind, failsClean_lane_bind, failsClean_demand_bind,
    failsClean_require_bind, failsClean_now_bind]
  intro _ channel _ _ _ _ _
  -- all checks are passed, and an answer always comes
  obtain ⟨agent, ack, mid, hrun, -⟩ := Reception.exists_answer handle channel p w
  exact failsClean_of_ok (by rw [run_bind, hrun]; rfl)

/-- Whatever a program of a call fails on, it fails clean. -/
theorem failsClean (hcounted : w.Counted) {α : Type} {act : Relay α} (h : Program cfg α act) :
    act.FailsClean w := by
  cases h with
  | openChannel chain counterparty =>
    simp only [Lifecycle.openChannel, failsClean_ledger_bind, failsClean_require_bind,
      failsClean_settle_bind]
    intro _ _ channels _
    exact failsClean_of_ok rfl
  | confirmOpen who id =>
    exact (failsClean_advance id _).bind fun _ _ _ => ⟨_, _, rfl⟩
  | startClose id => exact (failsClean_advance id _).bind fun _ _ _ => ⟨_, _, rfl⟩
  | confirmClose who id => exact (failsClean_advance id _).bind fun _ _ _ => ⟨_, _, rfl⟩
  | send who id chain counterparty agent payload =>
    exact failsClean_send hcounted who id chain counterparty agent payload
  | receive handle who p => exact failsClean_receive handle who p
  | acknowledge id s ack =>
    simp only [Outbound.acknowledge, failsClean_lane_bind, failsClean_ensure_bind]
    intro _
    exact failsClean_of_ok rfl
  | timeOut id s =>
    simp only [Outbound.timeOut, failsClean_lane_bind, failsClean_demand_bind,
      failsClean_now_bind, failsClean_require_bind]
    intro c _ _
    exact failsClean_of_ok rfl
  | prune id sequences =>
    simp only [Inbound.prune, failsClean_lane_bind, failsClean_now_bind, failsClean_settle_bind]
    intro _ _
    exact failsClean_of_ok rfl
  | addRelayer who =>
    simp only [Relayers.add, failsClean_ledger_bind, failsClean_settle_bind]
    intro relayers _
    exact failsClean_of_ok rfl
  | removeRelayer who =>
    simp only [Relayers.remove, failsClean_ledger_bind, failsClean_demand_bind]
    intro relayers _
    exact failsClean_of_ok rfl
  | mapAgent chain remote agent =>
    simp only [Agents.map, failsClean_get_bind, failsClean_require_bind, failsClean_demand_bind]
    intro _ _ mapped _
    exact failsClean_of_ok rfl
  | unmapAgent chain remote =>
    simp only [Agents.unmap, failsClean_ledger_bind, failsClean_demand_bind]
    intro agent _
    exact failsClean_of_ok rfl

end Call.Program

theorem Outbox.Numbered.counted_lane {l : Lane} {sends : Nat} (h : l.outbox.Numbered sends)
    (hchannel : l.channel ≠ none) : l.sequences ≠ none := by
  have hcounted := h.counted
  simp only [Lane.outbox, Option.isSome_map] at hcounted
  rw [← Option.isSome_iff_ne_none] at hchannel ⊢
  exact hcounted.trans hchannel

theorem Reached.counted {cfg : Config} {w : World} (h : Reached cfg (fun _ _ => True) w) :
    w.Counted := fun id =>
  ((kept_exact cfg id).reached (fun _ _ => .empty cfg) (fun _ _ _ _ => trivial)
    h).numbered.counted_lane

theorem Made.counted {cfg : Config} {layers : Nat} {origin : Origin} {s : Submission} {w : World}
    (h : Made cfg (fun _ _ => True) layers origin s w) : w.Counted := fun id =>
  ((kept_exact cfg id).made (fun _ _ => .empty cfg) (fun _ _ _ _ => trivial)
    h).numbered.counted_lane

/-- Where each channel has its counts, the program of a call that fails has changed nothing but
the log, though nobody took anything back: ledger, chronicle and host are as they were. On every
ledger that came about by calls each channel has them, also in the middle of a call. -/
theorem refused_programs_leave_no_trace (cfg : Config) :
    (∀ w : World, w.Counted → ∀ {α : Type} (act : Relay α), Call.Program cfg α act →
      ∀ fault after, act.run w = (.error fault, after) →
        ∃ lines, after = { w with host.log := lines }) ∧
    (∀ w, Reached cfg (fun _ _ => True) w → w.Counted) ∧
    ∀ layers origin s w, Made cfg (fun _ _ => True) layers origin s w → w.Counted :=
  ⟨fun _ hcounted _ _ hprogram => hprogram.failsClean hcounted, fun _ h => h.counted,
    fun _ _ _ _ h => h.counted⟩

namespace Small

/-- A send that is held back by itself is only logged. -/
theorem held_back_untouched :
    ∃ after lines, (Outbound.send cfg 1 channel [1] [2] none (.raw [7])).run
        (first.after cfg full) = (.error (.refused .pendingPacketLimitExceeded), after) ∧
      after = { first.after cfg full with host.log := lines } ∧
      (after.ledger.lane channel).pending = 3 := by
  obtain ⟨hclean, hcounted, -⟩ := refused_programs_leave_no_trace cfg
  have hrun : ((Outbound.send cfg 1 channel [1] [2] none (.raw [7])).run
      (first.after cfg full)).1 = .error (.refused .pendingPacketLimitExceeded) := rfl
  obtain ⟨lines, hafter⟩ := hclean _ (hcounted _ (reached full)) _
    (.send 1 channel [1] [2] none (.raw [7])) _ _ (Prod.ext hrun rfl)
  exact ⟨_, lines, Prod.ext hrun rfl, hafter, rfl⟩

/-- The world with a channel that has lost its counts. -/
def uncounted : World :=
  { first.after cfg opening with
    ledger := (first.after cfg opening).ledger.modifyLane channel fun l =>
      { l with sequences := none } }

/-- There a send keeps the place that it took, though it fails. -/
example : ((Outbound.send cfg 1 channel [1] [2] none (.raw [7])).run uncounted).1 =
      .error (.refused .channelNotFound) ∧
    (((Outbound.send cfg 1 channel [1] [2] none (.raw [7])).run uncounted).2.ledger.lane
      channel).pending = 1 := ⟨rfl, rfl⟩

end Small

end RelayLedger
