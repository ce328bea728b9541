import RelayLedger.Proofs.Inversion

/-!
Receiving a packet, taken apart: the checks that admit it, what its application leaves, and
the receipt. The application works on the world that passed the checks, and the receipt is
written in the world that the application leaves, so nothing here says that the place of the
receipt is still empty by then.
-/
namespace RelayLedger.Reception

open Relay

variable {cfg : Config} {origin : Origin} {handle : Handler} {w mid after : World}
variable {who : Account} {channel : Channel} {p : Packet} {agent : Option AgentId}
variable {content : Content} {ack : Acknowledgement}

/-- The checks that a packet has passed before it is delivered. -/
structure Admitted (w : World) (who : Account) (p : Packet) (channel : Channel) : Prop where
  trusted : w.ledger.isTrusted who = true
  channel_eq : (w.ledger.lane p.target).channel = some channel
  opened : channel.state = .opened
  paired : channel.counterparty = p.source
  unreceived : (w.ledger.lane p.target).receipts.get p.sequence = none
  early : w.ledger.height < p.timeout

/-- The delivery that a packet's application gets. -/
abbrev delivery (p : Packet) (content : Content) : Delivery := ⟨p.target, p.sequence, content⟩

theorem run_handOver (handle : Handler) (d : Delivery) (w : World) :
    (Inbound.handOver handle d).run w =
      match handle d w with
      | (.accepted, after) => (.ok .accepted, after)
      | (verdict, after) => (.ok verdict, after.rollback w) := (rfl)

variable (handle) in
theorem run_answer_of_unassigned {why : Nack}
    (h : Inbound.assign w.ledger w.host.registry channel p = .error why) :
    ∃ lines, (Inbound.answer handle channel p).run w =
      (.ok (none, .error why.code), { w with host.log := lines }) := by
  simp [Inbound.answer, Inbound.deliver, run_bind, run_get, run_log, h, Except.map]

theorem run_answer_of_accepted
    (h : Inbound.assign w.ledger w.host.registry channel p = .ok (content, agent))
    (hhandle : handle (delivery p content) w = (.accepted, mid)) :
    (Inbound.answer handle channel p).run w = (.ok (agent, .ok), mid) := by
  simp [Inbound.answer, Inbound.deliver, run_bind, run_get, run_handOver, h, hhandle]

theorem run_answer_of_rejected {verdict : Verdict}
    (h : Inbound.assign w.ledger w.host.registry channel p = .ok (content, agent))
    (hhandle : handle (delivery p content) w = (verdict, mid)) (hverdict : verdict ≠ .accepted) :
    ∃ lines, (Inbound.answer handle channel p).run w =
      (.ok (none, .error Nack.handlerRejected.code),
        { w with host := { mid.host with registry := w.host.registry, log := lines } }) := by
  cases verdict with
  | accepted => exact absurd rfl hverdict
  | rejected =>
    simp [Inbound.answer, Inbound.deliver, run_bind, run_get, run_log, run_handOver, h, hhandle,
      World.rollback, Except.map]
  | tooDeep =>
    simp [Inbound.answer, Inbound.deliver, run_bind, run_get, run_log, run_handOver, h, hhandle,
      World.rollback, Except.map]

/-- How the answer to a packet comes about: a payload that was not taken leaves nothing but
what the host saw, and an accepted one leaves what its application did. -/
inductive Answered (handle : Handler) (w : World) (channel : Channel) (p : Packet) :
    Option AgentId → Acknowledgement → World → Prop
  | unassigned {why : Nack} {host : Host}
      (hassign : Inbound.assign w.ledger w.host.registry channel p = .error why)
      (hregistry : host.registry = w.host.registry) :
      Answered handle w channel p none (.error why.code) { w with host := host }
  | accepted {content : Content} {agent : Option AgentId} {mid : World}
      (hassign : Inbound.assign w.ledger w.host.registry channel p = .ok (content, agent))
      (hhandle : handle (delivery p content) w = (.accepted, mid)) :
      Answered handle w channel p agent .ok mid
  | rejected {content : Content} {agent : Option AgentId} {verdict : Verdict} {mid : World}
      {host : Host}
      (hassign : Inbound.assign w.ledger w.host.registry channel p = .ok (content, agent))
      (hhandle : handle (delivery p content) w = (verdict, mid))
      (hverdict : verdict ≠ .accepted) (hregistry : host.registry = w.host.registry) :
      Answered handle w channel p none (.error Nack.handlerRejected.code) { w with host := host }

theorem exists_answer (handle : Handler) (channel : Channel) (p : Packet) (w : World) :
    ∃ agent ack mid, (Inbound.answer handle channel p).run w = (.ok (agent, ack), mid) ∧
      Answered handle w channel p agent ack mid := by
  cases hassign : Inbound.assign w.ledger w.host.registry channel p with
  | error why =>
    obtain ⟨lines, hrun⟩ := run_answer_of_unassigned handle hassign
    exact ⟨_, _, _, hrun, .unassigned hassign rfl⟩
  | ok found =>
    obtain ⟨content, agent⟩ := found
    rcases hhandle : handle (delivery p content) w with ⟨verdict, mid⟩
    by_cases hverdict : verdict = .accepted
    · subst hverdict
      exact ⟨_, _, _, run_answer_of_accepted hassign hhandle, .accepted hassign hhandle⟩
    · obtain ⟨lines, hrun⟩ := run_answer_of_rejected hassign hhandle hverdict
      exact ⟨_, _, _, hrun, .rejected hassign hhandle hverdict rfl⟩

theorem Answered.ledger_run (h : Answered handle w channel p agent ack mid) :
    ((Inbound.answer handle channel p).run w).2.ledger = mid.ledger := by
  cases h with
  | unassigned hassign =>
    obtain ⟨lines, hrun⟩ := run_answer_of_unassigned handle hassign
    rw [hrun]
  | accepted hassign hhandle => rw [run_answer_of_accepted hassign hhandle]
  | rejected hassign hhandle hverdict =>
    obtain ⟨lines, hrun⟩ := run_answer_of_rejected hassign hhandle hverdict
    rw [hrun]

/-- The ledger with the receipt of a packet that was admitted at a height. -/
def receipted (l : Ledger) (now : Height) (p : Packet) (ack : Acknowledgement) : Ledger :=
  l.modifyLane p.target fun lane => lane.receive p.sequence ⟨now, p.timeout, ack⟩

/-- The event of a packet that was received. -/
def news (who : Account) (p : Packet) (agent : Option AgentId) (ack : Acknowledgement) : Event :=
  .packetReceived p.target p.sequence who agent ack.success ack.code

theorem admitted_of_receive_ok
    (h : (Call.perform cfg handle origin (.receive p)).run w = (.ok (), after)) :
    ∃ who channel, origin = .signed who ∧ Admitted w who p channel := by
  simp only [Call.perform, Inbound.receive, run_bind_ok_iff, Inversion.requireTrusted_ok_iff,
    run_lane_bind, run_demand_ok_iff, run_require_ok_iff, run_ensure_ok_iff, run_now_bind,
    and_assoc, exists_and_left, exists_eq_left', exists_const] at h
  obtain ⟨who, _, hsigner, htrusted, channel, hchannel, hopen, hpaired, hreceipt, hearly, -⟩ := h
  obtain ⟨rfl, rfl⟩ := Inversion.signer_ok hsigner
  refine ⟨who, channel, rfl, htrusted, hchannel, ?_, by simpa using hpaired,
    by simpa using hreceipt, ?_⟩
  · simpa [ChannelState.isOpen] using hopen
  · simpa [Packet.isExpired] using hearly

variable (cfg) in
/-- Where the checks are passed and the answer is known, the rest is known too. -/
theorem receive_of_answer (h : Admitted w who p channel)
    (hanswer : (Inbound.answer handle channel p).run w = (.ok (agent, ack), mid)) :
    (Call.perform cfg handle (.signed who) (.receive p)).run w =
      (.ok (), { mid with
        ledger := receipted mid.ledger w.ledger.height p ack
        chronicle := mid.chronicle.tell mid.ledger.height (news who p agent ack) }) := by
  have hopen : channel.state.isOpen = true := by simp [ChannelState.isOpen, h.opened]
  have hreceipt : ((w.ledger.lane p.target).receipts.get p.sequence).isNone = true := by
    rw [h.unreceived]
    rfl
  have hearly : (!p.isExpired w.ledger.height) = true := by
    simpa [Packet.isExpired] using h.early
  simp only [Call.perform, Origin.signer, Inbound.receive, run_bind_ok_iff, run_pure_ok_iff,
    Inversion.requireTrusted_ok_iff, run_lane_bind, run_demand_ok_iff, run_require_ok_iff,
    run_ensure_ok_iff, run_now_bind]
  exact ⟨who, w, ⟨rfl, rfl⟩, (), w, ⟨h.trusted, rfl⟩, channel, w, ⟨h.channel_eq, rfl⟩, (), w,
    ⟨hopen, rfl⟩, (), w, ⟨by simpa using h.paired, rfl⟩, (), w, ⟨hreceipt, rfl⟩, (), w,
    ⟨hearly, rfl⟩, (agent, ack), mid, hanswer, (), _, rfl, rfl⟩

variable (cfg handle) in
/-- An admitted packet is received, whatever its application does. -/
theorem receive_of_admitted (h : Admitted w who p channel) :
    ∃ agent ack mid, Answered handle w channel p agent ack mid ∧
      (Call.perform cfg handle (.signed who) (.receive p)).run w =
        (.ok (), { mid with
          ledger := receipted mid.ledger w.ledger.height p ack
          chronicle := mid.chronicle.tell mid.ledger.height (news who p agent ack) }) := by
  obtain ⟨agent, ack, mid, hrun, hanswered⟩ := exists_answer handle channel p w
  exact ⟨agent, ack, mid, hanswered, receive_of_answer cfg h hrun⟩

theorem receive_ok
    (h : (Call.perform cfg handle origin (.receive p)).run w = (.ok (), after)) :
    ∃ who channel agent ack mid, origin = .signed who ∧ Admitted w who p channel ∧
      Answered handle w channel p agent ack mid ∧
      after = { mid with
        ledger := receipted mid.ledger w.ledger.height p ack
        chronicle := mid.chronicle.tell mid.ledger.height (news who p agent ack) } := by
  obtain ⟨who, channel, rfl, hadmitted⟩ := admitted_of_receive_ok h
  obtain ⟨agent, ack, mid, hanswer, hrun⟩ :=
    receive_of_admitted cfg handle hadmitted
  rw [hrun] at h
  cases h
  exact ⟨who, channel, agent, ack, mid, rfl, hadmitted, hanswer, rfl⟩

end RelayLedger.Reception
