import RelayLedger.Proofs.Isolation

/-!
Which application gets the payload of a packet, and which local agent the packet is put down to.
The remote agent that a packet names is looked up in the map of the channel's chain, whatever
chain the packet itself gives, and a remote agent that is not mapped is never replaced by another
one. Only where the agent is settled is an application asked, and then just once.
-/
namespace RelayLedger

open Reception

/-- The remote agent that a packet names. The hint of a task stands in for it where the packet has
no agent of its own, and nowhere else. -/
def Packet.named (p : Packet) : Option Bytes :=
  match p.payload with
  | .task _ _ hint _ => p.agent.or hint
  | .reputation .. => p.agent
  | .did .. => p.agent
  | .raw _ => none
  | .ack _ => none

/-- The local agent that a packet concerns: the one that the named remote agent stands for, or
the subject of a reputation update that names none. -/
inductive Packet.Concerns (agentOf : Bytes → Option AgentId) (p : Packet) : AgentId → Prop
  | mapped {remote : Bytes} {agent : AgentId} (hnamed : p.named = some remote)
      (hagent : agentOf remote = some agent) : Concerns agentOf p agent
  | subject {agent : AgentId} {delta : Int32} {hash : Digest}
      (hpayload : p.payload = .reputation agent delta hash) (hnamed : p.agent = none) :
      Concerns agentOf p agent

/-- What the application for a payload gets to see of it, with the local agent that it concerns. -/
inductive Payload.Brings (chain id : Bytes) : Payload → Option AgentId → Content → Prop
  | raw (data : Bytes) : Brings chain id (.raw data) none (.raw chain id data)
  | task (taskId : UInt64) (requester : AgentId) (hint : Option Bytes) (hash : Digest)
      (agent : Option AgentId) :
      Brings chain id (.task taskId requester hint hash) agent
        (.task chain taskId requester agent hash)
  | reputation (subject : AgentId) (delta : Int32) (hash : Digest) (agent : AgentId) :
      Brings chain id (.reputation subject delta hash) (some agent)
        (.reputation chain agent delta hash)
  | did (subject proof : Bytes) (agent : Option AgentId) :
      Brings chain id (.did subject proof) agent (.did chain agent subject proof)

namespace Inbound

variable {l : Ledger} {registry : Registry} {channel : Channel} {p : Packet} {agent : AgentId}
  {remote : Bytes} {why : Nack}

theorem activeAgent_of_unknown (h : registry.knows agent = false) :
    activeAgent registry agent = .error .localAgentNotFound := by
  simp [activeAgent, h]

theorem activeAgent_of_inactive (hknows : registry.knows agent = true)
    (h : registry.isActive agent = false) :
    activeAgent registry agent = .error .localAgentInactive := by
  simp [activeAgent, hknows, h]

theorem activeAgent_of_active (hknows : registry.knows agent = true)
    (h : registry.isActive agent = true) : activeAgent registry agent = .ok agent := by
  simp [activeAgent, hknows, h]

theorem resolve_of_unmapped {chain : Bytes} (h : l.agentOf chain remote = none) :
    resolve l registry chain remote = .error .unknownRemoteAgent := by
  rw [resolve, h]

theorem resolve_of_mapped {chain : Bytes} (h : l.agentOf chain remote = some agent) :
    resolve l registry chain remote = activeAgent registry agent := by
  rw [resolve, h]

theorem assign_of_ack {ack : Acknowledgement} (h : p.payload = .ack ack) :
    assign l registry channel p = .error .unsupportedPayload := by
  rw [assign, h]

/-- A packet that names a remote agent which stands for no active agent is assigned to nobody. -/
theorem assign_error_of_named (hnamed : p.named = some remote)
    (h : resolve l registry channel.chain remote = .error why) :
    assign l registry channel p = .error why := by
  unfold Packet.named at hnamed
  cases hpayload : p.payload with
  | raw | ack => simp [hpayload] at hnamed
  | task =>
    simp only [hpayload] at hnamed
    simp [assign, hpayload, resolveNamed, hnamed, h, Except.map]
  | reputation =>
    simp only [hpayload] at hnamed
    simp [assign, hpayload, hnamed, h]
  | did =>
    simp only [hpayload] at hnamed
    simp [assign, hpayload, resolveNamed, hnamed, h, Except.map]

/-- A packet that names a remote agent goes to the agent that it stands for, if it is active. -/
theorem assign_ok_of_named (hnamed : p.named = some remote)
    (h : resolve l registry channel.chain remote = .ok agent) :
    ∃ content, p.payload.Brings channel.chain channel.id (some agent) content ∧
      assign l registry channel p = .ok (content, some agent) := by
  unfold Packet.named at hnamed
  cases hpayload : p.payload with
  | raw | ack => simp [hpayload] at hnamed
  | task taskId requester hint hash =>
    simp only [hpayload] at hnamed
    refine ⟨_, .task taskId requester hint hash (some agent), ?_⟩
    simp [assign, hpayload, resolveNamed, hnamed, h, Except.map]
  | reputation subject delta hash =>
    simp only [hpayload] at hnamed
    refine ⟨_, .reputation subject delta hash agent, ?_⟩
    simp [assign, hpayload, hnamed, h]
  | did subject proof =>
    simp only [hpayload] at hnamed
    refine ⟨_, .did subject proof (some agent), ?_⟩
    simp [assign, hpayload, resolveNamed, hnamed, h, Except.map]

theorem assign_error_of_concerns (h : p.Concerns (l.agentOf channel.chain) agent)
    (hactive : activeAgent registry agent = .error why) :
    assign l registry channel p = .error why := by
  cases h with
  | mapped hnamed hagent =>
    apply assign_error_of_named hnamed
    rw [resolve_of_mapped hagent, hactive]
  | subject hpayload hnamed => simp [assign, hpayload, hnamed, hactive]

theorem assign_ok_of_concerns (h : p.Concerns (l.agentOf channel.chain) agent)
    (hactive : activeAgent registry agent = .ok agent) :
    ∃ content, p.payload.Brings channel.chain channel.id (some agent) content ∧
      assign l registry channel p = .ok (content, some agent) := by
  cases h with
  | mapped hnamed hagent =>
    apply assign_ok_of_named hnamed
    rw [resolve_of_mapped hagent, hactive]
  | @subject _ delta hash hpayload hnamed =>
    rw [hpayload]
    refine ⟨_, .reputation agent delta hash agent, ?_⟩
    simp [assign, hpayload, hnamed, hactive]

theorem assign_of_nobody (hnamed : p.named = none)
    (hnobody : ∀ agent, ¬p.Concerns (l.agentOf channel.chain) agent)
    (hack : ∀ ack, p.payload ≠ .ack ack) :
    ∃ content, p.payload.Brings channel.chain channel.id none content ∧
      assign l registry channel p = .ok (content, none) := by
  unfold Packet.named at hnamed
  cases hpayload : p.payload with
  | raw data => exact ⟨_, .raw data, by simp [assign, hpayload]⟩
  | task taskId requester hint hash =>
    simp only [hpayload] at hnamed
    refine ⟨_, .task taskId requester hint hash none, ?_⟩
    simp [assign, hpayload, resolveNamed, hnamed]
  | reputation subject =>
    simp only [hpayload] at hnamed
    exact absurd (.subject hpayload hnamed) (hnobody subject)
  | did subject proof =>
    simp only [hpayload] at hnamed
    refine ⟨_, .did subject proof none, ?_⟩
    simp [assign, hpayload, resolveNamed, hnamed]
  | ack ack => exact absurd hpayload (hack ack)

end Inbound

/-- A packet was answered negatively and no application was asked: of the host only the log has
changed, and with any other applications the same would have come of it. -/
structure Unasked (cfg : Config) (w : World) (who : Account) (s : Submission) (p : Packet)
    (code : UInt16) (after : World) : Prop where
  settles : Settles w w.ledger.height who p none (.error code) after
  host : ∃ lines, after.host = { w.host with log := lines }
  regardless : ∀ other : Handler, (enter cfg other (.signed who) s).run w = (.ok (), after)

/-- An application was asked once, about this content, and its verdict decided: the host is as it
left it but for the log, and for the registry if it rejected the content, and whatever it would
have said of anything else does not matter. -/
structure AskedOnce (cfg : Config) (handle : Handler) (w : World) (who : Account) (s : Submission)
    (p : Packet) (agent : Option AgentId) (content : Content) (after : World) : Prop where
  accepted : (handle (delivery p content) w).1 = .accepted →
    Settles (handle (delivery p content) w).2 w.ledger.height who p agent .ok after
  failed : (handle (delivery p content) w).1 ≠ .accepted →
    Settles w w.ledger.height who p none (.error 4) after
  host : ∃ lines, after.host =
    { (handle (delivery p content) w).2.host with
      registry :=
        if (handle (delivery p content) w).1 = .accepted then
          (handle (delivery p content) w).2.host.registry
        else w.host.registry
      log := lines }
  nothing_else : ∀ other : Handler,
    other (delivery p content) w = handle (delivery p content) w →
    (enter cfg other (.signed who) s).run w = (.ok (), after)

section

variable {cfg : Config} {handle other : Handler} {w mid after : World} {who : Account}
  {s : Submission} {p : Packet} {channel : Channel} {agent : Option AgentId} {content : Content}
  {ack : Acknowledgement} {why : Nack}

theorem enter_of_answer (hcall : s.call? cfg = some (.receive p)) (h : Admitted w who p channel)
    (hanswer : (Inbound.answer handle channel p).run w = (.ok (agent, ack), mid)) :
    (enter cfg handle (.signed who) s).run w =
      (.ok (), mid.book (.signed who) (.receive p)
        (receipted mid.ledger w.ledger.height p ack) (news who p agent ack)) :=
  enter_ok_iff.mpr ⟨.receive p, _, hcall, receive_of_answer cfg h hanswer, rfl⟩

/-- Applications that give the same answer make no difference. -/
theorem enter_congr (hcall : s.call? cfg = some (.receive p)) (h : Admitted w who p channel)
    (hsame : (Inbound.answer other channel p).run w = (Inbound.answer handle channel p).run w) :
    (enter cfg other (.signed who) s).run w = (enter cfg handle (.signed who) s).run w := by
  obtain ⟨agent, ack, mid, hanswer, -⟩ := exists_answer handle channel p w
  rw [enter_of_answer hcall h hanswer, enter_of_answer hcall h (hsame.trans hanswer)]

theorem unasked_of_unassigned (hcall : s.call? cfg = some (.receive p))
    (h : Admitted w who p channel)
    (hassign : Inbound.assign w.ledger w.host.registry channel p = .error why)
    (hrun : (enter cfg handle (.signed who) s).run w = (.ok (), after)) :
    Unasked cfg w who s p why.code after := by
  obtain ⟨lines, hanswer⟩ := run_answer_of_unassigned handle hassign
  have hafter := hrun.symm.trans (enter_of_answer hcall h hanswer)
  obtain rfl : after = _ := congrArg Prod.snd hafter
  constructor
  case settles => exact (Settles.book w _ who p none _).host rfl
  case host => exact ⟨lines, rfl⟩
  case regardless =>
    intro other
    rw [← hrun]
    apply enter_congr hcall h
    simp [Inbound.answer, Inbound.deliver, Relay.run_bind, Relay.run_get, hassign]

theorem askedOnce_of_assigned (hcall : s.call? cfg = some (.receive p))
    (h : Admitted w who p channel)
    (hassign : Inbound.assign w.ledger w.host.registry channel p = .ok (content, agent))
    (hrun : (enter cfg handle (.signed who) s).run w = (.ok (), after)) :
    AskedOnce cfg handle w who s p agent content after := by
  have hnothingElse : ∀ other : Handler,
      other (delivery p content) w = handle (delivery p content) w →
      (enter cfg other (.signed who) s).run w = (.ok (), after) := by
    intro other hsame
    rw [← hrun]
    apply enter_congr hcall h
    simp [Inbound.answer, Inbound.deliver, Relay.run_bind, Relay.run_get, run_handOver, hassign,
      hsame]
  rcases hhandle : handle (delivery p content) w with ⟨verdict, left⟩
  by_cases hverdict : verdict = .accepted
  · subst hverdict
    have hanswer := run_answer_of_accepted hassign hhandle
    obtain rfl : after = _ :=
      congrArg Prod.snd (hrun.symm.trans (enter_of_answer hcall h hanswer))
    refine ⟨fun _ => ?_, fun hnot => ?_, ⟨left.host.log, ?_⟩, hnothingElse⟩
    · rw [hhandle]
      exact .book left _ who p agent .ok
    · rw [hhandle] at hnot
      exact absurd rfl hnot
    · rw [hhandle, if_pos rfl]
      rfl
  · obtain ⟨lines, hanswer⟩ := run_answer_of_rejected hassign hhandle hverdict
    obtain rfl : after = _ :=
      congrArg Prod.snd (hrun.symm.trans (enter_of_answer hcall h hanswer))
    refine ⟨fun haccepted => ?_, fun _ => ?_, ⟨lines, ?_⟩, hnothingElse⟩
    · rw [hhandle] at haccepted
      exact absurd haccepted hverdict
    · exact (Settles.book w _ who p none _).host rfl
    · rw [hhandle, if_neg hverdict]
      rfl

end

/-- How a packet that was received on a channel has been dealt with, in each case. -/
structure Attributed (cfg : Config) (handle : Handler) (w : World) (who : Account)
    (s : Submission) (p : Packet) (channel : Channel) (after : World) : Prop where
  unsupported : ∀ ack, p.payload = .ack ack → Unasked cfg w who s p 5 after
  unmapped : ∀ remote, p.named = some remote →
    w.ledger.agentOf channel.chain remote = none → Unasked cfg w who s p 1 after
  unknown : ∀ agent, p.Concerns (w.ledger.agentOf channel.chain) agent →
    w.host.registry.knows agent = false → Unasked cfg w who s p 2 after
  inactive : ∀ agent, p.Concerns (w.ledger.agentOf channel.chain) agent →
    w.host.registry.knows agent = true → w.host.registry.isActive agent = false →
    Unasked cfg w who s p 3 after
  active : ∀ agent, p.Concerns (w.ledger.agentOf channel.chain) agent →
    w.host.registry.knows agent = true → w.host.registry.isActive agent = true →
    ∃ content, p.payload.Brings channel.chain channel.id (some agent) content ∧
      AskedOnce cfg handle w who s p (some agent) content after
  nobody : p.named = none → (∀ agent, ¬p.Concerns (w.ledger.agentOf channel.chain) agent) →
    (∀ ack, p.payload ≠ .ack ack) →
    ∃ content, p.payload.Brings channel.chain channel.id none content ∧
      AskedOnce cfg handle w who s p none content after

/-- A packet that is received is put down to the local agent that its remote agent stands for in
the map of the channel's chain. It is answered negatively, and no application is asked, where
there is no such agent, where it is not known, or where it is not active; in all other cases the
application for the payload is asked once, and a rejection is answered negatively too. The receipt
says which it was, and so does the event, which is not recorded before the first block. -/
theorem received_packet_attributed {cfg : Config} {handle : Handler} {origin : Origin}
    {s : Submission} {w after : World} {p : Packet}
    (hcall : s.call? cfg = some (.receive p))
    (hrun : (enter cfg handle origin s).run w = (.ok (), after)) :
    ∃ who channel, origin = .signed who ∧ (w.ledger.lane p.target).channel = some channel ∧
      Attributed cfg handle w who s p channel after := by
  obtain ⟨call, mid, hcall', hperform, -⟩ := enter_ok_iff.mp hrun
  obtain rfl := Option.some.inj (hcall.symm.trans hcall')
  obtain ⟨who, channel, rfl, hadmitted⟩ := admitted_of_receive_ok hperform
  have hunasked {why : Nack}
      (hassign : Inbound.assign w.ledger w.host.registry channel p = .error why) :
      Unasked cfg w who s p why.code after :=
    unasked_of_unassigned hcall hadmitted hassign hrun
  refine ⟨who, channel, rfl, hadmitted.channel_eq, ?_⟩
  constructor
  case unsupported =>
    intro ack hack
    exact hunasked (Inbound.assign_of_ack hack)
  case unmapped =>
    intro remote hnamed hunmapped
    exact hunasked (Inbound.assign_error_of_named hnamed (Inbound.resolve_of_unmapped hunmapped))
  case unknown =>
    intro agent hconcerns hunknown
    have hrefused := Inbound.activeAgent_of_unknown hunknown
    exact hunasked (Inbound.assign_error_of_concerns hconcerns hrefused)
  case inactive =>
    intro agent hconcerns hknows hinactive
    have hrefused := Inbound.activeAgent_of_inactive hknows hinactive
    exact hunasked (Inbound.assign_error_of_concerns hconcerns hrefused)
  case active =>
    intro agent hconcerns hknows hactive
    have hfound := Inbound.activeAgent_of_active hknows hactive
    obtain ⟨content, hbrings, hassign⟩ := Inbound.assign_ok_of_concerns hconcerns hfound
    exact ⟨content, hbrings, askedOnce_of_assigned hcall hadmitted hassign hrun⟩
  case nobody =>
    intro hnamed hnobody hack
    obtain ⟨content, hbrings, hassign⟩ := Inbound.assign_of_nobody hnamed hnobody hack
    exact ⟨content, hbrings, askedOnce_of_assigned hcall hadmitted hassign hrun⟩

namespace Small

/-- One remote agent of the channel's chain stands for a local one. -/
def mapped : World :=
  first.after cfg (opening ++ [.call .root (.value (.mapAgent [1] [8] 5))])

def blankDigest : Digest := ⟨List.replicate 32 0, rfl⟩

/-- A task with a hint at that remote agent; the chain that the packet gives is another one. -/
def errand (agent : Option Bytes) : Packet :=
  { packet 70 with
    chain := [9]
    agent := agent
    payload := .task 3 4 (some [8]) blankDigest }

def bringing (agent : Option Bytes) : Submission := .value (.receive (errand agent))

/-- The world after the packet was brought in. -/
def ran (agent : Option Bytes) : World := mapped.after cfg [.call (.signed 10) (bringing agent)]

theorem mapped_channel : (mapped.ledger.lane channel).channel = some (openedAt 1) := (rfl)

/-- An agent that is not mapped is not replaced by the one of the hint. -/
theorem errand_attributed :
    Unasked cfg mapped 10 (bringing (some [9])) (errand (some [9])) 1 (ran (some [9])) ∧
      AskedOnce cfg (handlerAt cfg 254) mapped 10 (bringing none) (errand none) (some 5)
        (.task [1] 3 4 (some 5) blankDigest) (ran none) ∧
      (ran none).host.sightings = mapped.host.sightings ++
        [.delivered (delivery (errand none) (.task [1] 3 4 (some 5) blankDigest))] := by
  have hastray : (enter cfg (handlerAt cfg 254) (.signed 10) (bringing (some [9]))).run mapped =
      (.ok (), ran (some [9])) := rfl
  have hdone : (enter cfg (handlerAt cfg 254) (.signed 10) (bringing none)).run mapped =
      (.ok (), ran none) := rfl
  refine ⟨?_, ?_, rfl⟩
  · obtain ⟨_, _, hsigner, hchannel, hattributed⟩ := received_packet_attributed rfl hastray
    cases hsigner
    obtain rfl := Option.some.inj (hchannel.symm.trans mapped_channel)
    exact hattributed.unmapped [9] rfl rfl
  · obtain ⟨_, _, hsigner, hchannel, hattributed⟩ := received_packet_attributed rfl hdone
    cases hsigner
    obtain rfl := Option.some.inj (hchannel.symm.trans mapped_channel)
    have hconcerns : (errand none).Concerns (mapped.ledger.agentOf [1]) 5 :=
      .mapped (show (errand none).named = some [8] from rfl) rfl
    obtain ⟨content, hbrings, hasked⟩ := hattributed.active 5 hconcerns rfl rfl
    cases hbrings
    exact hasked

end Small

end RelayLedger
