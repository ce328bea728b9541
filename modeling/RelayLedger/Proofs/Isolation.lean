import RelayLedger.Proofs.Runs

/-!
What an application can do to the ledger by way of a delivery. It may write what it likes and
hand in calls, some of which succeed and some of which fail; a rejected delivery leaves nothing
of all that, and an accepted one leaves all of it. In both cases the packet leaves its receipt,
the number that is expected next, and one event, which no application can keep it from.
-/
namespace RelayLedger

open Reception

/-- The number that is expected next is raised to the one after a packet that came in. -/
theorem Sequences.afterRecv_eq (counts : Sequences) (n : Sequence) :
    counts.afterRecv n = { counts with recv := max counts.recv (Sequence.next n) } := by
  have hmax : max counts.recv (Sequence.next n) =
      if counts.recv < Sequence.next n then Sequence.next n else counts.recv := by
    change (if counts.recv ≤ Sequence.next n then _ else _) = _
    by_cases hlt : counts.recv < Sequence.next n
    · rw [if_pos hlt, if_pos (UInt64.le_of_lt hlt)]
    · rw [if_neg hlt]
      split
      · next hle => exact UInt64.le_antisymm (UInt64.not_lt.mp hlt) hle
      · rfl
  simp only [afterRecv, hmax]

/-- From `base` there is nothing left in `after` but what a packet leaves that was admitted at
height `now` and answered so: its receipt, the number expected next, and one event, which is not
recorded before the first block. -/
structure Settles (base : World) (now : Height) (who : Account) (p : Packet)
    (agent : Option AgentId) (ack : Acknowledgement) (after : World) : Prop where
  ledger : after.ledger = base.ledger.modifyLane p.target fun lane =>
    { lane with
      receipts := lane.receipts.set p.sequence (some ⟨now, p.timeout, ack⟩)
      sequences := lane.sequences.map fun counts =>
        { counts with recv := max counts.recv (Sequence.next p.sequence) } }
  events : after.chronicle.events =
    if base.ledger.height = 0 then base.chronicle.events
    else base.chronicle.events ++
      [.packetReceived p.target p.sequence who agent ack.success ack.code]
  deeds : after.chronicle.deeds =
    base.chronicle.deeds ++ [⟨base.ledger.height, .signed who, .receive p⟩]
  registry : after.host.registry = base.host.registry

section

variable {cfg : Config} {handle : Handler} {w base left : World} {who : Account} {p : Packet}
  {channel : Channel} {agent : Option AgentId} {ack : Acknowledgement} {s : Submission}
  {content : Content} {now : Height}

theorem Settles.book (base : World) (now : Height) (who : Account) (p : Packet)
    (agent : Option AgentId) (ack : Acknowledgement) :
    Settles base now who p agent ack
      (base.book (.signed who) (.receive p) (receipted base.ledger now p ack)
        (news who p agent ack)) where
  ledger := by
    simp only [World.book, receipted, Lane.receive, Sequences.afterRecv_eq]
  events := Chronicle.events_tell ..
  deeds := World.deeds_book ..
  registry := rfl

/-- Of the host nothing is settled but the registry. -/
theorem Settles.host {after : World} (h : Settles base now who p agent ack after) {host : Host}
    (hregistry : host.registry = base.host.registry) :
    Settles base now who p agent ack { after with host := host } :=
  ⟨h.ledger, h.events, h.deeds, hregistry⟩

/-- An admitted packet is settled on the world that its answer left. -/
theorem enter_of_admitted (cfg : Config) (handle : Handler)
    (hcall : s.call? cfg = some (.receive p)) (h : Admitted w who p channel) :
    ∃ agent ack mid, Answered handle w channel p agent ack mid ∧
      (enter cfg handle (.signed who) s).run w =
        (.ok (), mid.book (.signed who) (.receive p)
          (receipted mid.ledger w.ledger.height p ack) (news who p agent ack)) := by
  obtain ⟨agent, ack, mid, hanswered, hrun⟩ := receive_of_admitted cfg handle h
  refine ⟨agent, ack, mid, hanswered, ?_⟩
  rw [enter_ok_iff]
  exact ⟨.receive p, _, hcall, hrun, rfl⟩

theorem Reception.Answered.settles_of_unassigned {mid : World} {why : Nack}
    (h : Answered handle w channel p agent ack mid)
    (hassign : Inbound.assign w.ledger w.host.registry channel p = .error why) :
    Settles w now who p none (.error why.code)
      (mid.book (.signed who) (.receive p) (receipted mid.ledger now p ack)
        (news who p agent ack)) := by
  cases h with
  | @unassigned why' host hassign' hregistry =>
    obtain rfl : why = why' := Except.error.inj (hassign.symm.trans hassign')
    exact (Settles.book w now who p none _).host hregistry
  | accepted hassign' | rejected hassign' =>
    rw [hassign] at hassign'
    cases hassign'

theorem Reception.Answered.settles_of_assigned {mid : World} {verdict : Verdict}
    (h : Answered handle w channel p agent ack mid) {named : Option AgentId}
    (hassign : Inbound.assign w.ledger w.host.registry channel p = .ok (content, named))
    (hhandle : handle (delivery p content) w = (verdict, left)) :
    (verdict ≠ .accepted → Settles w now who p none (.error Nack.handlerRejected.code)
      (mid.book (.signed who) (.receive p) (receipted mid.ledger now p ack)
        (news who p agent ack))) ∧
    (verdict = .accepted → Settles left now who p named .ok
      (mid.book (.signed who) (.receive p) (receipted mid.ledger now p ack)
        (news who p agent ack))) := by
  cases h with
  | unassigned hassign' =>
    rw [hassign] at hassign'
    cases hassign'
  | accepted hassign' hhandle' =>
    rw [hassign] at hassign'
    cases hassign'
    rw [hhandle] at hhandle'
    cases hhandle'
    exact ⟨fun hnot => absurd rfl hnot, fun _ => .book left now who p agent .ok⟩
  | rejected hassign' hhandle' hverdict hregistry =>
    rw [hassign] at hassign'
    cases hassign'
    rw [hhandle] at hhandle'
    cases hhandle'
    exact ⟨fun _ => (Settles.book w now who p none _).host hregistry,
      fun haccepted => absurd haccepted hverdict⟩

/-- Whatever the application of an admitted packet does, the packet is received. If it is
answered negatively, nothing has happened on the ledger but that; if not, it has happened after
what the application did. -/
theorem delivery_isolated (cfg : Config) (handle : Handler)
    (hcall : s.call? cfg = some (.receive p)) (h : Admitted w who p channel) :
    ∃ after, (enter cfg handle (.signed who) s).run w = (.ok (), after) ∧
      (∀ why, Inbound.assign w.ledger w.host.registry channel p = .error why →
        Settles w w.ledger.height who p none (.error why.code) after) ∧
      ∀ content agent verdict left,
        Inbound.assign w.ledger w.host.registry channel p = .ok (content, agent) →
        handle (delivery p content) w = (verdict, left) →
        (verdict ≠ .accepted →
          Settles w w.ledger.height who p none (.error Nack.handlerRejected.code) after) ∧
        (verdict = .accepted → Settles left w.ledger.height who p agent .ok after) := by
  obtain ⟨agent, ack, mid, hanswered, hrun⟩ := enter_of_admitted cfg handle hcall h
  refine ⟨_, hrun, ?_, ?_⟩
  · intro why hassign
    exact hanswered.settles_of_unassigned hassign
  · intro content agent verdict left hassign hhandle
    exact hanswered.settles_of_assigned hassign hhandle

end

namespace Small

/-- A channel whose application opens another channel, sends on its own one, fails to send
elsewhere, and rejects the payload in the end. -/
def meddling : World :=
  first.after cfg (opening ++ [.install .raw (.once
    [(.root, .value (.openChannel [3] [4])), (.signed 1, sending),
      (.signed 1, .value (.send channel [3] [4] none (.raw [7])))] false)])

/-- The channel as it was opened at a height. -/
def openedAt (height : Height) : Channel := ⟨channel, [1], [2], .opened, height, some height, none⟩

theorem meddling_undone :
    Admitted meddling 10 (packet 70) (openedAt 1) ∧ ∃ left after,
      handlerAt cfg 254 (delivery (packet 70) (.raw [1] channel [7])) meddling =
        (.rejected, left) ∧
      left.ledger.counter = 2 ∧ (left.ledger.lane channel).pending = 1 ∧
      meddling.take cfg (.call (.signed 10) (.value (.receive (packet 70)))) = (.ok (), after) ∧
      after.ledger.counter = 1 ∧ (after.ledger.lane channel).pending = 0 ∧
      after.chronicle.events = meddling.chronicle.events ++
        [.packetReceived channel 1 10 none false (some 4)] := by
  have hadmitted : Admitted meddling 10 (packet 70) (openedAt 1) :=
    ⟨rfl, rfl, rfl, rfl, rfl, by decide⟩
  obtain ⟨after, hrun, -, hassigned⟩ :=
    delivery_isolated cfg (handlerAt cfg 254) (s := .value (.receive (packet 70))) rfl hadmitted
  obtain ⟨hrejected, -⟩ := hassigned (.raw [1] channel [7]) none .rejected _ rfl rfl
  obtain ⟨hledger, hevents, -, -⟩ := hrejected (by decide)
  refine ⟨hadmitted, _, after, rfl, rfl, rfl, ?_, ?_, ?_, ?_⟩
  · change (submit cfg (.signed 10) (.value (.receive (packet 70)))).run meddling = _
    rw [submit_eq]
    exact hrun
  · rw [hledger]
    rfl
  · rw [hledger]
    rfl
  · rw [hevents]
    rfl

/-- Before the first block a packet is received without any event. -/
theorem received_unheard :
    ∃ w after, Admitted w 10 (packet 70) (openedAt 0) ∧
      w.take cfg (.call (.signed 10) (.value (.receive (packet 70)))) = (.ok (), after) ∧
      (after.ledger.lane channel).receipts.get 1 = some ⟨0, 70, .ok⟩ ∧
      after.chronicle.events = w.chronicle.events :=
  ⟨first.after cfg (opening.drop 1), _, ⟨rfl, rfl, rfl, rfl, rfl, by decide⟩, rfl, rfl, rfl⟩

end Small

end RelayLedger
