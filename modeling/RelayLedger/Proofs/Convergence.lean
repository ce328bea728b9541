import Mathlib.Data.List.Nodup
import RelayLedger.Proofs.Attribution
import RelayLedger.Proofs.Confinement
import RelayLedger.Proofs.Receipts

/-!
Packets that come in out of order. The checks of a packet read nothing that a packet with another
number writes, so with applications that judge each payload by itself every packet meets the same
fate wherever it stands in a batch, as long as no payload changes what the registry tells of the
agents that another one is about. What the received ones write, receipts at different numbers and
a running maximum, does not depend on their order either.
-/
namespace RelayLedger

open Reception

namespace Sequence

theorem max_right_comm (k m n : Sequence) : max (max k m) n = max (max k n) m := by
  apply UInt64.toNat_inj.mp
  simp only [UInt64.toNat_max]
  omega

theorem toNat_foldl_max (numbers : List Sequence) (first : Sequence) :
    (numbers.foldl max first).toNat = (numbers.map UInt64.toNat).foldl max first.toNat := by
  induction numbers generalizing first with
  | nil => rfl
  | cons n rest ih => rw [List.foldl_cons, ih, UInt64.toNat_max, List.map_cons, List.foldl_cons]

theorem le_foldl_max (numbers : List Sequence) (first : Sequence) :
    first ≤ numbers.foldl max first := by
  induction numbers generalizing first with
  | nil => exact UInt64.le_refl first
  | cons n rest ih =>
    refine UInt64.le_trans ?_ (ih (max first n))
    rw [UInt64.le_iff_toNat_le, UInt64.toNat_max]
    omega

end Sequence

/-- What comes of a packet that a relayer brings in, with `handle` for the applications. -/
def World.bring (cfg : Config) (handle : Handler) (who : Account) (w : World) (p : Packet) :
    Outcome × World :=
  (enter cfg handle (.signed who) (.value (.receive p))).run w

/-- What comes of packets that a relayer brings in one after another. -/
def World.bringAll (cfg : Config) (handle : Handler) (who : Account) (w : World) :
    List Packet → List Outcome × World
  | [] => ([], w)
  | p :: rest =>
    let (outcome, next) := w.bring cfg handle who p
    let (outcomes, last) := next.bringAll cfg handle who rest
    (outcome :: outcomes, last)

/-- The applications hand in no calls and do not change what the registry tells: of the ledger an
accepted delivery leaves all but what the applications keep there themselves. And the verdict on a
delivery is the one that it would have had without the packets that came before it. -/
structure Steady (cfg : Config) (handle : Handler) (who : Account) (w : World) : Prop where
  ledger : ∀ earlier d, (handle d (w.bringAll cfg handle who earlier).2).1 = .accepted →
    ∃ deliveries, (handle d (w.bringAll cfg handle who earlier).2).2.ledger =
      { (w.bringAll cfg handle who earlier).2.ledger with deliveries := deliveries }
  registry : ∀ earlier d, (handle d (w.bringAll cfg handle who earlier).2).1 = .accepted →
    (handle d (w.bringAll cfg handle who earlier).2).2.host.registry =
      (w.bringAll cfg handle who earlier).2.host.registry
  verdict : ∀ earlier d, (handle d (w.bringAll cfg handle who earlier).2).1 = (handle d w).1

/-- From `w` one lane has changed, and nothing else that a packet on its way in depends on. -/
structure World.Moved (id : Bytes) (change : Lane → Lane) (w after : World) : Prop where
  ledger : ∃ deliveries,
    after.ledger = { w.ledger.modifyLane id change with deliveries := deliveries }
  registry : after.host.registry = w.host.registry

theorem Ledger.modifyLane_self (l : Ledger) (id : Bytes) :
    (l.modifyLane id fun lane => lane) = l := by
  rw [modifyLane, Table.modify, Table.set_get]

section

variable {cfg : Config} {handle : Handler} {id : Bytes} {w mid after : World} {who : Account}
  {p q : Packet} {channel : Channel} {change next : Lane → Lane} {why : Refusal}

/-- Whatever came in before, the applications go on as they did. -/
theorem Steady.after_bring (h : Steady cfg handle who w) (p : Packet) :
    Steady cfg handle who (w.bring cfg handle who p).2 where
  ledger earlier := h.ledger (p :: earlier)
  registry earlier := h.registry (p :: earlier)
  verdict earlier d := (h.verdict (p :: earlier) d).trans (h.verdict [p] d).symm

namespace World.Moved

theorem of_log (id : Bytes) (w : World) (lines : List LogLine) :
    Moved id (fun lane => lane) w { w with host.log := lines } where
  ledger := ⟨w.ledger.deliveries, by rw [Ledger.modifyLane_self]⟩
  registry := rfl

theorem trans (h : Moved id change w mid) (hnext : Moved id next mid after) :
    Moved id (fun lane => next (change lane)) w after := by
  obtain ⟨ds, hledger⟩ := h.ledger
  obtain ⟨ds', hledger'⟩ := hnext.ledger
  refine ⟨⟨ds', ?_⟩, hnext.registry.trans h.registry⟩
  rw [hledger', hledger, ← Ledger.modifyLane_modifyLane w.ledger id change next]
  rfl

theorem lane_eq (h : Moved id change w after) :
    after.ledger.lane id = change (w.ledger.lane id) := by
  obtain ⟨ds, hledger⟩ := h.ledger
  rw [hledger]
  exact (Ledger.lane_modifyLane ..).trans (if_pos rfl)

theorem height_eq (h : Moved id change w after) : after.ledger.height = w.ledger.height := by
  obtain ⟨ds, hledger⟩ := h.ledger
  rw [hledger]
  rfl

end World.Moved

namespace Inbound

/-- The checks of a packet, as far as it gets with them. -/
def check (l : Ledger) (who : Account) (p : Packet) : Except Refusal Channel :=
  if l.isTrusted who then
    match (l.lane p.target).channel with
    | none => .error .channelNotFound
    | some channel =>
      if channel.state.isOpen then
        if channel.counterparty = p.source then
          if ((l.lane p.target).receipts.get p.sequence).isNone then
            if !p.isExpired l.height then .ok channel else .error .packetTimedOut
          else .error .packetAlreadyReceived
        else .error .channelMismatch
      else .error .channelNotOpen
  else .error .notTrustedRelayer

/-- The answer to a packet that has passed its checks. -/
def judge (handle : Handler) (w : World) (channel : Channel) (p : Packet) : Acknowledgement :=
  match assign w.ledger w.host.registry channel p with
  | .error why => .error why.code
  | .ok (content, _) =>
    if (handle (delivery p content) w).1 = .accepted then .ok
    else .error Nack.handlerRejected.code

theorem check_ok_iff : check w.ledger who p = .ok channel ↔ Admitted w who p channel := by
  unfold check
  constructor
  · intro h
    repeat' split at h
    all_goals cases h
    next htrusted _ hreceipt hearly hchannel hopen hpaired =>
      exact ⟨htrusted, hchannel, by simpa [ChannelState.isOpen] using hopen, hpaired,
        by simpa using hreceipt, by simpa [Packet.isExpired] using hearly⟩
  · intro h
    have hearly := h.early
    simp [h.trusted, h.channel_eq, h.opened, h.paired, h.unreceived, ChannelState.isOpen,
      Packet.isExpired, hearly]

theorem run_receive_of_refused (cfg : Config) (handle : Handler)
    (h : check w.ledger who p = .error why) :
    ∃ lines, (Call.perform cfg handle (.signed who) (.receive p)).run w =
      (.error (.refused why), { w with host.log := lines }) := by
  simp only [Call.perform, Origin.signer, pure_bind, receive, requireTrusted, bind_assoc,
    Relay.run_ledger_bind, Relay.run_ensure_bind, Relay.run_lane_bind, Relay.run_demand_bind,
    Relay.run_require_bind, Relay.run_now_bind]
  unfold check at h
  repeat' split at h
  all_goals cases h
  -- a check that is not logged leaves the log as it was
  all_goals simp_all
  all_goals exact ⟨w.host.log, rfl⟩

/-- What the answer to a packet is, and that nothing moves while it is found. -/
theorem run_answer_of_steady (hsteady : Steady cfg handle who w) (channel : Channel) (p : Packet)
    (id : Bytes) :
    ∃ agent mid, (answer handle channel p).run w = (.ok (agent, judge handle w channel p), mid) ∧
      World.Moved id (fun lane => lane) w mid := by
  unfold judge
  cases hassign : assign w.ledger w.host.registry channel p with
  | error why =>
    obtain ⟨lines, hrun⟩ := run_answer_of_unassigned handle hassign
    exact ⟨_, _, hrun, .of_log id w lines⟩
  | ok found =>
    obtain ⟨content, agent⟩ := found
    dsimp only
    by_cases hverdict : (handle (delivery p content) w).1 = .accepted
    · have hhandle : handle (delivery p content) w =
          (.accepted, (handle (delivery p content) w).2) := Prod.ext hverdict rfl
      rw [if_pos hverdict]
      refine ⟨agent, _, run_answer_of_accepted hassign hhandle,
        ⟨?_, hsteady.registry [] _ hverdict⟩⟩
      rw [Ledger.modifyLane_self]
      exact hsteady.ledger [] _ hverdict
    · obtain ⟨lines, hrun⟩ := run_answer_of_rejected hassign (Prod.eta _).symm hverdict
      rw [if_neg hverdict]
      exact ⟨_, _, hrun, (World.Moved.of_log id w lines).ledger, rfl⟩

end Inbound

/-- What comes of a packet: the answer that its receipt keeps, or why it is not taken. -/
def World.verdict (cfg : Config) (handle : Handler) (who : Account) (w : World) (p : Packet) :
    Except Fault Acknowledgement :=
  if (Call.layout cfg).admits (.receive p) then
    match Inbound.check w.ledger who p with
    | .ok channel => .ok (Inbound.judge handle w channel p)
    | .error why => .error (.refused why)
  else .error .undecodable

/-- The lane after a packet was brought to it at a height. -/
def Lane.bring (now : Height) (verdict : Packet → Except Fault Acknowledgement) (lane : Lane)
    (p : Packet) : Lane :=
  match verdict p with
  | .ok ack => lane.receive p.sequence ⟨now, p.timeout, ack⟩
  | .error _ => lane

/-- The lane after packets were brought to it one after another. -/
def Lane.bringAll (now : Height) (verdict : Packet → Except Fault Acknowledgement) (lane : Lane)
    (packets : List Packet) : Lane :=
  packets.foldl (Lane.bring now verdict) lane

theorem verdict_of_refused (hadmits : (Call.layout cfg).admits (.receive p) = true)
    (hcheck : Inbound.check w.ledger who p = .error why) :
    w.verdict cfg handle who p = .error (.refused why) := by
  rw [World.verdict, if_pos hadmits, hcheck]

theorem verdict_of_admitted (hadmits : (Call.layout cfg).admits (.receive p) = true)
    (hcheck : Inbound.check w.ledger who p = .ok channel) :
    w.verdict cfg handle who p = .ok (Inbound.judge handle w channel p) := by
  rw [World.verdict, if_pos hadmits, hcheck]

theorem Lane.bring_of_error {verdict : Packet → Except Fault Acknowledgement} {fault : Fault}
    (now : Height) (h : verdict p = .error fault) :
    (fun lane : Lane => lane.bring now verdict p) = fun lane => lane := by
  funext lane
  rw [bring, h]

theorem Lane.bring_of_ok {verdict : Packet → Except Fault Acknowledgement} {ack : Acknowledgement}
    (now : Height) (h : verdict p = .ok ack) :
    (fun lane : Lane => lane.bring now verdict p) =
      fun lane => lane.receive p.sequence ⟨now, p.timeout, ack⟩ := by
  funext lane
  rw [bring, h]

/-- A packet that is brought in meets its verdict and moves its lane accordingly. -/
theorem bring_moved (hsteady : Steady cfg handle who w) (p : Packet) :
    (w.bring cfg handle who p).1 = (w.verdict cfg handle who p).map (fun _ => ()) ∧
      World.Moved p.target
        (fun lane => lane.bring w.ledger.height (w.verdict cfg handle who) p)
        w (w.bring cfg handle who p).2 := by
  unfold World.bring
  by_cases hadmits : (Call.layout cfg).admits (.receive p) = true
  · have hcall : (Submission.value (.receive p)).call? cfg = some (.receive p) := if_pos hadmits
    cases hcheck : Inbound.check w.ledger who p with
    | error why =>
      have hverdict : w.verdict cfg handle who p = .error (.refused why) :=
        verdict_of_refused hadmits hcheck
      obtain ⟨lines, hrun⟩ := Inbound.run_receive_of_refused cfg handle hcheck
      rw [run_enter_of_some hcall, hrun, hverdict, Lane.bring_of_error _ hverdict]
      exact ⟨rfl, .of_log p.target w lines⟩
    | ok channel =>
      have hverdict : w.verdict cfg handle who p = .ok (Inbound.judge handle w channel p) :=
        verdict_of_admitted hadmits hcheck
      obtain ⟨agent, mid, hanswer, hmoved⟩ :=
        Inbound.run_answer_of_steady hsteady channel p p.target
      have hrun := receive_of_answer cfg (Inbound.check_ok_iff.mp hcheck) hanswer
      rw [run_enter_of_some hcall, hrun, hverdict, Lane.bring_of_ok _ hverdict]
      exact ⟨rfl, hmoved.trans ⟨⟨mid.ledger.deliveries, rfl⟩, rfl⟩⟩
  · have hcall : (Submission.value (.receive p)).call? cfg = none := if_neg hadmits
    have hverdict : w.verdict cfg handle who p = .error .undecodable := if_neg hadmits
    rw [hverdict, Lane.bring_of_error _ hverdict, enter, hcall]
    exact ⟨rfl, .of_log p.target w w.host.log⟩

/-- What a packet with another number on the same channel moved makes no difference to a packet. -/
theorem verdict_congr (h : World.Moved id change w mid) (hq : q.target = id)
    (hjudged : ∀ d, (handle d mid).1 = (handle d w).1)
    (hchannel : ∀ lane, (change lane).channel = lane.channel)
    (hreceipt : ∀ lane, (change lane).receipts.get q.sequence = lane.receipts.get q.sequence) :
    mid.verdict cfg handle who q = w.verdict cfg handle who q := by
  subst hq
  have hlane := h.lane_eq
  obtain ⟨ds, hledger⟩ := h.ledger
  have hcheck : Inbound.check mid.ledger who q = Inbound.check w.ledger who q := by
    unfold Inbound.check
    rw [hlane, hchannel, hreceipt, hledger]
    rfl
  have hjudge : Inbound.judge handle mid = Inbound.judge handle w := by
    funext channel p
    have hpeers : mid.ledger.peers = w.ledger.peers := by rw [hledger]; rfl
    simp only [Inbound.judge, h.registry, Inbound.assign_congr hpeers, hjudged]
  rw [World.verdict, World.verdict, hcheck, hjudge]

end

namespace Lane

variable {now : Height} {verdict : Packet → Except Fault Acknowledgement} {lane : Lane}
  {p q : Packet} {packets : List Packet} {ack : Acknowledgement} {s : Sequence}

theorem bring_cases (now : Height) (verdict : Packet → Except Fault Acknowledgement)
    (lane : Lane) (p : Packet) :
    (∃ ack, verdict p = .ok ack ∧
      lane.bring now verdict p = lane.receive p.sequence ⟨now, p.timeout, ack⟩) ∨
    ((∀ ack, verdict p ≠ .ok ack) ∧ lane.bring now verdict p = lane) := by
  unfold bring
  cases verdict p with
  | ok ack => exact .inl ⟨ack, rfl, rfl⟩
  | error fault => exact .inr ⟨nofun, rfl⟩

theorem channel_bring : (lane.bring now verdict p).channel = lane.channel := by
  rcases bring_cases now verdict lane p with ⟨ack, -, h⟩ | ⟨-, h⟩ <;> rw [h]
  rfl

theorem receipt_bring_of_ne (h : s ≠ p.sequence) :
    (lane.bring now verdict p).receipts.get s = lane.receipts.get s := by
  rcases bring_cases now verdict lane p with ⟨ack, -, heq⟩ | ⟨-, heq⟩ <;> rw [heq]
  exact Table.get_set_of_ne _ _ h

theorem receive_comm {m n : Sequence} (h : m ≠ n) (lane : Lane) (r t : Receipt) :
    (lane.receive m r).receive n t = (lane.receive n t).receive m r := by
  simp only [receive, Table.set_comm _ _ _ h, Option.map_map, Sequences.afterRecv_eq,
    Function.comp_def, Sequence.max_right_comm _ (Sequence.next m)]

/-- Two packets with different numbers may trade places. -/
theorem bring_comm (h : p.sequence ≠ q.sequence) (lane : Lane) :
    (lane.bring now verdict p).bring now verdict q =
      (lane.bring now verdict q).bring now verdict p := by
  unfold bring
  cases verdict p with
  | error fault => rfl
  | ok ack =>
    cases verdict q with
    | error fault => rfl
    | ok ack' => exact receive_comm h lane _ _

/-- The lane after packets were brought to it does not depend on their order. -/
theorem bringAll_perm {order : List Packet} (horder : order.Perm packets)
    (hdistinct : (packets.map Packet.sequence).Nodup) (lane : Lane) :
    lane.bringAll now verdict order = lane.bringAll now verdict packets := by
  apply horder.foldl_eq'
  intro p hp q hq lane
  by_cases hpq : p = q
  · rw [hpq]
  · apply bring_comm
    intro hsequence
    exact hpq (List.inj_on_of_nodup_map hdistinct (horder.subset hp) (horder.subset hq) hsequence)

/-- Bringing packets changes the receipts and the counts of a lane only. -/
theorem bringAll_eq (now : Height) (verdict : Packet → Except Fault Acknowledgement)
    (lane : Lane) (packets : List Packet) :
    lane.bringAll now verdict packets =
      { lane with
        receipts := (lane.bringAll now verdict packets).receipts
        sequences := (lane.bringAll now verdict packets).sequences } := by
  induction packets generalizing lane with
  | nil => rfl
  | cons p rest ih =>
    rw [bringAll, List.foldl_cons, ← bringAll, ih]
    rcases bring_cases now verdict lane p with ⟨ack, -, h⟩ | ⟨-, h⟩ <;> rw [h]
    rfl

theorem modifyLane_bringAll (now : Height) (verdict : Packet → Except Fault Acknowledgement)
    (l : Ledger) (id : Bytes) (packets : List Packet) :
    l.modifyLane id (fun lane => lane.bringAll now verdict packets) =
      l.modifyLane id fun lane =>
        { lane with
          receipts := ((l.lane id).bringAll now verdict packets).receipts
          sequences := ((l.lane id).bringAll now verdict packets).sequences } :=
  congrArg (fun lane => { l with lanes := l.lanes.set id lane })
    (bringAll_eq now verdict (l.lane id) packets)

theorem receipt_bringAll_of_not_taken
    (h : ∀ q ∈ packets, q.sequence = s → ∀ ack, verdict q ≠ .ok ack) (lane : Lane) :
    (lane.bringAll now verdict packets).receipts.get s = lane.receipts.get s := by
  induction packets generalizing lane with
  | nil => rfl
  | cons p rest ih =>
    rw [bringAll, List.foldl_cons, ← bringAll, ih fun q hq => h q (List.mem_cons_of_mem p hq)]
    by_cases hs : s = p.sequence
    · rcases bring_cases now verdict lane p with ⟨ack, hack, -⟩ | ⟨-, heq⟩
      · exact absurd hack (h p List.mem_cons_self hs.symm ack)
      · rw [heq]
    · exact receipt_bring_of_ne hs

theorem receipt_bringAll_of_taken (hdistinct : (packets.map Packet.sequence).Nodup)
    (hp : p ∈ packets) (hack : verdict p = .ok ack) (lane : Lane) :
    (lane.bringAll now verdict packets).receipts.get p.sequence =
      some ⟨now, p.timeout, ack⟩ := by
  induction packets generalizing lane with
  | nil => simp at hp
  | cons first rest ih =>
    rw [List.map_cons, List.nodup_cons] at hdistinct
    rw [bringAll, List.foldl_cons, ← bringAll]
    rcases List.mem_cons.mp hp with rfl | hp
    · rw [receipt_bringAll_of_not_taken, bring, hack]
      · exact Table.get_set_self ..
      · intro q hq hsequence
        exact absurd (hsequence ▸ List.mem_map_of_mem hq) hdistinct.1
    · exact ih hdistinct.2 hp _

/-- The number expected next becomes the highest one that follows a packet that was taken, if it
was not higher already. -/
theorem sequences_bringAll (packets : List Packet) (lane : Lane) :
    (lane.bringAll now verdict packets).sequences = lane.sequences.map fun counts =>
      { counts with
        recv := ((packets.filter fun p => (verdict p).isOk).map fun p =>
          Sequence.next p.sequence).foldl max counts.recv } := by
  induction packets generalizing lane with
  | nil => exact Option.map_id'.symm
  | cons p rest ih =>
    rw [bringAll, List.foldl_cons, ← bringAll, ih, List.filter_cons]
    rcases bring_cases now verdict lane p with ⟨ack, hack, heq⟩ | ⟨hnot, heq⟩
    · have hok : (verdict p).isOk = true := by rw [hack]; rfl
      rw [heq, if_pos hok, receive, Option.map_map]
      simp only [Function.comp_def, Sequences.afterRecv_eq, List.map_cons, List.foldl_cons]
    · have herror : ¬(verdict p).isOk = true := by
        cases hverdict : verdict p with
        | ok ack => exact absurd hverdict (hnot ack)
        | error fault => exact Bool.false_ne_true
      rw [heq, if_neg herror]

end Lane

section

variable {cfg : Config} {handle : Handler} {id : Bytes} {w after : World} {who : Account}
  {packets : List Packet}

/-- Packets with different numbers on one channel meet the verdicts that each of them would have
met alone. -/
theorem bringAll_moved (hsteady : Steady cfg handle who w) (htarget : ∀ p ∈ packets, p.target = id)
    (hdistinct : (packets.map Packet.sequence).Nodup) :
    (w.bringAll cfg handle who packets).1 =
        packets.map (fun p => (w.verdict cfg handle who p).map fun _ => ()) ∧
      World.Moved id
        (fun lane => lane.bringAll w.ledger.height (w.verdict cfg handle who) packets)
        w (w.bringAll cfg handle who packets).2 := by
  induction packets generalizing w with
  | nil => exact ⟨rfl, .of_log id w w.host.log⟩
  | cons p rest ih =>
    rw [List.map_cons, List.nodup_cons] at hdistinct
    have hp : p.target = id := htarget p List.mem_cons_self
    have hrest : ∀ q ∈ rest, q.target = id := fun q hq => htarget q (List.mem_cons_of_mem p hq)
    obtain ⟨houtcome, hmoved⟩ := bring_moved hsteady p
    rw [hp] at hmoved
    have hverdicts : ∀ q ∈ rest, (w.bring cfg handle who p).2.verdict cfg handle who q =
        w.verdict cfg handle who q := by
      intro q hq
      apply verdict_congr hmoved (hrest q hq) (hsteady.verdict [p]) fun _ => Lane.channel_bring
      intro lane
      apply Lane.receipt_bring_of_ne
      intro hsequence
      exact hdistinct.1 (hsequence ▸ List.mem_map_of_mem hq)
    obtain ⟨houtcomes, hlater⟩ := ih (hsteady.after_bring p) hrest hdistinct.2
    have hlanes : ∀ lane : Lane,
        lane.bringAll (w.bring cfg handle who p).2.ledger.height
            ((w.bring cfg handle who p).2.verdict cfg handle who) rest =
          lane.bringAll w.ledger.height (w.verdict cfg handle who) rest := by
      intro lane
      apply List.foldl_ext
      intro lane q hq
      rw [Lane.bring, Lane.bring, hverdicts q hq, hmoved.height_eq]
    constructor
    · change (w.bring cfg handle who p).1 ::
        ((w.bring cfg handle who p).2.bringAll cfg handle who rest).1 = _
      rw [houtcome, houtcomes, List.map_cons]
      congr 1
      apply List.map_congr_left
      intro q hq
      rw [hverdicts q hq]
    · have htogether := hmoved.trans hlater
      simp only [hlanes] at htogether
      exact htogether

end

/-- The packets of a batch that would be taken if they came alone. -/
def World.taken (cfg : Config) (handle : Handler) (who : Account) (w : World)
    (packets : List Packet) : List Packet :=
  packets.filter fun p => (w.bring cfg handle who p).1.isOk

/-- What a batch of packets for one channel leaves of the ledger. -/
structure Converged (cfg : Config) (handle : Handler) (who : Account) (id : Bytes)
    (packets : List Packet) (w after : World) : Prop where
  /-- Only the receipts and the counts of the channel change, and what the applications keep. -/
  nothing_else : after.ledger =
    { w.ledger.modifyLane id fun lane =>
        { lane with
          receipts := (after.ledger.lane id).receipts
          sequences := (after.ledger.lane id).sequences } with
      deliveries := after.ledger.deliveries }
  /-- Each packet that is taken leaves the receipt that it would have left alone. -/
  received : ∀ p ∈ w.taken cfg handle who packets, ∃ ack,
    (w.bring cfg handle who p).2.ledger.receipt id p.sequence =
      some ⟨w.ledger.height, p.timeout, ack⟩ ∧
    after.ledger.receipt id p.sequence = some ⟨w.ledger.height, p.timeout, ack⟩
  unreceived : ∀ s, s ∉ (w.taken cfg handle who packets).map Packet.sequence →
    after.ledger.receipt id s = w.ledger.receipt id s
  /-- The number that is expected next is the greatest of the one before and of those that follow
  a packet that is taken, the last number being its own successor. -/
  expected : ∀ counts, (w.ledger.lane id).sequences = some counts → ∃ recv,
    (after.ledger.lane id).sequences = some { counts with recv } ∧
    counts.recv.toNat ≤ recv.toNat ∧
    recv.toNat = ((w.taken cfg handle who packets).map fun p =>
      min (p.sequence.toNat + 1) 18446744073709551615).foldl max counts.recv.toNat

section

variable {cfg : Config} {handle : Handler} {id : Bytes} {w after : World} {who : Account}
  {packets : List Packet}

theorem taken_eq (hsteady : Steady cfg handle who w) (packets : List Packet) :
    w.taken cfg handle who packets =
      packets.filter fun p => (w.verdict cfg handle who p).isOk := by
  apply List.filter_congr
  intro p _
  rw [(bring_moved hsteady p).1]
  cases w.verdict cfg handle who p <;> rfl

theorem receipt_bring (hsteady : Steady cfg handle who w) {p : Packet} {ack : Acknowledgement}
    (hverdict : w.verdict cfg handle who p = .ok ack) :
    (w.bring cfg handle who p).2.ledger.receipt p.target p.sequence =
      some ⟨w.ledger.height, p.timeout, ack⟩ := by
  have hmoved := (bring_moved hsteady p).2
  rw [Lane.bring_of_ok _ hverdict] at hmoved
  rw [Ledger.receipt, hmoved.lane_eq]
  exact Table.get_set_self ..

theorem World.Moved.converged (hsteady : Steady cfg handle who w)
    (htarget : ∀ p ∈ packets, p.target = id) (hdistinct : (packets.map Packet.sequence).Nodup)
    (h : World.Moved id
      (fun lane => lane.bringAll w.ledger.height (w.verdict cfg handle who) packets)
      w after) : Converged cfg handle who id packets w after := by
  have hlane := h.lane_eq
  constructor
  case nothing_else =>
    obtain ⟨ds, hledger⟩ := h.ledger
    rw [hlane, hledger, Lane.modifyLane_bringAll]
  case received =>
    intro p hp
    rw [taken_eq hsteady, List.mem_filter] at hp
    obtain ⟨hmem, hok⟩ := hp
    cases hverdict : w.verdict cfg handle who p with
    | error fault => simp [hverdict, Except.isOk, Except.toBool] at hok
    | ok ack =>
      have halone := receipt_bring hsteady hverdict
      rw [htarget p hmem] at halone
      refine ⟨ack, halone, ?_⟩
      rw [Ledger.receipt, hlane]
      exact Lane.receipt_bringAll_of_taken hdistinct hmem hverdict _
  case unreceived =>
    intro s hs
    rw [Ledger.receipt, hlane]
    apply Lane.receipt_bringAll_of_not_taken
    rintro q hq rfl ack hverdict
    apply hs
    apply List.mem_map_of_mem
    rw [taken_eq hsteady, List.mem_filter, hverdict]
    exact ⟨hq, rfl⟩
  case expected =>
    intro counts hcounts
    rw [hlane, Lane.sequences_bringAll, hcounts, Option.map_some, taken_eq hsteady]
    refine ⟨_, rfl, ?_, ?_⟩
    · exact UInt64.le_iff_toNat_le.mp (Sequence.le_foldl_max ..)
    · rw [Sequence.toNat_foldl_max, List.map_map]
      simp only [Function.comp_def, Sequence.toNat_next]

end

/-- Packets with different numbers on one channel, brought in by one relayer to applications that
judge each payload by itself and leave the registry alone, end the same in whatever order they
come: each of them has the outcome that it would have had alone, and the ledgers that are left
differ in nothing but in what the applications keep. -/
theorem unordered_delivery_converges {cfg : Config} {handle : Handler} {who : Account} {id : Bytes}
    {w : World} {packets order : List Packet} (hsteady : Steady cfg handle who w)
    (htarget : ∀ p ∈ packets, p.target = id) (hdistinct : (packets.map Packet.sequence).Nodup)
    (horder : order.Perm packets) :
    (w.bringAll cfg handle who order).1 = order.map (fun p => (w.bring cfg handle who p).1) ∧
      { (w.bringAll cfg handle who order).2.ledger with deliveries := [] } =
        { (w.bringAll cfg handle who packets).2.ledger with deliveries := [] } ∧
      Converged cfg handle who id packets w (w.bringAll cfg handle who order).2 := by
  have horder' : (order.map Packet.sequence).Nodup :=
    (horder.map Packet.sequence).nodup_iff.mpr hdistinct
  have htarget' : ∀ p ∈ order, p.target = id := fun p hp => htarget p (horder.subset hp)
  obtain ⟨houtcomes, hmoved⟩ := bringAll_moved hsteady htarget' horder'
  obtain ⟨-, hmoved'⟩ := bringAll_moved hsteady htarget hdistinct
  have hlanes : (fun lane : Lane =>
      lane.bringAll w.ledger.height (w.verdict cfg handle who) order) =
        fun lane => lane.bringAll w.ledger.height (w.verdict cfg handle who) packets :=
    funext fun lane => Lane.bringAll_perm horder hdistinct lane
  rw [hlanes] at hmoved
  refine ⟨?_, ?_, hmoved.converged hsteady htarget hdistinct⟩
  · rw [houtcomes]
    apply List.map_congr_left
    intro p _
    rw [(bring_moved hsteady p).1]
  · obtain ⟨ds, hledger⟩ := hmoved.ledger
    obtain ⟨ds', hledger'⟩ := hmoved'.ledger
    rw [hledger, hledger']

namespace Small

/-- Applications that keep a record of each delivery and reject one number. -/
def picky : Handler := fun d w =>
  (if d.sequence = 4 then .rejected else .accepted,
    { w with ledger.deliveries := w.ledger.deliveries ++ [d] })

theorem steady_picky (w : World) : Steady cfg picky 10 w where
  ledger _ _ _ := ⟨_, rfl⟩
  registry _ _ _ := rfl
  verdict _ _ := rfl

def numbered (n : Sequence) (source : Bytes) : Packet :=
  { packet 70 with sequence := n, source := source }

/-- A packet that its application rejects, one from another channel, and two that are taken. -/
def batch : List Packet := [numbered 4 [2], numbered 90 [3], numbered 20 [2], numbered 7 [2]]

/-- A ledger whose one channel is open. -/
def awaiting : World := first.after cfg opening

theorem batch_converges :
    Steady cfg picky 10 awaiting ∧ (∀ p ∈ batch, p.target = channel) ∧
      (batch.map Packet.sequence).Nodup ∧ batch.reverse.Perm batch ∧
      (awaiting.bringAll cfg picky 10 batch.reverse).1 =
        [.ok (), .ok (), .error (.refused .channelMismatch), .ok ()] ∧
      { (awaiting.bringAll cfg picky 10 batch.reverse).2.ledger with deliveries := [] } =
        { (awaiting.bringAll cfg picky 10 batch).2.ledger with deliveries := [] } ∧
      Converged cfg picky 10 channel batch awaiting
        (awaiting.bringAll cfg picky 10 batch.reverse).2 ∧
      ((awaiting.bringAll cfg picky 10 batch).2.ledger.lane channel).sequences =
        some ⟨1, 21, 1⟩ := by
  have hsteady := steady_picky awaiting
  have htarget : ∀ p ∈ batch, p.target = channel := by
    intro p hp
    simp only [batch, List.mem_cons, List.not_mem_nil, or_false] at hp
    rcases hp with rfl | rfl | rfl | rfl <;> rfl
  have hdistinct : (batch.map Packet.sequence).Nodup := by decide
  obtain ⟨houtcomes, hledgers, hconverged⟩ :=
    unordered_delivery_converges hsteady htarget hdistinct batch.reverse_perm
  exact ⟨hsteady, htarget, hdistinct, batch.reverse_perm, houtcomes, hledgers, hconverged, rfl⟩

/-- Applications that accept everything, and at a raw payload retire an agent from the registry. -/
def retiring : Handler := fun d w =>
  (.accepted,
    if d.content.topic = .raw then { w with host.registry := .ofRanges [(1, 100)] [5] } else w)

/-- A packet that is about the agent. -/
def praise : Packet := { packet 70 with sequence := 2, payload := .reputation 5 1 blankDigest }

/-- Applications that hand in no calls and accept everything may still change what the registry
tells. Then a packet about an agent is answered differently after a packet that has it retired. -/
theorem retired_agent_diverges :
    ¬∀ (handle : Handler) (w : World) (packets order : List Packet) (s : Sequence),
      (∀ d x, (handle d x).1 = .accepted ∧ (handle d x).2.ledger = x.ledger ∧
        (handle d x).2.chronicle = x.chronicle) →
      (∀ p ∈ packets, p.target = channel) → (packets.map Packet.sequence).Nodup →
      order.Perm packets →
      (w.bringAll cfg handle 10 order).2.ledger.receipt channel s =
        (w.bringAll cfg handle 10 packets).2.ledger.receipt channel s := by
  intro hall
  have hquiet : ∀ d x, (retiring d x).1 = .accepted ∧ (retiring d x).2.ledger = x.ledger ∧
      (retiring d x).2.chronicle = x.chronicle := by
    intro d x
    unfold retiring
    split <;> exact ⟨rfl, rfl, rfl⟩
  have htarget : ∀ p ∈ [packet 70, praise], p.target = channel := by
    intro p hp
    rcases List.mem_pair.mp hp with rfl | rfl <;> rfl
  have hsame := hall retiring awaiting [packet 70, praise] [praise, packet 70] 2 hquiet htarget
    (by decide) (.swap _ _ _)
  exact absurd hsame (by decide +kernel)

end Small

end RelayLedger
