import RelayLedger.Proofs.Answers
import RelayLedger.Proofs.Fulfilment
import RelayLedger.Proofs.Isolation
import RelayLedger.Proofs.LedgerPair
import RelayLedger.Proofs.Receipts
import RelayLedger.Proofs.WireForm

/-!
The way of a packet from one ledger to another one and of its answer back. Each ledger makes its
own checks, and none of them asks for more than the ledger before it has made sure of: a packet
that was let out keeps to the limits of everything that takes it in, in whichever form the call
is handed in, and so does its answer.
-/
namespace RelayLedger

open Reception

namespace Submission

variable {cfg : Config} {call : Call} {s : Submission}

/-- The forms in which a call can be handed in: as a value, and as its bytes. -/
def forms (cfg : Config) (call : Call) : List Submission :=
  [.value call, .bytes ((Call.layout cfg).write call)]

theorem call?_of_mem_forms (hbounded : call.Bounded cfg) (hs : s ∈ forms cfg call) :
    s.call? cfg = some call := by
  have hadmits := Call.admits_iff.mpr hbounded
  rcases List.mem_pair.mp hs with rfl | rfl
  · exact if_pos hadmits
  · exact (Call.exact_layout cfg).readAll_eq_some_iff.mpr ⟨hadmits, rfl⟩

/-- The parts of a call that is handed in keep to their limits. -/
theorem bounded_of_call? (h : s.call? cfg = some call) : call.Bounded cfg := by
  rw [← Call.admits_iff]
  cases s with
  | value handed =>
    obtain ⟨hadmits, heq⟩ := Option.ite_none_right_eq_some.mp h
    rwa [← Option.some.inj heq]
  | bytes input => exact ((Call.exact_layout cfg).readAll_eq_some_iff.mp h).1

end Submission

section

variable {cfg : Config} {handle : Handler} {w mid : World} {who : Account} {id : Bytes}
  {s : Sequence} {ack : Acknowledgement} {c : Commitment} {p : Packet} {channel : Channel}
  {t : Submission}

theorem Bytes.length_le_of_fits {limit : UInt32} {bs : Bytes} (h : bs.fits limit = true) :
    bs.length ≤ limit.toNat := of_decide_eq_true h

theorem Bytes.tellable_of_fits {limit : UInt32} {bs : Bytes} (h : bs.fits limit = true) :
    bs.Tellable :=
  Nat.lt_of_le_of_lt (length_le_of_fits h) limit.toNat_lt

/-- An answer says yes, or no with a code, and carries nothing else. -/
theorem Reception.Answered.ack_bounded {agent : Option AgentId}
    (h : Answered handle w channel p agent ack mid) : ack.Bounded cfg := by
  cases h <;> exact Nat.zero_le _

/-- An admitted packet that keeps to its limits is received in whichever form it comes, and its
receipt keeps the answer. -/
theorem receive_accepted (hbounded : p.Bounded cfg) (h : Admitted w who p channel)
    (ht : t ∈ Submission.forms cfg (.receive p)) :
    ∃ received ack, w.take cfg (.call (.signed who) t) = (.ok (), received) ∧
      received.ledger.receipt p.target p.sequence = some ⟨w.ledger.height, p.timeout, ack⟩ ∧
      ack.Bounded cfg := by
  have hcall : t.call? cfg = some (.receive p) := Submission.call?_of_mem_forms hbounded ht
  obtain ⟨agent, ack, mid, hanswered, hrun⟩ := enter_of_admitted cfg (handlerAt cfg 254) hcall h
  rw [← submit_eq] at hrun
  refine ⟨_, ack, hrun, ?_, hanswered.ack_bounded⟩
  exact (receipt_receipted ..).trans (if_pos ⟨rfl, rfl⟩)

/-- A packet was settled with an answer: the record of the answer stands in the place of its
commitment, and one more packet can be sent. -/
structure Lane.Resolved (before : Lane) (s : Sequence) (r : AckRecord) (after : Lane) : Prop where
  recorded : after.acks.get s = some r
  released : after.commitments.get s = none
  freed : after.pending.toNat + 1 = before.pending.toNat

theorem mem_rtake_concat {α : Type} {n : Nat} (hn : n ≠ 0) (xs : List α) (x : α) :
    x ∈ (xs ++ [x]).rtake n := by
  obtain ⟨k, rfl⟩ := Nat.exists_eq_succ_of_ne_zero hn
  rw [List.rtake_concat_succ]
  exact List.mem_append_right _ (List.mem_singleton.mpr rfl)

/-- Where a packet is still committed there is room for the record of its answer. -/
theorem World.Archived.resolved (h : w.Archived cfg id)
    (hroom : w.chronicle.sendCount id < 18446744073709551615)
    (hc : (w.ledger.lane id).commitments.get s = some c) (r : AckRecord) :
    (w.ledger.lane id).Resolved s r
      (Lane.retain cfg.pendingLimit ((w.ledger.lane id).release s).countAck s r) := by
  obtain ⟨hexact, hrest⟩ := h
  obtain ⟨hsettled, hkeeps⟩ := hrest hroom
  have hpending := pendingExact_of_exact hexact hroom
  have hfreed := hpending.release hc
  have houtbox := (Lane.outbox_retain cfg.pendingLimit _ s r).trans
    (Lane.outbox_acknowledged (w.ledger.lane id) s)
  constructor
  case recorded =>
    have hlimit : cfg.pendingLimit.toNat ≠ 0 := by
      have hle := UInt32.le_iff_toNat_le.mp hpending.2
      omega
    have hnumber := hexact.below hroom s (by simp [Lane.outbox, hc])
    have hnodup : ((w.chronicle.answers id ++ [(s, r)]).map Prod.fst).Nodup := by
      rw [List.map_append, List.map_singleton]
      exact (hsettled.acknowledge hc hnumber none 0).issued.nodup
    have hlists := (hkeeps.add (s, r) hnodup).lists s r
    have harchive : (Lane.retain cfg.pendingLimit ((w.ledger.lane id).release s).countAck s
        r).archive = (w.ledger.lane id).archive.add cfg.pendingLimit (s, r) :=
      Lane.archive_retain ..
    rw [← harchive] at hlists
    exact hlists.mpr (mem_rtake_concat hlimit _ _)
  case released => exact (congrArg (·.commitments.get s) houtbox).trans (Table.get_set_self ..)
  case freed =>
    have hcount := congrArg (·.pending.toNat) houtbox
    exact (congrArg (· + 1) hcount).trans hfreed

/-- A committed packet is acknowledged by a trusted relayer, in whichever form the call comes. -/
theorem acknowledge_accepted (hreached : Reached cfg (fun _ _ => True) w)
    (hroom : w.chronicle.sendCount id < 18446744073709551615)
    (htrusted : w.ledger.isTrusted who = true) (hid : id.fits cfg.channelIdLimit = true)
    (hack : ack.Bounded cfg) (hc : (w.ledger.lane id).commitments.get s = some c)
    (ht : t ∈ Submission.forms cfg (.acknowledge id s ack)) :
    ∃ settled, w.take cfg (.call (.signed who) t) = (.ok (), settled) ∧
      (w.ledger.lane id).Resolved s ⟨ack, w.ledger.height⟩ (settled.ledger.lane id) := by
  have hcall : t.call? cfg = some (.acknowledge id s ack) :=
    Submission.call?_of_mem_forms ⟨Bytes.tellable_of_fits hid, hack⟩ ht
  obtain ⟨lines, hrun⟩ := (Effect.acknowledge htrusted hid hc).take_eq hcall
  refine ⟨_, hrun, ?_⟩
  change (w.ledger.lane id).Resolved s _ ((w.ledger.modifyLane id _).lane id)
  rw [Ledger.lane_modifyLane_self]
  exact (hreached.archived id).resolved hroom hc _

/-- A packet that a send put on its way keeps to the limits of its layout. -/
theorem Packet.bounded_draft {id chain counterparty : Bytes} {agent : Option Bytes}
    {payload : Payload} (hbounded : Call.Bounded cfg (.send id chain counterparty agent payload))
    (hid : id.fits cfg.channelIdLimit = true) (hchain : chain.fits cfg.chainIdLimit = true)
    (hcounterparty : counterparty.fits cfg.channelIdLimit = true)
    (hagent : ∀ remote ∈ agent, remote.fits cfg.agentIdLimit = true) (now : Height)
    (counts : Sequences) :
    (draft cfg now counts id chain counterparty agent payload).Bounded cfg where
  source := Bytes.length_le_of_fits hid
  chain := Bytes.length_le_of_fits hchain
  target := Bytes.length_le_of_fits hcounterparty
  agent remote hremote := Bytes.length_le_of_fits (hagent remote hremote)
  payload := hbounded.2.2.2.2

end

/-- Wherever a packet of this number is committed on the channel that it comes from, the answer
settles it when a trusted relayer brings it, in whichever form. -/
def Packet.SettledBy (cfg : Config) (p : Packet) (ack : Acknowledgement) : Prop :=
  ∀ near carrier, Reached cfg (fun _ _ => True) near →
    near.chronicle.sendCount p.source < 18446744073709551615 →
    near.ledger.isTrusted carrier = true →
    (near.ledger.lane p.source).commitments.get p.sequence ≠ none →
    ∀ t ∈ Submission.forms cfg (.acknowledge p.source p.sequence ack), ∃ settled,
      near.take cfg (.call (.signed carrier) t) = (.ok (), settled) ∧
      (near.ledger.lane p.source).Resolved p.sequence ⟨ack, near.ledger.height⟩
        (settled.ledger.lane p.source)

/-- Wherever a packet is admitted, the relayer's call goes through in whichever form, and the
receipt that it leaves has an answer that settles the packet. -/
def Packet.AcceptedAnywhere (cfg : Config) (p : Packet) : Prop :=
  ∀ far relayer channel, Admitted far relayer p channel →
    ∀ t ∈ Submission.forms cfg (.receive p), ∃ received ack,
      far.take cfg (.call (.signed relayer) t) = (.ok (), received) ∧
      received.ledger.receipt p.target p.sequence = some ⟨far.ledger.height, p.timeout, ack⟩ ∧
      p.SettledBy cfg ack

theorem Packet.Bounded.acceptedAnywhere {cfg : Config} {p : Packet} (h : p.Bounded cfg)
    (hsource : p.source.fits cfg.channelIdLimit = true) : p.AcceptedAnywhere cfg := by
  intro far relayer channel hadmitted t ht
  obtain ⟨received, ack, hreceived, hreceipt, hack⟩ := receive_accepted h hadmitted ht
  refine ⟨received, ack, hreceived, hreceipt, ?_⟩
  intro near carrier hreached hroom htrusted hpresent u hu
  obtain ⟨c, hc⟩ := Option.ne_none_iff_exists'.mp hpresent
  exact acknowledge_accepted hreached hroom htrusted hsource hack hc hu

/-- What is sent is accepted. A send that succeeds, by itself or nested in another call, puts a
packet on its way, which the event tells of and to which the ledger is committed. Any ledger of
the same configuration takes it from a trusted relayer, at any time, as long as the channel that
it goes to is open towards its own, has no receipt for it, and its time is not over; and the
answer in the receipt that it leaves settles it when it comes back. -/
theorem sent_packet_accepted {cfg : Config} {layers : Nat} {origin : Origin} {s : Submission}
    {w after : World} {id chain counterparty : Bytes} {agent : Option Bytes} {payload : Payload}
    (hcall : s.call? cfg = some (.send id chain counterparty agent payload))
    (hsent : (dispatch cfg (layers + 1) origin s).run w = (.ok (), after)) :
    ∃ who counts p, origin = .signed who ∧ (w.ledger.lane id).sequences = some counts ∧
      p = Packet.draft cfg w.ledger.height counts id chain counterparty agent payload ∧
      after.chronicle.events = (w.chronicle.tell w.ledger.height
        (.packetSent who p (p.commitmentHash cfg))).events ∧
      (after.ledger.lane id).commitments.get p.sequence = some (p.commitment cfg) ∧
      p.AcceptedAnywhere cfg := by
  rw [dispatch_succ, enter_ok_iff] at hsent
  obtain ⟨call, mid, hcall', hperform, rfl⟩ := hsent
  obtain rfl := Option.some.inj (hcall.symm.trans hcall')
  have hbounded := Submission.bounded_of_call? hcall
  obtain ⟨l, e, lines, heffect, rfl⟩ := Inversion.send_ok hperform
  cases heffect with
  | @send who _ _ _ _ _ _ counts pending hid hchain hcounterparty hagent _ _ _ _ _ _ hcounts =>
    have hpacket := Packet.bounded_draft hbounded hid hchain hcounterparty hagent
      w.ledger.height counts
    refine ⟨who, counts, _, rfl, hcounts, rfl, rfl, ?_, hpacket.acceptedAnywhere hid⟩
    simp [Packet.draft, Lane.commit]

namespace Small

/-- Opens the channel of either twin. -/
def pairing : List Step :=
  [.reach 1, .call .root (.value (.openChannel [1] channel)),
    .call (.signed 10) (.value (.confirmOpen channel))]

/-- Sends a packet to the channel of the other twin. -/
def crossingOver : Step :=
  .call (.signed 1) (.value (.send channel [1] channel none (.raw [7])))

/-- The packet comes over as bytes, and its answer goes back as a value. -/
theorem crossing_accepted :
    ∃ received settled,
      (first.after cfg pairing).take cfg
          (.call (.signed 10) (.bytes ((Call.layout cfg).write (.receive crossing)))) =
        (.ok (), received) ∧
      received.ledger.receipt channel 1 = some ⟨1, 101, .ok⟩ ∧
      (first.after cfg (pairing ++ [crossingOver])).take cfg
          (.call (.signed 10) (.value (.acknowledge channel 1 .ok))) = (.ok (), settled) ∧
      (settled.ledger.lane channel).acks.get 1 = some ⟨.ok, 1⟩ ∧
      (settled.ledger.lane channel).commitments.get 1 = none ∧
      (settled.ledger.lane channel).pending.toNat + 1 = 1 := by
  have hsent : (dispatch cfg 255 (.signed 1) (.value (.send channel [1] channel none
      (.raw [7])))).run (first.after cfg pairing) =
        (.ok (), first.after cfg (pairing ++ [crossingOver])) := rfl
  obtain ⟨who, counts, p, -, hcounts, rfl, -, -, haccepted⟩ := sent_packet_accepted rfl hsent
  have hstart : some Sequences.start = some counts := hcounts
  cases hstart
  have hadmitted : Admitted (first.after cfg pairing) 10 crossing
      ⟨channel, [1], channel, .opened, 1, some 1, none⟩ := ⟨rfl, rfl, rfl, rfl, rfl, by decide⟩
  obtain ⟨received, ack, hreceived, hreceipt, hsettledBy⟩ :=
    haccepted _ _ _ hadmitted _ (List.mem_pair.mpr (.inr rfl))
  -- the answer is read off the receipt
  have hanswer : ((first.after cfg pairing).take cfg
      (.call (.signed 10) (.bytes ((Call.layout cfg).write (.receive crossing))))).2.ledger.receipt
        channel 1 = some ⟨1, 101, .ok⟩ := rfl
  have hwritten := congrArg (fun outcome => outcome.2.ledger.receipt channel 1) hreceived
  have hsame : some (Receipt.mk 1 101 .ok) = some ⟨1, 101, ack⟩ :=
    hanswer.symm.trans (hwritten.trans hreceipt)
  cases hsame
  obtain ⟨settled, hsettled, hresolved⟩ := hsettledBy _ 10 (reached (pairing ++ [crossingOver]))
    (by decide +kernel) rfl nofun _ (List.mem_pair.mpr (.inl rfl))
  exact ⟨received, settled, hreceived, hreceipt, hsettled, hresolved.recorded,
    hresolved.released, hresolved.freed⟩

end Small

end RelayLedger
