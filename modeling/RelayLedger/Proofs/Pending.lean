import RelayLedger.Proofs.Outbox

/-!
The count of pending packets of a channel. As no number is given out twice while the numbers
last, each packet that is sent adds a commitment and each settled one takes one away, so the
count is the number of commitments and never passes its limit.
-/
namespace RelayLedger

/-- How many packets were sent on a channel. -/
def Chronicle.sendCount (c : Chronicle) (id : Bytes) : Nat :=
  c.deeds.countP fun d => d.call.sendsOn id

theorem World.sendCount_book (w : World) (origin : Origin) (call : Call) (l : Ledger) (e : Event)
    (id : Bytes) :
    (w.book origin call l e).chronicle.sendCount id =
      w.chronicle.sendCount id + if call.sendsOn id then 1 else 0 := by
  rw [Chronicle.sendCount, World.deeds_book, List.countP_append, List.countP_singleton,
    Chronicle.sendCount]

/-- As long as the numbers last, an outbox from which so many packets were sent counts its
commitments. -/
structure Outbox.Exact (cfg : Config) (sends : Nat) (o : Outbox) : Prop where
  numbered : o.Numbered sends
  pending_le : o.pending.toNat ≤ cfg.pendingLimit.toNat
  below : sends < 18446744073709551615 → ∀ s, o.commitments.get s ≠ none → s.toNat ≤ sends
  pending_eq : sends < 18446744073709551615 → o.pending.toNat = o.commitments.size

namespace Outbox.Exact

variable {cfg : Config} {o : Outbox} {sends : Nat}

theorem empty (cfg : Config) : Exact cfg 0 Lane.empty.outbox where
  numbered := .empty
  pending_le := Nat.zero_le _
  below _ _ h := absurd rfl h
  pending_eq _ := rfl

theorem opening (h : Exact cfg sends o) (hnew : o.opened = false) :
    Exact cfg sends { o with opened := true, counts := some (1, 1) } where
  numbered := h.numbered.opening hnew
  pending_le := h.pending_le
  below := h.below
  pending_eq := h.pending_eq

theorem send (h : Exact cfg sends o) {p : Packet} {ack : Sequence} {pending : UInt32}
    (hopened : o.opened = true) (hcounts : o.counts = some (p.sequence, ack))
    (hpending : Capacity.increment? cfg.pendingLimit o.pending = some pending) :
    Exact cfg (sends + 1)
      { o with
        counts := some (Sequence.next p.sequence, ack)
        pending := pending
        commitments := o.commitments.set p.sequence (some (p.commitment cfg)) } := by
  have hnext := h.numbered.next_send _ _ hcounts
  obtain ⟨hlt, hhigher⟩ := Capacity.increment?_eq_some_iff.mp hpending
  have hlimit := UInt32.lt_iff_toNat_lt.mp hlt
  constructor
  case numbered => exact h.numbered.send hopened hcounts _ _
  case pending_le =>
    change pending.toNat ≤ _
    omega
  case below =>
    intro hroom s hs
    rw [Table.get_set] at hs
    by_cases hnumber : s = p.sequence
    · rw [hnumber]
      omega
    · rw [if_neg hnumber] at hs
      have hle := h.below (by omega) s hs
      omega
  case pending_eq =>
    intro hroom
    have heq := h.pending_eq (by omega)
    -- the number is new, so its commitment is written over none
    have hfresh : o.commitments.get p.sequence = none := by
      cases hget : o.commitments.get p.sequence with
      | none => rfl
      | some c =>
        have hle := h.below (by omega) p.sequence (by simp [hget])
        omega
    have hsize := Table.size_set o.commitments p.sequence (some (p.commitment cfg))
    rw [hfresh, if_pos blank_option.symm, if_neg (by simp)] at hsize
    change pending.toNat = (o.commitments.set p.sequence (some (p.commitment cfg))).size
    omega

/-- Taking away a commitment that is there gives back one place. -/
theorem size_resolved {t : Table Sequence (Option Commitment)} {s : Sequence} {c : Commitment}
    (hc : t.get s = some c) : (t.set s none).size + 1 = t.size := by
  have hsize := Table.size_set t s none
  rw [hc, if_neg (by simp), if_pos blank_option.symm] at hsize
  omega

theorem release (h : Exact cfg sends o) {s : Sequence} {c : Commitment}
    (hcommitment : o.commitments.get s = some c) (counts : Option (Sequence × Sequence))
    (hcounts : counts.map Prod.fst = o.counts.map Prod.fst) :
    Exact cfg sends
      { o with
        counts := counts
        pending := Capacity.decrement o.pending
        commitments := o.commitments.set s none } := by
  have hsize := size_resolved hcommitment
  constructor
  case numbered => exact h.numbered.settle hcounts _ _
  case pending_le =>
    have hle := h.pending_le
    change (Capacity.decrement o.pending).toNat ≤ _
    rw [Capacity.toNat_decrement]
    omega
  case below =>
    intro hroom other hother
    rw [Table.get_set] at hother
    by_cases hs : other = s
    · rw [if_pos hs] at hother
      exact absurd rfl hother
    · rw [if_neg hs] at hother
      exact h.below hroom other hother
  case pending_eq =>
    intro hroom
    have heq := h.pending_eq hroom
    change (Capacity.decrement o.pending).toNat = (o.commitments.set s none).size
    rw [Capacity.toNat_decrement]
    omega

theorem turn {id : Bytes} {call : Call} {e : Event} {after : Outbox} (h : Exact cfg sends o)
    (hturn : o.Turn cfg id call e after) :
    Exact cfg (sends + if call.sendsOn id then 1 else 0) after := by
  cases hturn with
  | other hsends => simpa [hsends] using h
  | opening hnew => simpa [Call.sendsOn] using h.opening hnew
  | send hopened hcounts hpending =>
    simpa [Call.sendsOn] using h.send hopened hcounts hpending
  | acknowledge hcommitment =>
    simpa [Call.sendsOn] using h.release hcommitment _ (fst_afterAck o.counts)
  | timeOut hcommitment => simpa [Call.sendsOn] using h.release hcommitment o.counts rfl

end Outbox.Exact

theorem kept_exact (cfg : Config) (id : Bytes) : Kept cfg (fun _ => True)
    fun w => (w.ledger.lane id).outbox.Exact cfg (w.chronicle.sendCount id) where
  host _ h := h
  height _ h := h
  deliver _ h := h
  call _ h heffect := by
    rw [World.sendCount_book]
    exact h.turn (heffect.outbox_turn id)
  receive {w} who p agent ack _ h := by
    rw [World.sendCount_book, World.book,
      Reception.outbox_receipted w.ledger w.ledger.height p ack id]
    exact h

/-- A send passes every check that comes before that of its place. -/
structure Outbound.Sendable (cfg : Config) (l : Ledger) (id chain counterparty : Bytes)
    (agent : Option Bytes) (payload : Payload) : Prop where
  id_fits : id.fits cfg.channelIdLimit = true
  chain_fits : chain.fits cfg.chainIdLimit = true
  counterparty_fits : counterparty.fits cfg.channelIdLimit = true
  agent_fits : ∀ remote ∈ agent, remote.fits cfg.agentIdLimit = true
  routed : ∃ channel, (l.lane id).channel = some channel ∧ channel.state = .opened ∧
    channel.chain = chain ∧ channel.counterparty = counterparty
  payload_sent : payload.isAck = false
  payload_fits : payload.size cfg ≤ cfg.payloadLimit.toNat

namespace Outbound.Sendable

variable {cfg : Config} {handle : Handler} {w : World} {who : Account}
  {id chain counterparty : Bytes} {agent : Option Bytes} {payload : Payload}

theorem run_perform (h : Sendable cfg w.ledger id chain counterparty agent payload) :
    (Call.perform cfg handle (.signed who) (.send id chain counterparty agent payload)).run w =
      (discard (Outbound.send cfg who id chain counterparty agent payload)).run w := by
  have hagent : agent.forM (Call.guardAgent cfg) = (pure () : Relay Unit) := by
    cases ha : agent with
    | none => rfl
    | some remote =>
      have hfits := h.agent_fits remote (by simp [ha])
      simp [Call.guardAgent, Option.forM, hfits, Relay.require]
  simp [Call.perform, Call.guardChannel, Call.guardChain, Origin.signer, h.id_fits, h.chain_fits,
    h.counterparty_fits, hagent]

/-- Without a place a send is refused for that. -/
theorem refused (h : Sendable cfg w.ledger id chain counterparty agent payload)
    (hfull : Capacity.increment? cfg.pendingLimit (w.ledger.lane id).pending = none) :
    ((Outbound.send cfg who id chain counterparty agent payload).run w).1 =
      .error (.refused .pendingPacketLimitExceeded) := by
  obtain ⟨channel, hchannel, hopened, rfl, rfl⟩ := h.routed
  simp [Outbound.send, hchannel, hopened, ChannelState.isOpen, h.payload_sent, h.payload_fits,
    hfull]

/-- With a place, and counts to take a number from, nothing refuses it. -/
theorem accepted (h : Sendable cfg w.ledger id chain counterparty agent payload)
    {pending : UInt32} {counts : Sequences}
    (hplace : Capacity.increment? cfg.pendingLimit (w.ledger.lane id).pending = some pending)
    (hcounts : (w.ledger.lane id).sequences = some counts) :
    ((Outbound.send cfg who id chain counterparty agent payload).run w).1 =
      .ok counts.send := by
  obtain ⟨channel, hchannel, hopened, rfl, rfl⟩ := h.routed
  simp [Outbound.send, hchannel, hopened, ChannelState.isOpen, h.payload_sent, h.payload_fits,
    hplace, hcounts, Except.map]

end Outbound.Sendable

/-- The count of pending packets is that of the commitments and keeps to its limit. -/
def Lane.PendingExact (cfg : Config) (l : Lane) : Prop :=
  l.pending.toNat = l.commitments.size ∧ l.pending ≤ cfg.pendingLimit

section

variable {cfg : Config} {handle : Handler} {w : World} {id : Bytes}

theorem pendingExact_of_exact
    (h : (w.ledger.lane id).outbox.Exact cfg (w.chronicle.sendCount id))
    (hroom : w.chronicle.sendCount id < 18446744073709551615) :
    (w.ledger.lane id).PendingExact cfg :=
  ⟨h.pending_eq hroom, UInt32.le_iff_toNat_le.mpr h.pending_le⟩

/-- Where the count is exact, settling a packet lowers it by one. -/
theorem Lane.PendingExact.release {l : Lane} (h : l.PendingExact cfg) {n : Sequence}
    {c : Commitment} (hc : l.commitments.get n = some c) :
    (l.release n).pending.toNat + 1 = l.pending.toNat := by
  have hsize := Outbox.Exact.size_resolved hc
  have heq := h.1
  rw [Lane.release, Capacity.toNat_decrement]
  omega

/-- Where the count is exact, a send that only its place could hold back is held back if all
places are taken. -/
theorem enter_send_refused_iff {who : Account} {chain counterparty : Bytes}
    {agent : Option Bytes} {payload : Payload} {s : Submission}
    (hexact : (w.ledger.lane id).PendingExact cfg)
    (hsequences : (w.ledger.lane id).channel.isSome = (w.ledger.lane id).sequences.isSome)
    (hcall : s.call? cfg = some (.send id chain counterparty agent payload))
    (h : Outbound.Sendable cfg w.ledger id chain counterparty agent payload) :
    ((enter cfg handle (.signed who) s).run w).1 =
        .error (.refused .pendingPacketLimitExceeded) ↔
      (w.ledger.lane id).commitments.size = cfg.pendingLimit.toNat := by
  have hle := UInt32.le_iff_toNat_le.mp hexact.2
  rw [run_enter_of_some hcall, h.run_perform, Relay.run_discard, ← hexact.1]
  cases hplace : Capacity.increment? cfg.pendingLimit (w.ledger.lane id).pending with
  | none =>
    have hfull : cfg.pendingLimit ≤ (w.ledger.lane id).pending := by
      unfold Capacity.increment? at hplace
      split at hplace
      · assumption
      · cases hplace
    have hge := UInt32.le_iff_toNat_le.mp hfull
    rw [h.refused hplace]
    simp only [Except.map, true_iff]
    omega
  | some pending =>
    obtain ⟨channel, hchannel, -⟩ := h.routed
    rw [hchannel] at hsequences
    obtain ⟨counts, hcounts⟩ := Option.isSome_iff_exists.mp hsequences.symm
    have hlt := UInt32.lt_iff_toNat_lt.mp (Capacity.increment?_eq_some_iff.mp hplace).1
    rw [h.accepted hplace hcounts]
    simp only [Except.map, reduceCtorEq, false_iff]
    omega

end

/-- In every world of a run, and in every world in which a call is made, nested or not, the
count of pending packets is exact; so settling a packet always gives back its place, and a send
that only its place could hold back is held back if and only if all places are taken. -/
theorem pending_exact (cfg : Config) :
    (∀ w, Reached cfg (fun _ _ => True) w → ∀ id, w.chronicle.sendCount id < 18446744073709551615 →
      (w.ledger.lane id).PendingExact cfg) ∧
    ∀ layers origin s w, Made cfg (fun _ _ => True) (layers + 1) origin s w →
      ∀ id, w.chronicle.sendCount id < 18446744073709551615 →
        (w.ledger.lane id).PendingExact cfg ∧
        (∀ n c, (w.ledger.lane id).commitments.get n = some c →
          ((w.ledger.lane id).release n).pending.toNat + 1 =
            (w.ledger.lane id).pending.toNat) ∧
        ∀ who chain counterparty agent payload, origin = .signed who →
          s.call? cfg = some (.send id chain counterparty agent payload) →
          Outbound.Sendable cfg w.ledger id chain counterparty agent payload →
          (((dispatch cfg (layers + 1) origin s).run w).1 =
              .error (.refused .pendingPacketLimitExceeded) ↔
            (w.ledger.lane id).commitments.size = cfg.pendingLimit.toNat) := by
  constructor
  · intro w hreached id hroom
    have hexact := (kept_exact cfg id).reached (fun _ _ => .empty cfg) (fun _ _ _ _ => trivial)
      hreached
    exact pendingExact_of_exact hexact hroom
  · intro layers origin s w hmade id hroom
    have hexact := (kept_exact cfg id).made (fun _ _ => .empty cfg) (fun _ _ _ _ => trivial)
      hmade
    have hpending := pendingExact_of_exact hexact hroom
    refine ⟨hpending, fun n c hc => hpending.release hc, ?_⟩
    rintro who chain counterparty agent payload rfl hcall hsendable
    have hsequences : (w.ledger.lane id).channel.isSome = (w.ledger.lane id).sequences.isSome := by
      have hcounted := hexact.numbered.counted
      simp only [Lane.outbox, Option.isSome_map] at hcounted
      exact hcounted.symm
    rw [dispatch_succ]
    exact enter_send_refused_iff hpending hsequences hcall hsendable

namespace Small

/-- All places of the channel are taken. -/
def full : List Step :=
  opening ++ [.call (.signed 1) sending, .call (.signed 1) sending, .call (.signed 1) sending]

theorem sending_fits :
    Outbound.Sendable cfg (first.after cfg full).ledger channel [1] [2] none (.raw [7]) where
  id_fits := rfl
  chain_fits := rfl
  counterparty_fits := rfl
  agent_fits := by simp
  routed := ⟨_, rfl, rfl, rfl, rfl⟩
  payload_sent := rfl
  payload_fits := by decide

theorem sending_held_back :
    (first.after cfg full).chronicle.sendCount channel = 3 ∧
      ((first.after cfg full).ledger.lane channel).PendingExact cfg ∧
      ((dispatch cfg 255 (.signed 1) sending).run (first.after cfg full)).1 =
        .error (.refused .pendingPacketLimitExceeded) := by
  have hcount : (first.after cfg full).chronicle.sendCount channel = 3 := rfl
  have hroom : (first.after cfg full).chronicle.sendCount channel < 18446744073709551615 := by
    rw [hcount]
    decide
  obtain ⟨hexact, -, hrefused⟩ :=
    (pending_exact cfg).2 254 _ _ _ (.outside (s := sending) (reached full) trivial) channel hroom
  exact ⟨hcount, hexact, (hrefused 1 [1] [2] none (.raw [7]) rfl rfl sending_fits).mpr rfl⟩

end Small

end RelayLedger
