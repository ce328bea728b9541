import Mathlib.Data.List.Nodup
import Mathlib.Data.List.Perm.Subperm
import RelayLedger.Proofs.Outbox

/-!
Nothing that a channel sends is lost. The events tell which packets were sent, acknowledged and
timed out, and the outbox of the channel agrees with them: every number that was given out is
committed, acknowledged or timed out, and only one of these.
-/
namespace RelayLedger

namespace Chronicle

variable (c : Chronicle) (id : Bytes)

/-- The packets that a channel sent, oldest first. -/
def sent : List Packet := c.events.filterMap (Event.sentOn id)

def acked : List Sequence := c.events.filterMap (Event.ackedOn id)

def timedOut : List Sequence := c.events.filterMap (Event.timedOutOn id)

end Chronicle

theorem World.filterMap_book {α : Type} {w : World} {origin : Origin} {call : Call} {l : Ledger}
    {e : Event} (f : Event → Option α) (h : l.height ≠ 0) :
    (w.book origin call l e).chronicle.events.filterMap f =
      w.chronicle.events.filterMap f ++ (f e).toList := by
  simp only [book, Chronicle.enroll, Chronicle.events_tell, if_neg h, List.filterMap_append]
  cases hf : f e <;> simp [hf]

/-- An outbox agrees with what was sent, acknowledged and timed out: as long as the numbers
last, each number is committed, acknowledged and timed out as often as it was given out. -/
structure Outbox.Balanced (cfg : Config) (o : Outbox) (sent : List Packet)
    (acked timedOut : List Sequence) : Prop where
  numbered : o.Numbered sent.length
  next_ack : sent.length < 18446744073709551615 → ∀ send ack, o.counts = some (send, ack) →
    ack.toNat = acked.length + 1
  sequences_eq : sent.length < 18446744073709551615 →
    sent.map (fun p => p.sequence.toNat) = List.range' 1 sent.length
  balance : sent.length < 18446744073709551615 → ∀ s : Sequence,
    (o.commitments.get s).toList.length + acked.count s + timedOut.count s =
      (sent.map Packet.sequence).count s
  committed : ∀ s c, o.commitments.get s = some c →
    ∃ p ∈ sent, p.sequence = s ∧ c = p.commitment cfg

namespace Outbox.Balanced

variable {cfg : Config} {o : Outbox} {sent : List Packet} {acked timedOut : List Sequence}

theorem empty (cfg : Config) : Balanced cfg Lane.empty.outbox [] [] [] where
  numbered := .empty
  next_ack _ _ _ h := by cases h
  sequences_eq _ := rfl
  balance _ _ := rfl
  committed _ _ h := by cases h

/-- The numbers given out so far are those up to their count. -/
theorem sequence_le (h : Balanced cfg o sent acked timedOut)
    (hroom : sent.length < 18446744073709551615) {p : Packet} (hp : p ∈ sent) :
    p.sequence.toNat ≤ sent.length := by
  have hmem : p.sequence.toNat ∈ List.range' 1 sent.length := by
    rw [← h.sequences_eq hroom]
    exact List.mem_map_of_mem hp
  rw [List.mem_range'_1] at hmem
  omega

/-- No number was given out twice. -/
theorem nodup (h : Balanced cfg o sent acked timedOut)
    (hroom : sent.length < 18446744073709551615) : (sent.map Packet.sequence).Nodup := by
  have hnodup : ((sent.map Packet.sequence).map UInt64.toNat).Nodup := by
    rw [List.map_map]
    exact (h.sequences_eq hroom).symm ▸ List.nodup_range'
  exact hnodup.of_map _

/-- The number that is given out next was not given out before. -/
theorem fresh (h : Balanced cfg o sent acked timedOut) (hroom : sent.length < 18446744073709551614)
    {send ack : Sequence} (hcounts : o.counts = some (send, ack)) :
    send ∉ sent.map Packet.sequence := by
  intro hmem
  obtain ⟨p, hp, hsend⟩ := List.mem_map.mp hmem
  have hnext := h.numbered.next_send send ack hcounts
  have hle := h.sequence_le (by omega) hp
  rw [hsend] at hle
  omega

/-- Where everything is settled once at most, there are no more acknowledgements than
packets. -/
theorem length_le_of_balance {t : Table Sequence (Option Commitment)} {numbers : List Sequence}
    (h : ∀ s, (t.get s).toList.length + acked.count s + timedOut.count s = numbers.count s) :
    acked.length ≤ numbers.length := by
  have hsub : acked.Subperm numbers := by
    rw [List.subperm_ext_iff]
    intro s _
    have hbalance := h s
    omega
  exact hsub.length_le

theorem opening (h : Balanced cfg o sent acked timedOut) (hnew : o.opened = false) :
    Balanced cfg { o with opened := true, counts := some (1, 1) } sent acked timedOut := by
  have hsent : sent = [] := List.length_eq_zero_iff.mp (h.numbered.unopened hnew)
  subst hsent
  have hacked : acked.length ≤ 0 := length_le_of_balance (h.balance (by simp))
  constructor
  case numbered => exact h.numbered.opening hnew
  case next_ack =>
    rintro - send ack hcounts
    cases hcounts
    rw [Nat.le_zero.mp hacked]
    rfl
  case sequences_eq => exact h.sequences_eq
  case balance => exact h.balance
  case committed => exact h.committed

theorem send (h : Balanced cfg o sent acked timedOut) {p : Packet} {ack : Sequence}
    {pending : UInt32} (hopened : o.opened = true) (hcounts : o.counts = some (p.sequence, ack)) :
    Balanced cfg
      { o with
        counts := some (Sequence.next p.sequence, ack)
        pending := pending
        commitments := o.commitments.set p.sequence (some (p.commitment cfg)) }
      (sent ++ [p]) acked timedOut := by
  have hnext := h.numbered.next_send _ _ hcounts
  constructor
  case numbered =>
    rw [List.length_append, List.length_singleton]
    exact h.numbered.send hopened hcounts _ _
  case next_ack =>
    intro hroom send ack' hcounts'
    cases hcounts'
    rw [List.length_append, List.length_singleton] at hroom
    exact h.next_ack (by omega) _ _ hcounts
  case sequences_eq =>
    intro hroom
    rw [List.length_append, List.length_singleton] at hroom ⊢
    rw [List.map_append, List.map_singleton, h.sequences_eq (by omega), List.range'_1_concat]
    have hnumber : p.sequence.toNat = 1 + sent.length := by omega
    rw [hnumber]
  case balance =>
    intro hroom s
    rw [List.length_append, List.length_singleton] at hroom
    have hbalance := h.balance (by omega) s
    have hfresh := List.count_eq_zero_of_not_mem (h.fresh (by omega) hcounts)
    rw [List.map_append, List.map_singleton, List.count_append, Table.get_set]
    by_cases hs : s = p.sequence
    · subst hs
      rw [if_pos rfl, List.count_singleton_self]
      rw [hfresh] at hbalance
      simp only [Option.toList_some, List.length_singleton]
      omega
    · rw [if_neg hs, List.count_singleton, if_neg (by simpa using Ne.symm hs)]
      omega
  case committed =>
    intro s c hc
    rw [Table.get_set] at hc
    by_cases hs : s = p.sequence
    · rw [if_pos hs, Option.some.injEq] at hc
      exact ⟨p, by simp, hs.symm, hc.symm⟩
    · rw [if_neg hs] at hc
      obtain ⟨q, hq, hcommitment⟩ := h.committed s c hc
      exact ⟨q, List.mem_append_left _ hq, hcommitment⟩

/-- What a commitment counted for counts for its resolution. -/
theorem balance_resolved {t : Table Sequence (Option Commitment)} {s : Sequence}
    {c : Commitment} (hc : t.get s = some c) (other : Sequence) :
    ((t.set s none).get other).toList.length + [s].count other =
      (t.get other).toList.length := by
  rw [Table.get_set]
  by_cases hs : other = s
  · subst hs
    rw [if_pos rfl, List.count_singleton_self, hc]
    rfl
  · rw [if_neg hs, List.count_singleton, if_neg (by simpa using Ne.symm hs)]
    rfl

theorem committed_resolved (h : Balanced cfg o sent acked timedOut) {s other : Sequence}
    {c : Commitment} (hc : (o.commitments.set s none).get other = some c) :
    ∃ p ∈ sent, p.sequence = other ∧ c = p.commitment cfg := by
  rw [Table.get_set] at hc
  by_cases hs : other = s
  · rw [if_pos hs] at hc
    cases hc
  · rw [if_neg hs] at hc
    exact h.committed other c hc

theorem acknowledge (h : Balanced cfg o sent acked timedOut) {s : Sequence} {c : Commitment}
    (hcommitment : o.commitments.get s = some c) :
    Balanced cfg
      { o with
        counts := o.counts.map fun (send, acked) => (send, Sequence.next acked)
        pending := Capacity.decrement o.pending
        commitments := o.commitments.set s none }
      sent (acked ++ [s]) timedOut := by
  have hbalance : sent.length < 18446744073709551615 → ∀ other,
      ((o.commitments.set s none).get other).toList.length + (acked ++ [s]).count other +
        timedOut.count other = (sent.map Packet.sequence).count other := by
    intro hroom other
    have hbefore := h.balance hroom other
    have hresolved := balance_resolved hcommitment other
    rw [List.count_append]
    omega
  constructor
  case numbered => exact h.numbered.settle (fst_afterAck o.counts) _ _
  case next_ack =>
    intro hroom send ack hcounts
    obtain ⟨⟨send', ack'⟩, hbefore, heq⟩ := Option.map_eq_some_iff.mp hcounts
    cases heq
    have hack := h.next_ack hroom _ _ hbefore
    -- the count of acknowledgements ends no sooner than that of the packets
    have hle := length_le_of_balance (hbalance hroom)
    rw [List.length_append, List.length_singleton, List.length_map] at hle
    rw [Sequence.toNat_next, List.length_append, List.length_singleton]
    omega
  case sequences_eq => exact h.sequences_eq
  case balance => exact hbalance
  case committed => exact fun other c hc => h.committed_resolved hc

theorem timeOut (h : Balanced cfg o sent acked timedOut) {s : Sequence} {c : Commitment}
    (hcommitment : o.commitments.get s = some c) :
    Balanced cfg
      { o with
        pending := Capacity.decrement o.pending
        commitments := o.commitments.set s none }
      sent acked (timedOut ++ [s]) where
  numbered := h.numbered.settle rfl _ _
  next_ack := h.next_ack
  sequences_eq := h.sequences_eq
  balance hroom other := by
    have hbefore := h.balance hroom other
    have hresolved := balance_resolved hcommitment other
    rw [List.count_append]
    change ((o.commitments.set s none).get other).toList.length + _ + _ = _
    omega
  committed _ _ hc := h.committed_resolved hc

theorem turn {id : Bytes} {call : Call} {e : Event} {after : Outbox}
    (h : Balanced cfg o sent acked timedOut) (hturn : o.Turn cfg id call e after) :
    Balanced cfg after (sent ++ (e.sentOn id).toList) (acked ++ (e.ackedOn id).toList)
      (timedOut ++ (e.timedOutOn id).toList) := by
  cases hturn with
  | other _ hsent hacked htimedOut => simpa [hsent, hacked, htimedOut] using h
  | opening hnew => simpa [Event.sentOn, Event.ackedOn, Event.timedOutOn] using h.opening hnew
  | send hopened hcounts _ hsource =>
    simpa [Event.sentOn, Event.ackedOn, Event.timedOutOn, hsource] using h.send hopened hcounts
  | acknowledge hcommitment =>
    simpa [Event.sentOn, Event.ackedOn, Event.timedOutOn] using h.acknowledge hcommitment
  | timeOut hcommitment =>
    simpa [Event.sentOn, Event.ackedOn, Event.timedOutOn] using h.timeOut hcommitment

end Outbox.Balanced

/-- The outbox of a channel agrees with the events of a world. -/
def World.Balanced (cfg : Config) (id : Bytes) (w : World) : Prop :=
  (w.ledger.lane id).outbox.Balanced cfg (w.chronicle.sent id) (w.chronicle.acked id)
    (w.chronicle.timedOut id)

theorem kept_balanced (cfg : Config) (id : Bytes) :
    Kept cfg (· ≠ 0) (World.Balanced cfg id) where
  host _ h := h
  height _ h := h
  deliver _ h := h
  call {w origin call l e} hheight h heffect := by
    have hl : l.height ≠ 0 := by rwa [heffect.height_eq]
    have hturn := Outbox.Balanced.turn h (heffect.outbox_turn id)
    unfold World.Balanced Chronicle.sent Chronicle.acked Chronicle.timedOut
    rw [World.filterMap_book _ hl, World.filterMap_book _ hl, World.filterMap_book _ hl]
    exact hturn
  receive {w} who p agent ack hheight h := by
    have hl : (Reception.receipted w.ledger w.ledger.height p ack).height ≠ 0 := hheight
    have hbox := Reception.outbox_receipted w.ledger w.ledger.height p ack id
    unfold World.Balanced Chronicle.sent Chronicle.acked Chronicle.timedOut
    rw [World.filterMap_book _ hl, World.filterMap_book _ hl, World.filterMap_book _ hl,
      World.book, hbox]
    simp only [Event.sentOn, Event.ackedOn, Event.timedOutOn, Reception.news,
      Option.toList_none, List.append_nil]
    exact h

theorem Reached.balanced {cfg : Config} {w : World} (h : Reached cfg Step.Dated w) (id : Bytes) :
    w.Balanced cfg id :=
  (kept_balanced cfg id).reached (fun _ _ => .empty cfg) (fun _ _ _ hdated => hdated) h

/-- What became of a number that was given out: its packet is committed, acknowledged or timed
out, by one event, and only one of these. -/
def World.ResolvedOnce (w : World) (id : Bytes) (s : Sequence) : Prop :=
  ((w.ledger.lane id).commitments.get s ≠ none ∧ (w.chronicle.acked id).count s = 0 ∧
      (w.chronicle.timedOut id).count s = 0) ∨
    ((w.ledger.lane id).commitments.get s = none ∧ (w.chronicle.acked id).count s = 1 ∧
      (w.chronicle.timedOut id).count s = 0) ∨
    ((w.ledger.lane id).commitments.get s = none ∧ (w.chronicle.acked id).count s = 0 ∧
      (w.chronicle.timedOut id).count s = 1)

theorem World.Balanced.resolvedOnce {cfg : Config} {w : World} {id : Bytes} {p : Packet}
    (h : w.Balanced cfg id) (hroom : (w.chronicle.sent id).length < 18446744073709551615)
    (hp : p ∈ w.chronicle.sent id) : w.ResolvedOnce id p.sequence := by
  have hbalance := h.balance hroom p.sequence
  have hgiven : p.sequence ∈ (w.chronicle.sent id).map Packet.sequence := List.mem_map_of_mem hp
  rw [List.count_eq_one_of_mem (h.nodup hroom) hgiven] at hbalance
  unfold World.ResolvedOnce
  cases hc : (w.ledger.lane id).commitments.get p.sequence with
  | none =>
    rw [show (w.ledger.lane id).outbox.commitments.get p.sequence = none from hc] at hbalance
    simp only [Option.toList_none, List.length_nil] at hbalance
    right
    rcases Nat.eq_zero_or_pos ((w.chronicle.acked id).count p.sequence) with hacked | hacked
    · right
      exact ⟨rfl, hacked, by omega⟩
    · left
      exact ⟨rfl, by omega, by omega⟩
  | some c =>
    rw [show (w.ledger.lane id).outbox.commitments.get p.sequence = some c from hc] at hbalance
    simp only [Option.toList_some, List.length_singleton] at hbalance
    left
    exact ⟨by simp, by omega, by omega⟩

/-- Nothing that a channel sends is lost, as long as its numbers last: they are given out one
after another, each packet is committed or settled once, the acknowledgements are counted, and
each commitment is that of the packet with its number. -/
theorem sent_packets_conserved {cfg : Config} {w : World} {id : Bytes} {channel : Channel}
    (h : Reached cfg Step.Dated w) (hchannel : (w.ledger.lane id).channel = some channel)
    (hroom : (w.chronicle.sent id).length < 18446744073709551615) :
    ∃ counts, (w.ledger.lane id).sequences = some counts ∧
      (w.chronicle.sent id).map (fun p => p.sequence.toNat) =
        List.range' 1 (counts.send.toNat - 1) ∧
      (∀ p ∈ w.chronicle.sent id, w.ResolvedOnce id p.sequence) ∧
      counts.ack.toNat = 1 + (w.chronicle.acked id).length ∧
      ∀ s c, (w.ledger.lane id).commitments.get s = some c →
        ∃ p ∈ w.chronicle.sent id, p.sequence = s ∧ c = ⟨p.commitmentHash cfg, p.timeout⟩ := by
  have hbalanced := h.balanced id
  have hcounted : (w.ledger.lane id).outbox.counts.isSome = true := by
    rw [hbalanced.numbered.counted]
    simp [Lane.outbox, hchannel]
  obtain ⟨⟨send, ack⟩, hcounts⟩ := Option.isSome_iff_exists.mp hcounted
  obtain ⟨counts, hsequences, heq⟩ := Option.map_eq_some_iff.mp hcounts
  obtain ⟨rfl, rfl⟩ := Prod.mk.inj heq
  have hsend := hbalanced.numbered.next_send _ _ hcounts
  refine ⟨counts, hsequences, ?_, fun p hp => hbalanced.resolvedOnce hroom hp, ?_,
    hbalanced.committed⟩
  · have hlength : counts.send.toNat - 1 = (w.chronicle.sent id).length := by omega
    rw [hlength]
    exact hbalanced.sequences_eq hroom
  · have hack := hbalanced.next_ack hroom _ _ hcounts
    omega

namespace Small

/-- Three packets are sent, of which one is acknowledged and one times out. -/
def traffic : List Step :=
  opening ++ [.call (.signed 1) sending, .call (.signed 1) sending, .call (.signed 1) sending,
    .call (.signed 10) (.value (.acknowledge channel 1 .ok)), .reach 101,
    .call (.signed 1) (.value (.timeOut channel 2))]

theorem traffic_reached : Reached cfg Step.Dated (first.after cfg traffic) := by
  refine ⟨[10], host, first, traffic, genesis_eq, ?_, rfl⟩
  have hone : (1 : Height) ≠ 0 := by decide
  have hlate : (101 : Height) ≠ 0 := by decide
  exact ⟨trivial, hone, hone, hone, hone, hone, hone, trivial, hlate, trivial⟩

theorem traffic_conserved :
    ((first.after cfg traffic).chronicle.sent channel).length = 3 ∧
      ∃ counts, ((first.after cfg traffic).ledger.lane channel).sequences = some counts ∧
        ((first.after cfg traffic).chronicle.sent channel).map (fun p => p.sequence.toNat) =
          List.range' 1 (counts.send.toNat - 1) ∧
        ∀ p ∈ (first.after cfg traffic).chronicle.sent channel,
          (first.after cfg traffic).ResolvedOnce channel p.sequence := by
  have hlength : ((first.after cfg traffic).chronicle.sent channel).length = 3 := rfl
  have hroom :
      ((first.after cfg traffic).chronicle.sent channel).length < 18446744073709551615 := by
    rw [hlength]
    decide
  have hchannel : ((first.after cfg traffic).ledger.lane channel).channel =
      some ⟨channel, [1], [2], .opened, 1, some 1, none⟩ := rfl
  obtain ⟨counts, hsequences, hnumbers, hresolved, -, -⟩ :=
    sent_packets_conserved traffic_reached hchannel hroom
  exact ⟨hlength, counts, hsequences, hnumbers, hresolved⟩

end Small

end RelayLedger
