import RelayLedger.Proofs.Fulfilment
import RelayLedger.Proofs.Lifetime
import RelayLedger.Proofs.Pending
import RelayLedger.Proofs.Timeouts

/-!
The timeouts of the packets of one channel. As the numbers go up and the blocks go on, a packet
that is sent later times out no sooner, also where the last height cuts its time short. So
whoever times packets out in the order of their numbers may stop at the first one that is not due.
-/
namespace RelayLedger

open Reception

/-- No packet that is committed times out later than those that are sent now, and none later than
one with a higher number. -/
structure Outbox.Ordered (due : Height) (o : Outbox) : Prop where
  by_due : ∀ s c, o.commitments.get s = some c → c.timeout ≤ due
  ordered : ∀ s t c d, o.commitments.get s = some c → o.commitments.get t = some d → s < t →
    c.timeout ≤ d.timeout

namespace Outbox.Ordered

variable {due : Height} {o : Outbox}

theorem empty (due : Height) : Ordered due Lane.empty.outbox where
  by_due _ _ h := by cases h
  ordered _ _ _ _ h := by cases h

theorem later {due' : Height} (h : Ordered due o) (hle : due ≤ due') : Ordered due' o where
  by_due s c hc := UInt32.le_trans (h.by_due s c hc) hle
  ordered := h.ordered

/-- A packet that is sent now has the highest number and the latest timeout. -/
theorem send {cfg : Config} {p : Packet} (h : Ordered due o) (hdue : p.timeout = due)
    (hlast : ∀ s, o.commitments.get s ≠ none → s < p.sequence)
    (counts : Option (Sequence × Sequence)) (pending : UInt32) :
    Ordered due
      { o with
        counts, pending
        commitments := o.commitments.set p.sequence (some (p.commitment cfg)) } := by
  have hget : ∀ s c, (o.commitments.set p.sequence (some (p.commitment cfg))).get s = some c →
      s = p.sequence ∧ c.timeout = due ∨
        s < p.sequence ∧ o.commitments.get s = some c := by
    intro s c hc
    rw [Table.get_set] at hc
    by_cases hs : s = p.sequence
    · rw [if_pos hs, Option.some.injEq] at hc
      exact .inl ⟨hs, by rw [← hc, Packet.commitment, hdue]⟩
    · rw [if_neg hs] at hc
      exact .inr ⟨hlast s (by simp [hc]), hc⟩
  have hby : ∀ s c, (o.commitments.set p.sequence (some (p.commitment cfg))).get s = some c →
      c.timeout ≤ due := by
    intro s c hc
    rcases hget s c hc with ⟨-, heq⟩ | ⟨-, hold⟩
    · exact UInt32.le_of_eq heq
    · exact h.by_due s c hold
  constructor
  case by_due => exact hby
  case ordered =>
    intro s t c d hc hd hlt
    rcases hget t d hd with ⟨-, heq⟩ | ⟨ht, hold⟩
    · rw [heq]
      exact hby s c hc
    · rcases hget s c hc with ⟨rfl, -⟩ | ⟨-, holder⟩
      · exact absurd (UInt64.lt_trans hlt ht) (UInt64.lt_irrefl _)
      · exact h.ordered s t c d holder hold hlt

/-- Settling a packet leaves the others as they were. -/
theorem settle (h : Ordered due o) (counts : Option (Sequence × Sequence)) (pending : UInt32)
    (s : Sequence) :
    Ordered due { o with counts, pending, commitments := o.commitments.set s none } := by
  have hget : ∀ t c, (o.commitments.set s none).get t = some c → o.commitments.get t = some c := by
    intro t c hc
    rw [Table.get_set] at hc
    split at hc
    · cases hc
    · exact hc
  constructor
  case by_due => exact fun t c hc => h.by_due t c (hget t c hc)
  case ordered =>
    exact fun t u c d hc hd => h.ordered t u c d (hget t c hc) (hget u d hd)

theorem turn {cfg : Config} {id : Bytes} {call : Call} {e : Event} {after : Outbox} {sends : Nat}
    (h : Ordered due o) (hexact : o.Exact cfg sends) (hturn : o.Turn cfg id call e after)
    (hdue : ∀ p, e.sentOn id = some p → p.timeout = due)
    (hroom : sends + (if call.sendsOn id then 1 else 0) < 18446744073709551615) :
    Ordered due after := by
  cases hturn with
  | other => exact h
  | opening => exact ⟨h.by_due, h.ordered⟩
  | @send _ _ _ _ _ _ _ p _ _ hcounts _ hsource =>
    rw [if_pos (by simp [Call.sendsOn])] at hroom
    refine h.send (hdue p (by simp [Event.sentOn, hsource])) ?_ _ _
    intro s hs
    have hle := hexact.below (by omega) s hs
    have hnext := hexact.numbered.next_send _ _ hcounts
    rw [UInt64.lt_iff_toNat_lt]
    omega
  | acknowledge | timeOut => exact h.settle _ _ _

end Outbox.Ordered

/-- As long as the numbers last, the packets of a channel time out in their order, and before
those that are sent at a height. -/
def World.Ordered (cfg : Config) (id : Bytes) (height : Height) (w : World) : Prop :=
  (w.ledger.lane id).outbox.Exact cfg (w.chronicle.sendCount id) ∧
    (w.chronicle.sendCount id < 18446744073709551615 →
      (w.ledger.lane id).outbox.Ordered (height.after cfg.timeoutBlocks))

theorem kept_ordered (cfg : Config) (id : Bytes) (height : Height) :
    Kept cfg (· = height) (World.Ordered cfg id height) where
  host _ h := h
  height _ h := h
  deliver _ h := h
  call {w origin call l e} hheight h heffect := by
    refine ⟨(kept_exact cfg id).call trivial h.1 heffect, ?_⟩
    have hdue : ∀ p, e.sentOn id = some p → p.timeout = height.after cfg.timeoutBlocks := by
      intro p hp
      rw [← hheight]
      exact heffect.timeout_of_sent hp
    rw [World.sendCount_book]
    intro hroom
    exact (h.2 (by omega)).turn h.1 (heffect.outbox_turn id) hdue hroom
  receive {w} who p agent ack _ h := by
    refine ⟨(kept_exact cfg id).receive who p agent ack trivial h.1, ?_⟩
    have hbox := outbox_receipted w.ledger w.ledger.height p ack id
    rw [World.sendCount_book, World.book, hbox]
    exact h.2

theorem Reached.ordered {cfg : Config} {w : World} (h : Reached cfg Step.Onward w) (id : Bytes) :
    w.Ordered cfg id w.ledger.height := by
  apply h.onward (P := World.Ordered cfg id)
  · exact fun _ _ => ⟨.empty cfg, fun _ => .empty _⟩
  · exact kept_ordered cfg id
  · intro w height later hordered hle
    refine ⟨hordered.1, fun hroom => (hordered.2 hroom).later ?_⟩
    exact Height.after_mono hle cfg.timeoutBlocks

section

variable {cfg : Config} {first w : World} {steps : List Step} {i : Nat}

theorem Within.ordered (hreached : Reached cfg Step.Onward (first.stage cfg steps i))
    (h : Within cfg first steps i w) (id : Bytes) : w.Ordered cfg id w.ledger.height := by
  rw [h.proceeds.height_eq]
  exact (kept_ordered cfg id _).proceeds h.proceeds rfl (hreached.ordered id)

/-- In a run in which the block number never falls, the live packets of a channel time out in the
order of their numbers, and no later than a packet that is sent now. Where one of them can be timed
out, by whomever, everyone can time out each one before it. -/
theorem timeouts_follow_send_order {relayers : List Account} {host : Host}
    (hgenesis : World.genesis? cfg relayers host = some first)
    (hfollows : Follows cfg Step.Onward first steps) (hw : Within cfg first steps i w)
    {id : Bytes} (hroom : w.chronicle.sendCount id < 18446744073709551615) :
    (∀ s c, (w.ledger.lane id).commitments.get s = some c →
      c.timeout ≤ w.ledger.height.after cfg.timeoutBlocks) ∧
    (∀ s t c d, (w.ledger.lane id).commitments.get s = some c →
      (w.ledger.lane id).commitments.get t = some d → s < t → c.timeout ≤ d.timeout) ∧
    ∀ layers origin t later, later.call? cfg = some (.timeOut id t) →
      ((dispatch cfg (layers + 1) origin later).run w).1 = .ok () →
      ∀ s, s < t → (w.ledger.lane id).commitments.get s ≠ none →
      ∀ layers who sooner, sooner.call? cfg = some (.timeOut id s) →
        ((dispatch cfg (layers + 1) (.signed who) sooner).run w).1 = .ok () := by
  have hordered := (hw.ordered (hfollows.reached hgenesis i) id).2 hroom
  refine ⟨hordered.by_due, hordered.ordered, ?_⟩
  intro layers origin t later hlater hok s hlt hlive layers' who sooner hsooner
  obtain ⟨c, hc⟩ := Option.ne_none_iff_exists'.mp hlive
  obtain ⟨l, e, _, heffect, -⟩ := effect_of_dispatch (Prod.ext hok rfl) hlater (by simp)
  cases heffect with
  | @timeOut _ _ _ d hid hd hdue =>
    have hle : c.timeout ≤ d.timeout := hordered.ordered s t c d hc hd hlt
    have heffect : Effect cfg w (.signed who) (.timeOut id s) _ _ :=
      .timeOut hid hc (UInt32.le_trans hle hdue)
    obtain ⟨lines, hrun⟩ := heffect.dispatch_eq hsooner layers'
    rw [hrun]

end

namespace Small

/-- Two packets are sent, the second one where its time is cut short by the last height. -/
def shortened : List Step :=
  opening ++ [.call (.signed 1) sending, .reach 4294967290, .call (.signed 1) sending,
    .reach 4294967295]

theorem shortened_follows : Follows cfg Step.Onward first shortened :=
  ⟨show (0 : Height) ≤ 1 by decide, trivial, trivial, trivial,
    show (1 : Height) ≤ 4294967290 by decide, trivial,
    show (4294967290 : Height) ≤ 4294967295 by decide, trivial⟩

theorem shortened_in_order :
    Follows cfg Step.Onward first shortened ∧
      (first.stage cfg shortened 7).chronicle.sendCount channel = 2 ∧
      ((first.stage cfg shortened 7).take cfg
        (.call (.signed 1) (.value (.timeOut channel 2)))).1 = .ok () ∧
      ((first.stage cfg shortened 7).take cfg
        (.call (.signed 2) (.value (.timeOut channel 1)))).1 = .ok () := by
  have hcount : (first.stage cfg shortened 7).chronicle.sendCount channel = 2 := rfl
  have hroom : (first.stage cfg shortened 7).chronicle.sendCount channel <
      18446744073709551615 := by
    rw [hcount]
    decide
  have hlast : ((first.stage cfg shortened 7).take cfg
      (.call (.signed 1) (.value (.timeOut channel 2)))).1 = .ok () := rfl
  have hlive : ((first.stage cfg shortened 7).ledger.lane channel).commitments.get 1 ≠ none := by
    decide +kernel
  obtain ⟨-, -, hsooner⟩ :=
    timeouts_follow_send_order genesis_eq shortened_follows (.inl rfl) hroom
  exact ⟨shortened_follows, hcount, hlast,
    hsooner 254 _ 2 _ rfl hlast 1 (by decide) hlive 254 2 _ rfl⟩

end Small

end RelayLedger
