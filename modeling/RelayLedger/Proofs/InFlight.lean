import Mathlib.Data.List.Forall2
import RelayLedger.Proofs.Passage

/-!
Packets on their way. A packet that is committed can always be settled, whatever has become of
its channel and of the relayers: a trusted relayer can bring its answer, and from its timeout on
anyone can give it up. So a channel never keeps a place taken for good.
-/
namespace RelayLedger

/-- From one ledger to another a packet of a channel is settled: its commitment is gone and its
place is free, and no other commitment, no receipt and no other channel has changed. -/
structure Ledger.Frees (before : Ledger) (id : Bytes) (s : Sequence) (after : Ledger) : Prop where
  commitments : (after.lane id).commitments = (before.lane id).commitments.set s none
  pending : (after.lane id).pending.toNat + 1 = (before.lane id).pending.toNat
  receipts : (after.lane id).receipts = (before.lane id).receipts
  others : ∀ other, other ≠ id → after.lane other = before.lane other

/-- An outbox commits packets only under an identifier that calls may name. -/
theorem Outbox.Turn.committed_before {cfg : Config} {id : Bytes} {o after : Outbox} {call : Call}
    {e : Event} (h : o.Turn cfg id call e after) (hother : call.sendsOn id = false) {s : Sequence}
    (hs : after.commitments.get s ≠ none) : o.commitments.get s ≠ none := by
  cases h with
  | other => exact hs
  | opening => exact hs
  | send =>
    simp [Call.sendsOn] at hother
  | acknowledge | timeOut =>
    intro hnone
    apply hs
    rw [Table.get_set]
    split
    · rfl
    · exact hnone

section

variable {cfg : Config} {w mid after : World} {origin : Origin} {call : Call} {l : Ledger}
  {e : Event} {id : Bytes} {s : Sequence} {c : Commitment} {who : Account} {t : Submission}
  {ack : Acknowledgement} {layers : Nat}

theorem Effect.fits_of_sends (h : Effect cfg w origin call l e) (hsends : call.sendsOn id = true) :
    id.fits cfg.channelIdLimit = true := by
  cases h with
  | send hid =>
    rwa [← of_decide_eq_true hsends]
  | _ => cases hsends

/-- The channel of a packet on its way has an identifier that calls may name. -/
theorem kept_nameable (cfg : Config) (id : Bytes) :
    Kept cfg (fun _ => True) fun w => ∀ s, (w.ledger.lane id).commitments.get s ≠ none →
      id.fits cfg.channelIdLimit = true where
  host _ h := h
  height _ h := h
  deliver _ h := h
  call {w origin call l e} _ h heffect s hs := by
    cases hsends : call.sendsOn id with
    | true => exact heffect.fits_of_sends hsends
    | false => exact h s ((heffect.outbox_turn id).committed_before hsends hs)
  receive {w} who p agent ack _ h s hs := by
    have hbox := Reception.outbox_receipted w.ledger w.ledger.height p ack id
    exact h s ((congrArg (·.commitments.get s) hbox) ▸ hs)

/-- Where the count is exact, taking a commitment away frees its place. -/
theorem Lane.PendingExact.frees {f : Lane → Lane} (h : (l.lane id).PendingExact cfg)
    (hc : (l.lane id).commitments.get s = some c)
    (hcommitments : (f (l.lane id)).commitments = (l.lane id).commitments.set s none)
    (hpending : (f (l.lane id)).pending = Capacity.decrement (l.lane id).pending)
    (hreceipts : (f (l.lane id)).receipts = (l.lane id).receipts) :
    l.Frees id s (l.modifyLane id f) where
  commitments := by
    rw [Ledger.lane_modifyLane_self, hcommitments]
  pending := by
    rw [Ledger.lane_modifyLane_self, hpending]
    exact h.release hc
  receipts := by
    rw [Ledger.lane_modifyLane_self, hreceipts]
  others other hother := by
    rw [Ledger.lane_modifyLane, if_neg hother]

theorem Lane.PendingExact.released {lane : Lane} (h : lane.PendingExact cfg)
    (hc : lane.commitments.get s = some c) : (lane.release s).PendingExact cfg := by
  have hpending := h.release hc
  have hsize : (lane.release s).commitments.size + 1 = lane.commitments.size :=
    Outbox.Exact.size_resolved hc
  have hle := UInt32.le_iff_toNat_le.mp h.2
  constructor
  · have heq := h.1
    omega
  · rw [UInt32.le_iff_toNat_le]
    omega

/-- The packets that a channel has on their way hold its places, and calls may name it. -/
structure World.Tended (cfg : Config) (id : Bytes) (w : World) : Prop where
  exact : (w.ledger.lane id).PendingExact cfg
  nameable : ∀ s, (w.ledger.lane id).commitments.get s ≠ none →
    id.fits cfg.channelIdLimit = true

/-- This is so in every world of a run and in every world that comes up within one of its steps,
as long as the numbers last. -/
theorem Reached.tended (hreached : Reached cfg (fun _ _ => True) w) (hproceeds : Proceeds cfg w mid)
    (hroom : mid.chronicle.sendCount id < 18446744073709551615) : mid.Tended cfg id where
  exact := by
    have hexact := (kept_exact cfg id).reached (fun _ _ => .empty cfg) (fun _ _ _ _ => trivial)
      hreached
    exact pendingExact_of_exact ((kept_exact cfg id).proceeds hproceeds trivial hexact) hroom
  nameable := by
    have hnameable := (kept_nameable cfg id).reached (fun _ _ _ hs => absurd rfl hs)
      (fun _ _ _ _ => trivial) hreached
    exact (kept_nameable cfg id).proceeds hproceeds trivial hnameable

namespace World.Tended

theorem fits (h : w.Tended cfg id) (hc : (w.ledger.lane id).commitments.get s = some c) :
    id.fits cfg.channelIdLimit = true := by
  apply h.nameable s
  rw [hc]
  exact Option.some_ne_none c

/-- Anyone can give a packet up, from its timeout on and no sooner. -/
theorem timeOut (h : w.Tended cfg id) (hc : (w.ledger.lane id).commitments.get s = some c)
    (ht : t ∈ Submission.forms cfg (.timeOut id s)) :
    (((dispatch cfg (layers + 1) (.signed who) t).run w).1 = .ok () ↔
        c.timeout ≤ w.ledger.height) ∧
      (((dispatch cfg (layers + 1) (.signed who) t).run w).1 = .ok () →
        w.ledger.Frees id s ((dispatch cfg (layers + 1) (.signed who) t).run w).2.ledger) := by
  have hid := h.fits hc
  have hcall : t.call? cfg = some (.timeOut id s) :=
    Submission.call?_of_mem_forms (Bytes.tellable_of_fits hid) ht
  refine ⟨⟨?_, ?_⟩, ?_⟩
  · intro hok
    obtain ⟨l, e, lines, heffect, -⟩ :=
      effect_of_dispatch (Prod.ext hok rfl) hcall (by simp)
    cases heffect with
    | timeOut _ hc' hdue =>
      rw [hc] at hc'
      cases hc'
      exact hdue
  · intro hdue
    obtain ⟨lines, hrun⟩ := (Effect.timeOut hid hc hdue).dispatch_eq hcall layers
    rw [hrun]
  · intro hok
    obtain ⟨after, hrun⟩ : ∃ after, (dispatch cfg (layers + 1) (.signed who) t).run w =
        (.ok (), after) := ⟨_, Prod.ext hok rfl⟩
    rw [hrun]
    obtain ⟨l, e, lines, heffect, rfl⟩ := effect_of_dispatch hrun hcall (by simp)
    cases heffect with
    | timeOut => exact h.exact.frees hc rfl rfl rfl

/-- A trusted relayer can bring the answer to a packet at any time. -/
theorem acknowledge (h : w.Tended cfg id) (hc : (w.ledger.lane id).commitments.get s = some c)
    (htrusted : w.ledger.isTrusted who = true) (hack : ack.Bounded cfg)
    (ht : t ∈ Submission.forms cfg (.acknowledge id s ack)) :
    ((dispatch cfg (layers + 1) (.signed who) t).run w).1 = .ok () ∧
      w.ledger.Frees id s ((dispatch cfg (layers + 1) (.signed who) t).run w).2.ledger := by
  have hid := h.fits hc
  have hcall : t.call? cfg = some (.acknowledge id s ack) :=
    Submission.call?_of_mem_forms ⟨Bytes.tellable_of_fits hid, hack⟩ ht
  obtain ⟨lines, hrun⟩ := (Effect.acknowledge htrusted hid hc).dispatch_eq hcall layers
  rw [hrun]
  refine ⟨rfl, h.exact.frees hc ?_ ?_ ?_⟩
  all_goals
    rw [Lane.retain_eq]
    rfl

/-- With a packet given up there are fewer left, and nothing else has changed about them. -/
theorem released (h : w.Tended cfg id) (hc : (w.ledger.lane id).commitments.get s = some c)
    (hledger : after.ledger = w.ledger.modifyLane id fun l => l.release s) :
    after.Tended cfg id := by
  have hlane : after.ledger.lane id = (w.ledger.lane id).release s := by
    rw [hledger, Ledger.lane_modifyLane_self]
  constructor
  · rw [hlane]
    exact h.exact.released hc
  · intro _ _
    exact h.fits hc

end World.Tended

/-- A step by which someone gives up a packet of a channel. -/
inductive Step.GivesUp (cfg : Config) (id : Bytes) : Step → Sequence → Prop
  | intro (who : Account) {s : Sequence} {t : Submission}
      (ht : t ∈ Submission.forms cfg (.timeOut id s)) : GivesUp cfg id (.call (.signed who) t) s

namespace World.Tended

theorem givenUp {step : Step} (h : w.Tended cfg id) (hstep : step.GivesUp cfg id s)
    (hc : (w.ledger.lane id).commitments.get s = some c) (hdue : c.timeout ≤ w.ledger.height) :
    (w.take cfg step).1 = .ok () ∧
      (w.take cfg step).2.ledger = w.ledger.modifyLane id fun l => l.release s := by
  obtain ⟨who, ht⟩ := hstep
  have hid := h.fits hc
  have heffect : Effect cfg w (.signed who) _ _ _ := .timeOut hid hc hdue
  obtain ⟨lines, hrun⟩ :=
    heffect.take_eq (Submission.call?_of_mem_forms (Bytes.tellable_of_fits hid) ht)
  rw [hrun]
  exact ⟨rfl, rfl⟩

/-- Packets whose time is over are given up one after another, in any order. -/
theorem drain {numbers : List Sequence} {steps : List Step} (h : w.Tended cfg id)
    (hdue : ∀ s c, (w.ledger.lane id).commitments.get s = some c → c.timeout ≤ w.ledger.height)
    (hnodup : numbers.Nodup)
    (hlive : ∀ s, s ∈ numbers ↔ (w.ledger.lane id).commitments.get s ≠ none)
    (hsteps : List.Forall₂ (Step.GivesUp cfg id) steps numbers) :
    (w.takeAll cfg steps).1 = steps.map (fun _ => .ok ()) ∧
      ((w.after cfg steps).ledger.lane id).pending = 0 ∧
      ((w.after cfg steps).ledger.lane id).commitments = .empty := by
  induction hsteps generalizing w with
  | nil =>
    have hempty : (w.ledger.lane id).commitments = .empty := by
      apply Table.ext_get
      intro s
      by_contra hs
      exact absurd ((hlive s).mpr hs) List.not_mem_nil
    have hpending := h.exact.1
    rw [hempty] at hpending
    exact ⟨rfl, UInt32.toNat_inj.mp hpending, hempty⟩
  | @cons step s steps rest hstep _ ih =>
    obtain ⟨hs, hrest⟩ := List.nodup_cons.mp hnodup
    obtain ⟨c, hc⟩ := Option.ne_none_iff_exists'.mp ((hlive s).mp List.mem_cons_self)
    obtain ⟨hok, hledger⟩ := h.givenUp hstep hc (hdue s c hc)
    have hheight : (w.take cfg step).2.ledger.height = w.ledger.height := by
      rw [hledger]
      rfl
    have hget (other : Sequence) :
        ((w.take cfg step).2.ledger.lane id).commitments.get other =
          if other = s then none else (w.ledger.lane id).commitments.get other := by
      rw [hledger, Ledger.lane_modifyLane_self, Lane.release, Table.get_set]
    have htail := ih (h.released hc hledger) ?_ hrest ?_
    · obtain ⟨houtcomes, hlast⟩ := htail
      refine ⟨?_, hlast⟩
      rw [World.takeAll, List.map_cons, ← houtcomes, ← hok]
    · intro other c' hc'
      rw [hget, Option.ite_none_left_eq_some] at hc'
      rw [hheight]
      exact hdue other c' hc'.2
    · intro other
      rw [hget]
      by_cases hother : other = s
      · simp [hother, hs]
      · rw [if_neg hother, ← hlive other, List.mem_cons]
        simp [hother]

end World.Tended

/-- No packet on its way is stranded. In every world of a run, and in every world that comes up
within one of its steps, a committed packet can be given up by anyone from its timeout on and no
sooner, and a trusted relayer can bring its answer, whatever the state of the channel; either
takes away this commitment alone, frees its place, and touches no receipt. The last height is
late enough for all of them, and once a height is, giving up all packets of the channel in any
order goes through and leaves none and no place taken. -/
theorem packets_never_stranded (hreached : Reached cfg (fun _ _ => True) w) (id : Bytes)
    (hroom : w.chronicle.sendCount id < 18446744073709551615) :
    (∀ mid, Proceeds cfg w mid → mid.chronicle.sendCount id < 18446744073709551615 →
      ∀ s c, (mid.ledger.lane id).commitments.get s = some c → ∀ layers who,
        (∀ t ∈ Submission.forms cfg (.timeOut id s),
          (((dispatch cfg (layers + 1) (.signed who) t).run mid).1 = .ok () ↔
              c.timeout ≤ mid.ledger.height) ∧
            (((dispatch cfg (layers + 1) (.signed who) t).run mid).1 = .ok () →
              mid.ledger.Frees id s
                ((dispatch cfg (layers + 1) (.signed who) t).run mid).2.ledger)) ∧
          ∀ ack, mid.ledger.isTrusted who = true → ack.Bounded cfg →
            ∀ t ∈ Submission.forms cfg (.acknowledge id s ack),
              ((dispatch cfg (layers + 1) (.signed who) t).run mid).1 = .ok () ∧
                mid.ledger.Frees id s
                  ((dispatch cfg (layers + 1) (.signed who) t).run mid).2.ledger) ∧
    (∃ height, w.ledger.height ≤ height ∧
      ∀ s c, (w.ledger.lane id).commitments.get s = some c → c.timeout ≤ height) ∧
    ∀ height numbers steps,
      (∀ s c, (w.ledger.lane id).commitments.get s = some c → c.timeout ≤ height) →
      numbers.Nodup → (∀ s, s ∈ numbers ↔ (w.ledger.lane id).commitments.get s ≠ none) →
      List.Forall₂ (Step.GivesUp cfg id) steps numbers →
      (w.takeAll cfg (.reach height :: steps)).1 = .ok () :: steps.map (fun _ => .ok ()) ∧
        ((w.after cfg (.reach height :: steps)).ledger.lane id).pending = 0 ∧
        ((w.after cfg (.reach height :: steps)).ledger.lane id).commitments = .empty := by
  refine ⟨?_, ?_, ?_⟩
  · intro mid hproceeds hroom s c hc layers who
    have htended := hreached.tended hproceeds hroom
    refine ⟨fun t ht => htended.timeOut hc ht, ?_⟩
    intro ack htrusted hack t ht
    exact htended.acknowledge hc htrusted hack ht
  · have hlast (height : Height) : height ≤ 4294967295 :=
      UInt32.le_iff_toNat_le.mpr (Nat.le_of_lt_succ height.toNat_lt)
    exact ⟨4294967295, hlast _, fun s c _ => hlast c.timeout⟩
  · intro height numbers steps hdue hnodup hlive hsteps
    have htended := hreached.tended (.refl w) hroom
    have hlater : ({ w with ledger.height := height } : World).Tended cfg id :=
      ⟨htended.exact, htended.nameable⟩
    obtain ⟨houtcomes, hlast⟩ := hlater.drain hdue hnodup hlive hsteps
    exact ⟨congrArg _ houtcomes, hlast⟩

end

namespace Small

/-- The channel is closed while two of its packets are on their way. -/
def abandoned : List Step :=
  opening ++ [.call (.signed 1) sending, .call (.signed 1) sending,
    .call .root (.value (.startClose channel)),
    .call (.signed 10) (.value (.confirmClose channel))]

/-- Gives up a packet of the channel. -/
def givingUp (who : Account) (s : Sequence) : Step :=
  .call (.signed who) (.value (.timeOut channel s))

theorem abandoned_settled :
    ((first.after cfg abandoned).ledger.lane channel).channel.map Channel.state =
        some .closed ∧
      ((first.after cfg abandoned).take cfg (givingUp 5 2)).1 ≠ .ok () ∧
      ((first.after cfg abandoned).take cfg
        (.call (.signed 10) (.value (.acknowledge channel 2 .ok)))).1 = .ok () ∧
      ((first.after cfg abandoned).takeAll cfg [.reach 101, givingUp 5 2, givingUp 6 1]).1 =
        [.ok (), .ok (), .ok ()] ∧
      ((first.after cfg (abandoned ++ [.reach 101, givingUp 5 2, givingUp 6 1])).ledger.lane
        channel).pending = 0 := by
  have hroom : (first.after cfg abandoned).chronicle.sendCount channel <
      18446744073709551615 := by
    decide +kernel
  obtain ⟨hsettled, -, hdrained⟩ := packets_never_stranded (reached abandoned) channel hroom
  have hkeys : ((first.after cfg abandoned).ledger.lane channel).commitments.keys = [1, 2] := rfl
  have hlive (s : Sequence) : s ∈ [2, 1] ↔
      ((first.after cfg abandoned).ledger.lane channel).commitments.get s ≠ none := by
    rw [← blank_option, ← Table.mem_keys, hkeys]
    simp [or_comm]
  have htimeout (s : Sequence) (c : Commitment)
      (hc : ((first.after cfg abandoned).ledger.lane channel).commitments.get s = some c) :
      c.timeout = 101 := by
    have hsome : (((first.after cfg abandoned).ledger.lane channel).commitments.get s).map
        Commitment.timeout = some 101 := by
      rcases List.mem_pair.mp ((hlive s).mpr (by simp [hc])) with rfl | rfl
      · rfl
      · rfl
    rw [hc] at hsome
    exact Option.some.inj hsome
  obtain ⟨c, hc⟩ := Option.ne_none_iff_exists'.mp ((hlive 2).mp (by simp))
  obtain ⟨htimeOut, -⟩ := hsettled _ (.refl _) hroom 2 c hc 254 5
  obtain ⟨-, hacknowledge⟩ := hsettled _ (.refl _) hroom 2 c hc 254 10
  refine ⟨rfl, ?_, ?_, ?_⟩
  · intro hok
    have hdue := (htimeOut _ List.mem_cons_self).1.mp hok
    rw [htimeout 2 c hc] at hdue
    exact absurd hdue (by decide)
  · exact (hacknowledge .ok rfl (Nat.zero_le _) _ List.mem_cons_self).1
  · have hdrained := hdrained 101 [2, 1] [givingUp 5 2, givingUp 6 1]
      (fun s c hc => UInt32.le_of_eq (htimeout s c hc)) (by decide) hlive
      (.cons (.intro 5 List.mem_cons_self) (.cons (.intro 6 List.mem_cons_self) .nil))
    obtain ⟨houtcomes, hpending, -⟩ := hdrained
    rw [World.after_append]
    exact ⟨houtcomes, hpending⟩

end Small

end RelayLedger
