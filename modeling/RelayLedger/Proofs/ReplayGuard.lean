import RelayLedger.Proofs.QuietStep
import RelayLedger.Proofs.Receipts

/-!
The replay guard over whole runs. A receipt stays until it is pruned, and it is pruned only
when its packet is out of time for good; as the block number never falls, a number that is
free again can be taken by a packet with a later timeout, but never by the same packet.
Applications hand in no calls here: for those that do, see `RelayLedger.Proofs.Reentry`.
-/
namespace RelayLedger

section

variable {cfg : Config} {w : World} {id : Bytes} {s : Sequence} {r : Receipt}

variable (cfg) in
/-- A receipt outlasts every step but one that prunes it, and then its time is over. -/
theorem receipt_after_step {step : Step} (hquiet : step.Quiet w)
    (hr : w.ledger.receipt id s = some r) :
    (w.take cfg step).2.ledger.receipt id s = some r ∨
      ∃ origin sub listed, step = .call origin sub ∧
        sub.call? cfg = some (.prune id listed) ∧ (w.take cfg step).1 = .ok () ∧ s ∈ listed ∧
        r.isStale cfg w.ledger.height = true := by
  have hstep := take_quiet cfg hquiet
  generalize (w.take cfg step).2 = after at hstep ⊢
  cases hstep with
  | idle hlane =>
    left
    rw [Ledger.receipt, hlane]
    exact hr
  | @call origin sub call l e _ hcall hok heffect hlane =>
    rcases heffect.receipt_kept_or_pruned id s with hkept | hpruned
    · left
      rw [← hr, ← hkept, Ledger.receipt, Ledger.receipt, hlane]
    · obtain ⟨listed, r', rfl, hlisted, hr', hstale, -⟩ := hpruned
      obtain rfl : r' = r := Option.some.inj (hr'.symm.trans hr)
      exact .inr ⟨origin, sub, listed, rfl, hcall, hok, hlisted, hstale⟩
  | @receive who sub p _ _ ack _ _ _ hadmitted hlane =>
    have hother : ¬(id = p.target ∧ s = p.sequence) := by
      rintro ⟨rfl, rfl⟩
      have hnone : w.ledger.receipt p.target p.sequence = none := hadmitted.unreceived
      rw [hnone] at hr
      cases hr
    left
    have hafter := Reception.receipt_receipted w.ledger w.ledger.height p ack id s
    rw [if_neg hother, hr] at hafter
    rw [Ledger.receipt, hlane]
    exact hafter

section Run

variable {first : World} {steps : List Step} {i j : Nat} {p : Packet}

/-- A packet is received where there is no receipt for it and its timeout is still to come. -/
theorem Effective.fresh (h : Effective cfg first steps i (.receive p)) :
    (first.stage cfg steps i).ledger.receipt p.target p.sequence = none ∧
      (first.stage cfg steps i).ledger.height < p.timeout := by
  obtain ⟨origin, sub, -, hcall, hok⟩ := h
  obtain ⟨call, mid, hcall', hperform, -⟩ := take_call_ok_iff.mp (Prod.ext hok rfl)
  obtain rfl : call = .receive p := Option.some.inj (hcall'.symm.trans hcall)
  obtain ⟨who, channel, -, hadmitted⟩ := Reception.admitted_of_receive_ok hperform
  exact ⟨hadmitted.unreceived, hadmitted.early⟩

/-- A received packet has left a receipt with its timeout. -/
theorem Effective.receipt_after (h : Effective cfg first steps i (.receive p)) :
    ∃ r, (first.stage cfg steps (i + 1)).ledger.receipt p.target p.sequence = some r ∧
      r.timeout = p.timeout := by
  obtain ⟨origin, sub, hi, hcall, hok⟩ := h
  rw [World.stage_succ, hi]
  obtain ⟨call, mid, hcall', hperform, hafter⟩ := take_call_ok_iff.mp (Prod.ext hok rfl)
  obtain rfl : call = .receive p := Option.some.inj (hcall'.symm.trans hcall)
  obtain ⟨who, channel, agent, ack, late, -, -, -, rfl⟩ := Reception.receive_ok hperform
  simp only [hafter]
  refine ⟨_, (Reception.receipt_receipted ..).trans (if_pos ⟨rfl, rfl⟩), rfl⟩

/-- From one position of a run to a later one a receipt stays, or it was pruned in between
when its time was over. -/
theorem receipt_kept_or_pruned_between (h : Follows cfg Step.Quiet first steps) (hij : i ≤ j)
    (hr : (first.stage cfg steps i).ledger.receipt id s = some r) :
    (first.stage cfg steps j).ledger.receipt id s = some r ∨
      ∃ k listed, i ≤ k ∧ k < j ∧ Effective cfg first steps k (.prune id listed) ∧ s ∈ listed ∧
        r.isStale cfg (first.stage cfg steps k).ledger.height = true := by
  induction hij with
  | refl => exact .inl hr
  | @step j hij ih =>
    rcases ih with hkept | ⟨k, listed, hik, hkj, hpruned⟩
    · cases hj : steps[j]? with
      | none =>
        left
        rw [World.stage_succ, hj]
        exact hkept
      | some step =>
        rcases receipt_after_step cfg (h.may_at hj) hkept with hstep | hstep
        · left
          rw [World.stage_succ, hj]
          exact hstep
        · obtain ⟨origin, sub, listed, rfl, hcall, hok, hlisted, hstale⟩ := hstep
          exact .inr ⟨j, listed, hij, Nat.lt_succ_self j, ⟨origin, sub, hj, hcall, hok⟩,
            hlisted, hstale⟩
    · exact .inr ⟨k, listed, hik, Nat.lt_succ_of_lt hkj, hpruned⟩

/-- A number is taken again on a channel only after its receipt was pruned, by a packet that
is not yet too late when the first one has been too late for the whole retention time. So no
packet is ever taken twice. -/
theorem receive_again_only_after_prune
    (h : Follows cfg (fun w step => step.Onward w ∧ step.Quiet w) first steps) :
    (∀ i j p q, i < j → Effective cfg first steps i (.receive p) →
      Effective cfg first steps j (.receive q) → q.target = p.target → q.sequence = p.sequence →
      (∃ k listed, i < k ∧ k < j ∧ Effective cfg first steps k (.prune p.target listed) ∧
        p.sequence ∈ listed) ∧
      (first.stage cfg steps j).ledger.height < q.timeout ∧
      p.timeout.after cfg.retentionBlocks ≤ (first.stage cfg steps j).ledger.height) ∧
    ∀ i j p, i < j → Effective cfg first steps i (.receive p) →
      ¬Effective cfg first steps j (.receive p) := by
  have honward : Follows cfg Step.Onward first steps := h.mono fun _ _ hmay => hmay.1
  have hquiet : Follows cfg Step.Quiet first steps := h.mono fun _ _ hmay => hmay.2
  have hagain : ∀ i j p q, i < j → Effective cfg first steps i (.receive p) →
      Effective cfg first steps j (.receive q) → q.target = p.target → q.sequence = p.sequence →
      (∃ k listed, i < k ∧ k < j ∧ Effective cfg first steps k (.prune p.target listed) ∧
        p.sequence ∈ listed) ∧
      (first.stage cfg steps j).ledger.height < q.timeout ∧
      p.timeout.after cfg.retentionBlocks ≤ (first.stage cfg steps j).ledger.height := by
    intro i j p q hij hi hj htarget hsequence
    obtain ⟨hnone, hearly⟩ := hj.fresh
    rw [htarget, hsequence] at hnone
    obtain ⟨r, hr, htimeout⟩ := hi.receipt_after
    rcases receipt_kept_or_pruned_between hquiet hij hr with hkept | hpruned
    · rw [hnone] at hkept
      cases hkept
    · obtain ⟨k, listed, hik, hkj, hprune, hlisted, hstale⟩ := hpruned
      have hdue : r.timeout.after cfg.retentionBlocks ≤ (first.stage cfg steps k).ledger.height :=
        of_decide_eq_true hstale
      rw [htimeout] at hdue
      exact ⟨⟨k, listed, hik, hkj, hprune, hlisted⟩, hearly,
        UInt32.le_trans hdue (stage_height_mono honward (Nat.le_of_lt hkj))⟩
  refine ⟨hagain, fun i j p hij hi hj => ?_⟩
  obtain ⟨-, hearly, hlate⟩ := hagain i j p p hij hi hj rfl rfl
  -- the packet's own timeout lies between the two heights, however the sum was cut off
  have hle := UInt32.le_trans (Height.le_after p.timeout cfg.retentionBlocks) hlate
  exact absurd hearly (UInt32.not_lt.mpr hle)

end Run

end

namespace Small

/-- The number of a packet is taken again once its receipt was pruned, which it cannot be in the last
block of the retention time. -/
def reuse : List Step :=
  opening ++ [.call (.signed 10) (.value (.receive (packet 5))), .reach 54,
    .call (.signed 1) (.value (.prune channel [1])), .reach 55,
    .call (.signed 1) (.value (.prune channel [1])),
    .call (.signed 10) (.value (.receive (packet 70)))]

/-- An application that accepts everything hands in no calls. -/
theorem quiet_of_accepting {w : World} (turn : Topic → Nat)
    (h : w.host.applications = some fun topic => ⟨Application.accepting.plan, turn topic⟩) :
    w.host.Quiet := by
  intro applications happlications topic n d
  rw [h] at happlications
  cases happlications
  exact ⟨true, rfl⟩

theorem reuse_follows :
    Follows cfg (fun w step => step.Onward w ∧ step.Quiet w) first reuse := by
  have hfresh : (fun _ => .accepting) =
      fun _ : Topic => (⟨Application.accepting.plan, 0⟩ : Application) := rfl
  refine ⟨⟨show (0 : Height) ≤ 1 by decide, trivial⟩,
    ⟨trivial, quiet_of_accepting _ (congrArg some hfresh)⟩,
    ⟨trivial, quiet_of_accepting _ (congrArg some hfresh)⟩,
    ⟨trivial, quiet_of_accepting _ (congrArg some hfresh)⟩,
    ⟨show (1 : Height) ≤ 54 by decide, trivial⟩,
    ⟨trivial, quiet_of_accepting (fun topic => if topic = .raw then 1 else 0)
      (congrArg some (funext fun topic => ?_))⟩,
    ⟨show (54 : Height) ≤ 55 by decide, trivial⟩,
    ⟨trivial, quiet_of_accepting (fun topic => if topic = .raw then 1 else 0)
      (congrArg some (funext fun topic => ?_))⟩,
    ⟨trivial, quiet_of_accepting (fun topic => if topic = .raw then 1 else 0)
      (congrArg some (funext fun topic => ?_))⟩, trivial⟩
  · cases topic <;> rfl
  · cases topic <;> rfl
  · cases topic <;> rfl

theorem receive_again_after_reuse :
    Follows cfg (fun w step => step.Onward w ∧ step.Quiet w) first reuse ∧
      Effective cfg first reuse 3 (.receive (packet 5)) ∧
      Effective cfg first reuse 8 (.receive (packet 70)) ∧
      (∃ k listed, 3 < k ∧ k < 8 ∧ Effective cfg first reuse k (.prune channel listed) ∧
        1 ∈ listed) ∧
      ¬Effective cfg first reuse 5 (.prune channel [1]) ∧
      ¬Effective cfg first reuse 8 (.receive (packet 5)) := by
  have hguard := receive_again_only_after_prune reuse_follows
  have hfirst : Effective cfg first reuse 3 (.receive (packet 5)) :=
    ⟨.signed 10, .value (.receive (packet 5)), rfl, rfl, rfl⟩
  have hsecond : Effective cfg first reuse 8 (.receive (packet 70)) :=
    ⟨.signed 10, .value (.receive (packet 70)), rfl, rfl, rfl⟩
  have hearly : ¬Effective cfg first reuse 5 (.prune channel [1]) := by
    rintro ⟨origin, s, hstep, -, hok⟩
    cases hstep
    cases hok
  exact ⟨reuse_follows, hfirst, hsecond,
    (hguard.1 3 8 _ _ (by decide) hfirst hsecond rfl rfl).1, hearly,
    hguard.2 3 8 _ (by decide) hfirst⟩

end Small

end RelayLedger
