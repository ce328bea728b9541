import RelayLedger.Proofs.Answers
import RelayLedger.Proofs.ReplayGuard

/-!
Where that comes from which a ledger keeps, as long as its applications hand in no calls. The
calls that took effect are steps of the run then: a receipt was written by the step that received
its packet, an acknowledgement was recorded by the step that brought it, and the number that a
channel expects follows one that it received. And no packet is received in two steps.
-/
namespace RelayLedger

open Reception

/-! What was told stays told. -/

section Told

variable {cfg : Config} {w after : World}

theorem World.events_book_extends (w : World) (origin : Origin) (call : Call) (l : Ledger)
    (e : Event) : w.chronicle.events <+: (w.book origin call l e).chronicle.events := by
  simp only [World.book, Chronicle.enroll, Chronicle.events_tell]
  split
  · exact List.prefix_refl _
  · exact List.prefix_append _ _

theorem Proceeds.events_extends (h : Proceeds cfg w after) :
    w.chronicle.events <+: after.chronicle.events := by
  induction h with
  | refl => exact List.prefix_refl _
  | host _ _ ih => exact ih
  | deliver _ _ ih => exact ih
  | call _ _ ih => exact ih.trans (World.events_book_extends ..)
  | receive _ _ _ _ _ ih ihnested =>
    exact (ih.trans ihnested).trans (World.events_book_extends ..)

theorem World.events_after_extends (cfg : Config) (w : World) (steps : List Step) :
    w.chronicle.events <+: (w.after cfg steps).chronicle.events := by
  induction steps generalizing w with
  | nil => exact List.prefix_refl _
  | cons step rest ih =>
    refine List.IsPrefix.trans ?_ (ih (w.take cfg step).2)
    cases step with
    | call origin s => exact (take_call_proceeds w origin s).events_extends
    | _ => exact List.prefix_refl _

/-- A packet that a channel told of is told of in all later worlds. -/
theorem World.sent_after (cfg : Config) (w : World) (steps : List Step) {id : Bytes} {p : Packet}
    (hp : p ∈ w.chronicle.sent id) : p ∈ (w.after cfg steps).chronicle.sent id :=
  ((w.events_after_extends cfg steps).filterMap _).subset hp

end Told

/-! What the steps of a run left. -/

section Run

variable {cfg : Config} {w first after : World} {step : Step} {steps : List Step} {id : Bytes}
  {s : Sequence} {r : Receipt} {i j : Nat} {p : Packet}

/-- A call that is new among those that took effect was made by the step. -/
theorem QuietStep.deed_made (h : QuietStep cfg w step after) {d : Deed}
    (hold : d ∉ w.chronicle.deeds) (hd : d ∈ after.chronicle.deeds) :
    ∃ origin sub, step = .call origin sub ∧ sub.call? cfg = some d.call ∧
      (w.take cfg (.call origin sub)).1 = .ok () := by
  have hnew {l : Height} {origin : Origin} {call : Call}
      (hdeeds : after.chronicle.deeds = w.chronicle.deeds ++ [⟨l, origin, call⟩]) :
      call = d.call := by
    rw [hdeeds, List.mem_append, List.mem_singleton] at hd
    rw [hd.resolve_left hold]
  cases h with
  | idle _ hchronicle =>
    rw [hchronicle] at hd
    exact absurd hd hold
  | @call origin sub _ l e _ hcall hok _ _ hchronicle =>
    rw [← hnew (by rw [hchronicle, World.deeds_book])]
    exact ⟨origin, sub, rfl, hcall, hok⟩
  | @receive who sub _ _ _ _ _ hcall hok _ _ hchronicle =>
    rw [← hnew (by rw [hchronicle, World.deeds_book])]
    exact ⟨.signed who, sub, rfl, hcall, hok⟩

/-- A receipt that is new was written by a step that received its packet. -/
theorem QuietStep.receipt_written (h : QuietStep cfg w step after)
    (hold : w.ledger.receipt id s ≠ some r) (hr : after.ledger.receipt id s = some r) :
    ∃ origin sub p, step = .call origin sub ∧ sub.call? cfg = some (.receive p) ∧
      (w.take cfg (.call origin sub)).1 = .ok () ∧ p.target = id ∧ p.sequence = s ∧
      r.timeout = p.timeout ∧ r.receivedAt = w.ledger.height := by
  cases h with
  | idle hlane =>
    rw [Ledger.receipt, hlane] at hr
    exact absurd hr hold
  | @call _ _ _ l _ _ _ _ heffect hlane =>
    have hl : l.receipt id s = some r := by
      rw [← hr, Ledger.receipt, Ledger.receipt, hlane]
    rcases heffect.receipt_kept_or_pruned id s with hkept | hpruned
    · exact absurd (hkept.symm.trans hl) hold
    · obtain ⟨_, _, _, _, _, _, hnone⟩ := hpruned
      rw [hl] at hnone
      cases hnone
  | @receive who sub p _ _ ack _ hcall hok _ hlane =>
    have hafter := receipt_receipted w.ledger w.ledger.height p ack id s
    rw [Ledger.receipt, hlane] at hr
    rw [Ledger.receipt, hr] at hafter
    by_cases hplace : id = p.target ∧ s = p.sequence
    · rw [if_pos hplace, Option.some.injEq] at hafter
      subst hafter
      exact ⟨.signed who, sub, p, rfl, hcall, hok, hplace.1.symm, hplace.2.symm, rfl, rfl⟩
    · rw [if_neg hplace] at hafter
      exact absurd hafter.symm hold

/-- A call that took effect before a position of a run was made by a step before it. -/
theorem effective_of_deed (hquiet : Follows cfg Step.Quiet first steps)
    (hfirst : first.chronicle.deeds = []) {d : Deed}
    (hd : d ∈ (first.stage cfg steps i).chronicle.deeds) :
    ∃ k, k < i ∧ Effective cfg first steps k d.call := by
  have hnone : d ∉ first.chronicle.deeds := by
    rw [hfirst]
    exact List.not_mem_nil
  obtain ⟨k, step, hk, hstep, hold, hnew⟩ := exists_step_of_stage
    (P := fun w => d ∈ w.chronicle.deeds) hnone hd
  obtain ⟨origin, sub, rfl, hcall, hok⟩ :=
    (take_quiet cfg (hquiet.may_at hstep)).deed_made hold hnew
  exact ⟨k, hk, origin, sub, hstep, hcall, hok⟩

/-- A receipt at a position of a run was written by a step before it, which received the packet
when it was in time. -/
theorem receipt_received (hquiet : Follows cfg Step.Quiet first steps)
    (hfirst : first.ledger.receipt id s = none)
    (hr : (first.stage cfg steps i).ledger.receipt id s = some r) :
    ∃ k p, k < i ∧ Effective cfg first steps k (.receive p) ∧ p.target = id ∧ p.sequence = s ∧
      r.timeout = p.timeout ∧ r.receivedAt < p.timeout ∧
      (first.stage cfg steps (k + 1)).ledger.receipt id s = some r := by
  have hnone : first.ledger.receipt id s ≠ some r := by
    rw [hfirst]
    exact nofun
  obtain ⟨k, step, hk, hstep, hold, hnew⟩ := exists_step_of_stage
    (P := fun w => w.ledger.receipt id s = some r) hnone hr
  obtain ⟨origin, sub, p, rfl, hcall, hok, htarget, hsequence, htimeout, hreceivedAt⟩ :=
    (take_quiet cfg (hquiet.may_at hstep)).receipt_written hold hnew
  have heffective : Effective cfg first steps k (.receive p) := ⟨origin, sub, hstep, hcall, hok⟩
  refine ⟨k, p, hk, heffective, htarget, hsequence, htimeout, ?_, ?_⟩
  · rw [hreceivedAt]
    exact heffective.fresh.2
  · rw [World.stage_succ, hstep]
    exact hnew

/-- A packet that was received is not received later: its receipt stays until its time is
over. -/
theorem not_received_later
    (h : Follows cfg (fun w step => step.Onward w ∧ step.Quiet w) first steps) (hij : i < j)
    (hi : Effective cfg first steps i (.receive p)) :
    ¬Effective cfg first steps j (.receive p) := by
  intro hj
  obtain ⟨hnone, hearly⟩ := hj.fresh
  obtain ⟨r, hr, htimeout⟩ := hi.receipt_after
  have hquiet : Follows cfg Step.Quiet first steps := h.mono fun _ _ hmay => hmay.2
  have honward : Follows cfg Step.Onward first steps := h.mono fun _ _ hmay => hmay.1
  rcases receipt_kept_or_pruned_between hquiet hij hr with hkept | hpruned
  · rw [hnone] at hkept
    cases hkept
  · obtain ⟨k, _, _, hkj, _, _, hstale⟩ := hpruned
    have hdue : r.timeout.after cfg.retentionBlocks ≤ (first.stage cfg steps k).ledger.height :=
      of_decide_eq_true hstale
    rw [htimeout] at hdue
    have hlate := UInt32.le_trans (Height.le_after p.timeout cfg.retentionBlocks)
      (UInt32.le_trans hdue (stage_height_mono honward (Nat.le_of_lt hkj)))
    exact absurd hearly (UInt32.not_lt.mpr hlate)

end Run

/-! The number that a channel expects next. -/

def Lane.expected (l : Lane) : Option Sequence := l.sequences.map Sequences.recv

theorem Lane.expected_retain (limit : UInt32) (l : Lane) (s : Sequence) (r : AckRecord) :
    (Lane.retain limit l s r).expected = l.expected := by
  rw [Lane.retain_eq]
  rfl

section Expected

variable {cfg : Config} {w : World} {origin : Origin} {call : Call} {l : Ledger} {e : Event}

/-- Only an opening changes the number that is expected, apart from packets that come in. -/
theorem Effect.expected_eq (h : Effect cfg w origin call l e) (id : Bytes) :
    (l.lane id).expected = (w.ledger.lane id).expected ∨ (l.lane id).expected = some 1 := by
  cases h with
  | openChannel =>
    rw [Ledger.lane_opened]
    split
    · exact .inr rfl
    · exact .inl rfl
  | addRelayer => exact .inl rfl
  | removeRelayer => exact .inl rfl
  | mapAgent => exact .inl rfl
  | unmapAgent => exact .inl rfl
  | @send _ channel _ _ _ _ _ counts _ _ _ _ _ _ _ _ _ _ _ hcounts =>
    left
    rw [Ledger.lane_modifyLane]
    split
    · next hid => simp [hid, Lane.expected, Lane.commit, hcounts, Sequences.afterSend]
    · rfl
  | @acknowledge _ channel =>
    left
    rw [Ledger.lane_modifyLane]
    split
    · next hid =>
      rw [hid, Lane.expected_retain]
      simp [Lane.expected, Lane.countAck, Lane.release, Function.comp_def, Sequences.afterAck]
    · rfl
  | _ =>
    left
    rw [Ledger.lane_modifyLane]
    split
    · next hid => rw [hid]; rfl
    · rfl

theorem Reception.expected_receipted {l : Ledger} {now : Height} {p : Packet}
    {ack : Acknowledgement} {id : Bytes} {n : Sequence}
    (h : ((receipted l now p ack).lane id).expected = some n) :
    (l.lane id).expected = some n ∨ p.target = id ∧ n = Sequence.next p.sequence := by
  rw [receipted, Ledger.lane_modifyLane] at h
  split at h
  · next hid =>
    subst hid
    simp only [Lane.expected, Lane.receive, Option.map_map, Option.map_eq_some_iff] at h
    obtain ⟨counts, hcounts, hn⟩ := h
    simp only [Function.comp_apply, Sequences.afterRecv] at hn
    split at hn
    · exact .inr ⟨rfl, hn.symm⟩
    · exact .inl (by rw [Lane.expected, hcounts, Option.map_some, hn])
  · exact .inl h

/-- A channel expects its first packet, or the one after a packet that it received. -/
def World.Expects (id : Bytes) (w : World) : Prop :=
  ∀ n, (w.ledger.lane id).expected = some n →
    n = 1 ∨ ∃ d ∈ w.chronicle.deeds, ∃ p, d.call = .receive p ∧ p.target = id ∧
      n = Sequence.next p.sequence

theorem World.Expects.book {w : World} {id : Bytes} (h : w.Expects id) {n : Sequence}
    (hn : (w.ledger.lane id).expected = some n) (origin : Origin) (call : Call) (l : Ledger)
    (e : Event) : n = 1 ∨ ∃ d ∈ (w.book origin call l e).chronicle.deeds, ∃ p,
      d.call = .receive p ∧ p.target = id ∧ n = Sequence.next p.sequence := by
  rw [World.deeds_book]
  rcases h n hn with hone | ⟨d, hd, hreceived⟩
  · exact .inl hone
  · exact .inr ⟨d, List.mem_append_left _ hd, hreceived⟩

theorem kept_expects (cfg : Config) (id : Bytes) :
    Kept cfg (fun _ => True) (World.Expects id) where
  host _ h := h
  height _ h := h
  deliver _ h := h
  call {w origin call l e} _ h heffect := by
    intro n hn
    rcases heffect.expected_eq id with heq | hone
    · exact h.book (heq.symm.trans hn) origin call l e
    · exact .inl (Option.some.inj (hn.symm.trans hone))
  receive {w} who p agent ack _ h := by
    intro n hn
    rcases expected_receipted hn with hold | ⟨htarget, hnext⟩
    · exact h.book hold _ _ _ _
    · refine .inr ⟨⟨w.ledger.height, .signed who, .receive p⟩, ?_, p, rfl, htarget, hnext⟩
      rw [World.deeds_book]
      exact List.mem_append_right _ (List.mem_singleton.mpr rfl)

theorem Reached.expects {may : World → Step → Prop} {w : World} (h : Reached cfg may w)
    (id : Bytes) : w.Expects id :=
  (kept_expects cfg id).reached (fun _ _ _ hn => by cases hn) (fun _ _ _ _ => trivial) h

end Expected

end RelayLedger
