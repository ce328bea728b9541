import Mathlib.Data.List.DropRight
import RelayLedger.Proofs.Numbering

/-!
The acknowledgements that a ledger keeps. They stand in a table by the numbers of their packets,
and a queue holds these numbers in the order in which the acknowledgements came in. A number is
acknowledged at most once, so what leaves the queue leaves the table too, and both hold the last
acknowledgements of the channel, as many as there is room for.
-/
namespace RelayLedger

/-- The acknowledgement that a call brought for a packet of a channel, as it is recorded. -/
def Deed.answerOn (id : Bytes) (d : Deed) : Option (Sequence × AckRecord) :=
  match d.call with
  | .acknowledge channel s ack => if channel = id then some (s, ⟨ack, d.height⟩) else none
  | _ => none

theorem Deed.call_of_answerOn {id : Bytes} {d : Deed} {s : Sequence} {r : AckRecord}
    (h : d.answerOn id = some (s, r)) : d.call = .acknowledge id s r.ack := by
  unfold answerOn at h
  split at h
  · next hcall =>
    rw [Option.ite_none_right_eq_some, Option.some.injEq] at h
    obtain ⟨rfl, heq⟩ := h
    cases heq
    exact hcall
  · cases h

/-- All acknowledgements that calls brought for packets of a channel, oldest first. -/
def Chronicle.answers (c : Chronicle) (id : Bytes) : List (Sequence × AckRecord) :=
  c.deeds.filterMap (Deed.answerOn id)

theorem World.answers_book (w : World) (origin : Origin) (call : Call) (l : Ledger) (e : Event)
    (id : Bytes) :
    (w.book origin call l e).chronicle.answers id =
      w.chronicle.answers id ++ (Deed.answerOn id ⟨l.height, origin, call⟩).toList := by
  rw [Chronicle.answers, World.deeds_book, List.filterMap_append, Chronicle.answers]
  cases h : Deed.answerOn id ⟨l.height, origin, call⟩ <;> simp [h]

/-- What is kept of a channel's acknowledgements. -/
structure Archive where
  acks : Table Sequence (Option AckRecord)
  /-- The packets whose acknowledgements are kept, oldest first. -/
  retained : List Sequence

def Lane.archive (l : Lane) : Archive := ⟨l.acks, l.retained⟩

namespace Archive

/-- The archive with one more acknowledgement; the oldest one makes room for it. -/
def add (limit : UInt32) (a : Archive) (answer : Sequence × AckRecord) : Archive :=
  match Capacity.pushEvicting limit a.retained answer.1 with
  | (none, retained) => ⟨a.acks.set answer.1 (some answer.2), retained⟩
  | (some evicted, retained) =>
    ⟨(a.acks.set answer.1 (some answer.2)).set evicted none, retained⟩

section

variable {limit : UInt32} {a : Archive}

theorem add_of_length_lt (h : a.retained.length < limit.toNat) (answer : Sequence × AckRecord) :
    a.add limit answer =
      ⟨a.acks.set answer.1 (some answer.2), a.retained ++ [answer.1]⟩ := by
  have hlimit := Capacity.ne_zero_of_lt h
  have hpush : Capacity.pushEvicting limit a.retained answer.1 =
      (none, a.retained ++ [answer.1]) := by
    rw [Capacity.pushEvicting_of_length_le _ (Nat.le_of_lt h), if_neg hlimit, if_pos h]
  simp only [add, hpush]

theorem add_of_length_eq {oldest : Sequence} {rest : List Sequence} (hlimit : limit ≠ 0)
    (hretained : a.retained = oldest :: rest) (h : a.retained.length = limit.toNat)
    (answer : Sequence × AckRecord) :
    a.add limit answer =
      ⟨(a.acks.set answer.1 (some answer.2)).set oldest none, rest ++ [answer.1]⟩ := by
  have hpush : Capacity.pushEvicting limit a.retained answer.1 =
      (some oldest, rest ++ [answer.1]) := by
    rw [Capacity.pushEvicting_of_length_le _ (Nat.le_of_eq h), if_neg hlimit,
      if_neg (Nat.not_lt.mpr (Nat.le_of_eq h.symm)), hretained]
    rfl
  simp only [add, hpush]

end

end Archive

/-- The entries of a table, one for each key that holds something. -/
def Table.Lists (t : Table Sequence (Option AckRecord)) (entries : List (Sequence × AckRecord)) :
    Prop :=
  ∀ s r, t.get s = some r ↔ (s, r) ∈ entries

namespace Table.Lists

variable {t : Table Sequence (Option AckRecord)} {entries : List (Sequence × AckRecord)}
  {s : Sequence} {r : AckRecord}

theorem concat (h : t.Lists entries) (hnew : s ∉ entries.map Prod.fst) :
    (t.set s (some r)).Lists (entries ++ [(s, r)]) := by
  intro other r'
  rw [Table.get_set, List.mem_append, List.mem_singleton]
  by_cases hs : other = s
  · subst hs
    have hnone : (other, r') ∉ entries := fun hmem => hnew (List.mem_map_of_mem hmem)
    simp [hnone, eq_comm]
  · rw [if_neg hs, h other r']
    simp [hs]

theorem tail (h : t.Lists ((s, r) :: entries)) (hgone : s ∉ entries.map Prod.fst) :
    (t.set s none).Lists entries := by
  intro other r'
  rw [Table.get_set]
  by_cases hs : other = s
  · subst hs
    have hnone : (other, r') ∉ entries := fun hmem => hgone (List.mem_map_of_mem hmem)
    simp [hnone]
  · rw [if_neg hs, h other r', List.mem_cons]
    simp [hs]

theorem get_ne_none (h : t.Lists entries) : t.get s ≠ none ↔ s ∈ entries.map Prod.fst := by
  rw [Option.ne_none_iff_exists', List.mem_map]
  constructor
  · rintro ⟨r, hr⟩
    exact ⟨(s, r), (h s r).mp hr, rfl⟩
  · rintro ⟨⟨s', r⟩, hmem, rfl⟩
    exact ⟨r, (h s' r).mpr hmem⟩

end Table.Lists

/-- An archive keeps the last answers, at most as many as the limit. -/
structure Archive.Keeps (limit : UInt32) (a : Archive) (answers : List (Sequence × AckRecord)) :
    Prop where
  retained_eq : a.retained = (answers.rtake limit.toNat).map Prod.fst
  lists : a.acks.Lists (answers.rtake limit.toNat)

/-! The end of a list that gets longer. -/

section

variable {α : Type} {n : Nat} {xs : List α}

theorem rtake_of_length_le (h : xs.length ≤ n) : xs.rtake n = xs := by
  rw [List.rtake, Nat.sub_eq_zero_of_le h, List.drop_zero]

theorem length_rtake (n : Nat) (xs : List α) : (xs.rtake n).length = min xs.length n := by
  rw [List.rtake, List.length_drop]
  omega

theorem rtake_min_length (n : Nat) (xs : List α) : xs.rtake (min xs.length n) = xs.rtake n := by
  rw [List.rtake, List.rtake]
  congr 1
  omega

theorem rtake_map {β : Type} (f : α → β) (n : Nat) (xs : List α) :
    (xs.rtake n).map f = (xs.map f).rtake n := by
  rw [List.rtake, List.rtake, List.map_drop, List.length_map]

/-- Where the end is full, its first entry leaves it when the list gets longer. -/
theorem rtake_concat_of_full {first : α} {rest : List α} (h : xs.rtake n = first :: rest)
    (hfull : n ≤ xs.length) (x : α) : (xs ++ [x]).rtake n = rest ++ [x] := by
  have hlength := length_rtake n xs
  rw [h, List.length_cons] at hlength
  obtain ⟨k, rfl⟩ : ∃ k, n = k + 1 := ⟨rest.length, by omega⟩
  rw [List.rtake_concat_succ]
  have hdrop : xs.length - k = xs.length - (k + 1) + 1 := by omega
  rw [List.rtake, hdrop, ← List.drop_drop, ← List.rtake, h, List.drop_succ_cons, List.drop_zero]

end

namespace Archive.Keeps

variable {limit : UInt32} {a : Archive} {answers : List (Sequence × AckRecord)} {s : Sequence}
  {r : AckRecord}

theorem empty (limit : UInt32) : Keeps limit Lane.empty.archive [] where
  retained_eq := by rw [List.rtake_nil]; rfl
  lists s r := by simp [Lane.empty, Lane.archive]

theorem length_retained (h : a.Keeps limit answers) :
    a.retained.length = min answers.length limit.toNat := by
  rw [h.retained_eq, List.length_map, length_rtake]

/-- Without any room an answer leaves as it comes. -/
theorem add_of_zero (h : a.Keeps 0 answers) :
    (a.add 0 (s, r)).Keeps 0 (answers ++ [(s, r)]) := by
  have hnothing (xs : List (Sequence × AckRecord)) : xs.rtake (0 : UInt32).toNat = [] :=
    List.rtake_zero xs
  have hlists := h.lists
  rw [hnothing] at hlists
  constructor
  case retained_eq =>
    rw [hnothing]
    exact h.retained_eq.trans (by rw [hnothing])
  case lists =>
    rw [hnothing]
    exact (hlists.concat (by simp)).tail (by simp)

/-- An answer for which there is room is kept beside the others. -/
theorem add_of_room (h : a.Keeps limit answers) (hroom : answers.length < limit.toNat)
    (hnew : s ∉ answers.map Prod.fst) :
    (a.add limit (s, r)).Keeps limit (answers ++ [(s, r)]) := by
  obtain ⟨hretained, hlists⟩ := h
  rw [rtake_of_length_le (Nat.le_of_lt hroom)] at hretained hlists
  have hlength : a.retained.length < limit.toNat := by
    rw [hretained, List.length_map]
    exact hroom
  have hall : (answers ++ [(s, r)]).rtake limit.toNat = answers ++ [(s, r)] := by
    apply rtake_of_length_le
    rw [List.length_append, List.length_singleton]
    exact hroom
  rw [add_of_length_lt hlength]
  constructor
  case retained_eq => rw [hall, List.map_append, ← hretained, List.map_singleton]
  case lists =>
    rw [hall]
    exact hlists.concat hnew

/-- Where no room is left, an answer takes the place of the oldest one that is kept. -/
theorem add_of_full (h : a.Keeps limit answers) (hlimit : limit ≠ 0)
    (hfull : limit.toNat ≤ answers.length)
    (hnodup : ((answers ++ [(s, r)]).map Prod.fst).Nodup) :
    (a.add limit (s, r)).Keeps limit (answers ++ [(s, r)]) := by
  have hlength := h.length_retained
  obtain ⟨hretained, hlists⟩ := h
  cases hkept : answers.rtake limit.toNat with
  | nil =>
    have hpos := Capacity.toNat_pos hlimit
    have hnil := length_rtake limit.toNat answers
    rw [hkept, List.length_nil] at hnil
    omega
  | cons oldest rest =>
    obtain ⟨gone, r₀⟩ := oldest
    have hwindow := rtake_concat_of_full hkept hfull (s, r)
    rw [hkept] at hretained hlists
    -- all numbers in the window are different, with the new one and the one that leaves
    have hsub : ((gone, r₀) :: rest ++ [(s, r)]).Sublist (answers ++ [(s, r)]) := by
      rw [← hkept]
      exact (List.drop_sublist _ _).append_right _
    have hdistinct := hnodup.sublist (hsub.map Prod.fst)
    have hgone : gone ∉ (rest ++ [(s, r)]).map Prod.fst := (List.nodup_cons.mp hdistinct).1
    have hnew : s ∉ ((gone, r₀) :: rest).map Prod.fst := by
      rw [List.map_append, List.map_singleton] at hdistinct
      exact List.disjoint_singleton.mp (List.disjoint_of_nodup_append hdistinct)
    rw [add_of_length_eq hlimit hretained (by omega)]
    constructor
    case retained_eq => rw [hwindow, List.map_append, List.map_singleton]
    case lists =>
      rw [hwindow]
      exact (hlists.concat hnew).tail hgone

theorem add (h : a.Keeps limit answers) (answer : Sequence × AckRecord)
    (hnodup : ((answers ++ [answer]).map Prod.fst).Nodup) :
    (a.add limit answer).Keeps limit (answers ++ [answer]) := by
  obtain ⟨s, r⟩ := answer
  by_cases hlimit : limit = 0
  · subst hlimit
    exact h.add_of_zero
  · rcases Nat.lt_or_ge answers.length limit.toNat with hroom | hfull
    · rw [List.map_append, List.map_singleton] at hnodup
      exact h.add_of_room hroom
        (List.disjoint_singleton.mp (List.disjoint_of_nodup_append hnodup))
    · exact h.add_of_full hlimit hfull hnodup

end Archive.Keeps

/-! What the calls do to an archive. -/

theorem Lane.archive_retain (limit : UInt32) (l : Lane) (s : Sequence) (r : AckRecord) :
    (Lane.retain limit l s r).archive = l.archive.add limit (s, r) := by
  unfold Lane.retain Archive.add
  change (match Capacity.pushEvicting limit l.retained s with
    | (none, retained) => { l with acks := l.acks.set s (some r), retained }
    | (some evicted, retained) =>
      { l with acks := (l.acks.set s (some r)).set evicted none, retained }).archive =
    match Capacity.pushEvicting limit l.retained s with
    | (none, retained) => ⟨l.acks.set s (some r), retained⟩
    | (some evicted, retained) => ⟨(l.acks.set s (some r)).set evicted none, retained⟩
  split <;> rfl

section

variable {cfg : Config} {w : World} {origin : Origin} {call : Call} {l : Ledger} {e : Event}

/-- Only an acknowledgement on a channel changes what is kept of its acknowledgements. -/
theorem Effect.archive_eq (h : Effect cfg w origin call l e) (id : Bytes) :
    (l.lane id).archive =
      (Deed.answerOn id ⟨w.ledger.height, origin, call⟩).elim (w.ledger.lane id).archive
        ((w.ledger.lane id).archive.add cfg.pendingLimit) := by
  cases h with
  | @acknowledge who channel s ack c =>
    rw [Ledger.lane_modifyLane]
    by_cases hid : id = channel
    · subst hid
      rw [if_pos rfl, Lane.archive_retain]
      simp [Deed.answerOn, Lane.archive, Lane.countAck, Lane.release]
    · simp [Deed.answerOn, hid, Ne.symm hid]
  | openChannel =>
    rw [Ledger.lane_opened]
    split
    · next hid => simp [hid, Deed.answerOn, Lane.archive, Lifecycle.opening]
    · rfl
  | addRelayer => rfl
  | removeRelayer => rfl
  | mapAgent => rfl
  | unmapAgent => rfl
  | _ =>
    rw [Ledger.lane_modifyLane]
    split
    · next hid => simp [hid, Deed.answerOn, Lane.archive, Lane.commit, Lane.release]
    · rfl

theorem Effect.fst_answerOn (h : Effect cfg w origin call l e) (id : Bytes) :
    (Deed.answerOn id ⟨w.ledger.height, origin, call⟩).map Prod.fst = e.ackedOn id := by
  cases h with
  | @acknowledge who channel =>
    by_cases hid : channel = id
    · simp [Deed.answerOn, Event.ackedOn, hid]
    · simp [Deed.answerOn, Event.ackedOn, hid]
  | _ => rfl

theorem Reception.archive_receipted (l : Ledger) (now : Height) (p : Packet)
    (ack : Acknowledgement) (id : Bytes) :
    ((receipted l now p ack).lane id).archive = (l.lane id).archive := by
  rw [receipted, Ledger.lane_modifyLane]
  split
  · next hid => rw [hid]; rfl
  · rfl

end

/-- Numbers that were given out and are no longer committed, none of them listed twice. -/
structure Outbox.Settled (sends : Nat) (o : Outbox) (numbers : List Sequence) : Prop where
  issued : Issued sends numbers
  released : ∀ s ∈ numbers, o.commitments.get s = none

namespace Outbox.Settled

variable {cfg : Config} {o after : Outbox} {sends : Nat} {numbers : List Sequence}

theorem empty : Settled 0 Lane.empty.outbox [] := ⟨.nil, by simp⟩

theorem send {p : Packet} (h : Settled sends o numbers) (hnext : p.sequence.toNat = sends + 1)
    (counts : Option (Sequence × Sequence)) (pending : UInt32) (c : Commitment) :
    Settled (sends + 1)
      { o with counts, pending, commitments := o.commitments.set p.sequence (some c) }
      numbers where
  issued := h.issued.later (Nat.le_succ sends)
  released s hs := by
    have hne : s ≠ p.sequence := by
      rintro rfl
      have hle := h.issued.le p.sequence hs
      omega
    exact (Table.get_set_of_ne _ _ hne).trans (h.released s hs)

theorem settle (h : Settled sends o numbers) (counts : Option (Sequence × Sequence))
    (pending : UInt32) (s : Sequence) :
    Settled sends { o with counts, pending, commitments := o.commitments.set s none }
      numbers where
  issued := h.issued
  released other hother := by
    rw [Table.get_set]
    split
    · rfl
    · exact h.released other hother

/-- A number that is acknowledged was committed until then, so it was not settled before. -/
theorem acknowledge (h : Settled sends o numbers) {s : Sequence} {c : Commitment}
    (hcommitment : o.commitments.get s = some c) (hle : s.toNat ≤ sends)
    (counts : Option (Sequence × Sequence)) (pending : UInt32) :
    Settled sends { o with counts, pending, commitments := o.commitments.set s none }
      (numbers ++ [s]) where
  issued := by
    refine h.issued.push (fun hs => ?_) hle
    have hnone := h.released s hs
    rw [hcommitment] at hnone
    cases hnone
  released := by
    rw [List.forall_mem_append, List.forall_mem_singleton]
    exact ⟨(h.settle counts pending s).released, Table.get_set_self ..⟩

theorem turn {id : Bytes} {call : Call} {e : Event} (hexact : o.Exact cfg sends)
    (h : Settled sends o numbers) (hturn : o.Turn cfg id call e after)
    (hroom : (sends + if call.sendsOn id then 1 else 0) < 18446744073709551615) :
    Settled (sends + if call.sendsOn id then 1 else 0) after
      (numbers ++ (e.ackedOn id).toList) := by
  cases hturn with
  | other hsends _ hacked => simpa [hsends, hacked] using h
  | opening => simpa [Call.sendsOn, Event.ackedOn] using ⟨h.issued, h.released⟩
  | send _ hcounts =>
    have hroom : sends + 1 < 18446744073709551615 := by simpa [Call.sendsOn] using hroom
    have hnext := hexact.numbered.toNat_send hcounts hroom
    simpa [Call.sendsOn, Event.ackedOn] using h.send hnext _ _ _
  | @acknowledge s _ _ hcommitment =>
    have hroom : sends < 18446744073709551615 := by simpa [Call.sendsOn] using hroom
    have hle := hexact.below hroom s (by simp [hcommitment])
    simpa [Call.sendsOn, Event.ackedOn] using h.acknowledge hcommitment hle _ _
  | timeOut => simpa [Call.sendsOn, Event.ackedOn] using h.settle _ _ _

end Outbox.Settled

/-- The acknowledgements that are kept of a channel are the last ones that it got. -/
def World.Archived (cfg : Config) (id : Bytes) (w : World) : Prop :=
  (w.ledger.lane id).outbox.Exact cfg (w.chronicle.sendCount id) ∧
    (w.chronicle.sendCount id < 18446744073709551615 →
      (w.ledger.lane id).outbox.Settled (w.chronicle.sendCount id)
        ((w.chronicle.answers id).map Prod.fst) ∧
      (w.ledger.lane id).archive.Keeps cfg.pendingLimit (w.chronicle.answers id))

theorem kept_archived (cfg : Config) (id : Bytes) :
    Kept cfg (fun _ => True) (World.Archived cfg id) where
  host _ h := h
  height _ h := h
  deliver _ h := h
  call {w origin call l e} hheight h heffect := by
    obtain ⟨hexact, hrest⟩ := h
    refine ⟨(kept_exact cfg id).call hheight hexact heffect, fun hroom => ?_⟩
    rw [World.sendCount_book] at hroom ⊢
    obtain ⟨hsettled, hkeeps⟩ := hrest (by omega)
    have hturn := hsettled.turn hexact (heffect.outbox_turn id) hroom
    have harchive := heffect.archive_eq id
    have hfst := heffect.fst_answerOn id
    rw [World.answers_book, heffect.height_eq, World.book, List.map_append]
    rw [← hfst] at hturn
    cases hanswer : Deed.answerOn id ⟨w.ledger.height, origin, call⟩ with
    | none =>
      rw [hanswer] at hturn harchive
      simp only [Option.map_none, Option.toList_none, List.append_nil, List.map_nil] at hturn ⊢
      rw [harchive]
      exact ⟨hturn, hkeeps⟩
    | some answer =>
      rw [hanswer] at hturn harchive
      simp only [Option.map_some, Option.toList_some, List.map_singleton] at hturn ⊢
      rw [harchive]
      refine ⟨hturn, hkeeps.add answer ?_⟩
      rw [List.map_append, List.map_singleton]
      exact hturn.issued.nodup
  receive {w} who p agent ack hheight h := by
    obtain ⟨hexact, hrest⟩ := h
    refine ⟨(kept_exact cfg id).receive who p agent ack hheight hexact, fun hroom => ?_⟩
    rw [World.sendCount_book] at hroom ⊢
    rw [World.answers_book, World.book, Reception.archive_receipted,
      Reception.outbox_receipted]
    simpa [Deed.answerOn, Call.sendsOn] using hrest hroom

theorem Reached.archived {cfg : Config} {may : World → Step → Prop} {w : World}
    (h : Reached cfg may w) (id : Bytes) : w.Archived cfg id :=
  (kept_archived cfg id).reached
    (fun _ _ => ⟨.empty cfg, fun _ => ⟨.empty, .empty cfg.pendingLimit⟩⟩)
    (fun _ _ _ _ => trivial) h

/-- As long as the numbers of a channel last, no packet is acknowledged twice, and what is kept
are the last acknowledgements that came in, as many as there is room for: the queue has their
numbers, in their order and none twice, and the table has for each of these numbers, and for no
other, what the call brought and the block in which it came. -/
theorem last_acknowledgements_kept {cfg : Config} {w : World}
    (h : Reached cfg (fun _ _ => True) w) (id : Bytes)
    (hroom : w.chronicle.sendCount id < 18446744073709551615) :
    (w.ledger.lane id).retained = ((w.chronicle.answers id).map Prod.fst).rtake
        (min (w.chronicle.answers id).length cfg.pendingLimit.toNat) ∧
      (w.ledger.lane id).retained.Nodup ∧
      (∀ s, (w.ledger.lane id).acks.get s ≠ none ↔ s ∈ (w.ledger.lane id).retained) ∧
      ∀ s r, (w.ledger.lane id).acks.get s = some r ↔
        s ∈ (w.ledger.lane id).retained ∧ (s, r) ∈ w.chronicle.answers id := by
  obtain ⟨hsettled, hkeeps⟩ := (h.archived id).2 hroom
  have hnodup := hsettled.issued.nodup
  have hretained : (w.ledger.lane id).retained =
      ((w.chronicle.answers id).rtake cfg.pendingLimit.toNat).map Prod.fst := hkeeps.retained_eq
  have hlists : (w.ledger.lane id).acks.Lists
      ((w.chronicle.answers id).rtake cfg.pendingLimit.toNat) := hkeeps.lists
  have hsub : ((w.chronicle.answers id).rtake cfg.pendingLimit.toNat).Sublist
      (w.chronicle.answers id) := List.drop_sublist _ _
  rw [hretained]
  refine ⟨?_, hnodup.sublist (hsub.map Prod.fst), fun s => hlists.get_ne_none, fun s r => ?_⟩
  · rw [← rtake_map, rtake_min_length]
  · rw [hlists s r]
    constructor
    · exact fun hkept => ⟨List.mem_map_of_mem hkept, hsub.subset hkept⟩
    · rintro ⟨hs, hcame⟩
      obtain ⟨⟨s', r'⟩, hkept, rfl⟩ := List.mem_map.mp hs
      -- a number is acknowledged once, so what is kept for it is what came
      have hsame := List.inj_on_of_nodup_map hnodup (hsub.subset hkept) hcame rfl
      rwa [← hsame]

namespace Small

/-- Acknowledges a packet of the channel. -/
def acknowledging (s : Sequence) : Step :=
  .call (.signed 10) (.value (.acknowledge channel s .ok))

/-- Four packets are acknowledged, which is one more than there is room for. -/
def answered : List Step :=
  full ++ [acknowledging 2, .call (.signed 1) sending, .reach 7, acknowledging 1,
    acknowledging 3, acknowledging 4]

theorem answered_kept :
    (first.after cfg answered).chronicle.sendCount channel = 4 ∧
      (first.after cfg answered).chronicle.answers channel =
        [(2, ⟨.ok, 1⟩), (1, ⟨.ok, 7⟩), (3, ⟨.ok, 7⟩), (4, ⟨.ok, 7⟩)] ∧
      ((first.after cfg answered).ledger.lane channel).retained = [1, 3, 4] ∧
      ((first.after cfg answered).ledger.lane channel).acks.get 1 = some ⟨.ok, 7⟩ ∧
      ((first.after cfg answered).ledger.lane channel).acks.get 2 = none := by
  have hcount : (first.after cfg answered).chronicle.sendCount channel = 4 := by
    decide +kernel
  have hroom : (first.after cfg answered).chronicle.sendCount channel <
      18446744073709551615 := by
    rw [hcount]
    decide
  have hanswers : (first.after cfg answered).chronicle.answers channel =
      [(2, ⟨.ok, 1⟩), (1, ⟨.ok, 7⟩), (3, ⟨.ok, 7⟩), (4, ⟨.ok, 7⟩)] := by decide +kernel
  obtain ⟨hretained, -, hkeys, hrecords⟩ :=
    last_acknowledgements_kept (reached answered) channel hroom
  rw [hanswers] at hretained hrecords
  have hlast : ((first.after cfg answered).ledger.lane channel).retained = [1, 3, 4] := hretained
  rw [hlast] at hkeys hrecords
  refine ⟨hcount, hanswers, hlast, (hrecords 1 _).mpr (by simp), ?_⟩
  by_contra hnone
  exact absurd ((hkeys 2).mp hnone) (by decide)

end Small

end RelayLedger
