import RelayLedger.Proofs.LedgerPair
import RelayLedger.Proofs.Provenance

/-!
Two ledgers agree on the packets of a channel, as long as their relayers are honest: they bring
to the far ledger only packets that the near one told of, and to the near ledger only answers that
the far one gave. The packets and the answers may come late, twice or never, and everybody may
make all other calls on both ledgers.
-/
namespace RelayLedger

open Reception

namespace LedgerPair

/-- The relayers between a channel of the near ledger and one of the far ledger are honest. -/
structure Relayed (pair : LedgerPair) (moves : List Move) (a b : Bytes) : Prop where
  /-- A packet that is brought to the far ledger is one that the near ledger told of. -/
  packets : ∀ i who s p, moves[i]? = some ⟨.far, .call (.signed who) s⟩ →
    (pair.stage moves i .far).ledger.isTrusted who = true →
    s.call? (pair.cfg .far) = some (.receive p) → p.target = b →
    p ∈ (pair.stage moves i .near).chronicle.sent a
  /-- An answer that is brought to the near ledger stood in a receipt of the far ledger. -/
  answers : ∀ i who s n ack, moves[i]? = some ⟨.near, .call (.signed who) s⟩ →
    (pair.stage moves i .near).ledger.isTrusted who = true →
    s.call? (pair.cfg .near) = some (.acknowledge a n ack) →
    ∃ j r, j ≤ i ∧ (pair.stage moves j .far).ledger.receipt b n = some r ∧ r.ack = ack

variable {pair : LedgerPair} {moves : List Move} {a b : Bytes} {i j n : Nat} {side : Side}
  {p q : Packet} {s : Sequence} {r : Receipt}

/-! What either side began with. -/

theorem deeds_first (pair : LedgerPair) (side : Side) :
    (pair.first side).chronicle.deeds = [] := by
  obtain ⟨relayers, host, hfirst⟩ := pair.begun side
  obtain ⟨known, hworld⟩ := World.genesis_ok hfirst
  rw [hworld]
  rfl

theorem receipt_first (pair : LedgerPair) (side : Side) (id : Bytes) (s : Sequence) :
    (pair.first side).ledger.receipt id s = none := by
  obtain ⟨relayers, host, hfirst⟩ := pair.begun side
  obtain ⟨known, hworld⟩ := World.genesis_ok hfirst
  rw [hworld]
  rfl

theorem sent_mono (hij : i ≤ j) (hp : p ∈ (pair.stage moves i side).chronicle.sent a) :
    p ∈ (pair.stage moves j side).chronicle.sent a := by
  obtain ⟨steps, hafter⟩ := pair.exists_stage_after moves side hij
  rw [hafter]
  exact World.sent_after _ _ steps hp

/-! What the calls that took effect say of the other ledger. -/

/-- A packet that the far channel received is one that the near ledger told of before. -/
theorem Relayed.sent_of_received (hrelayed : pair.Relayed moves a b)
    (h : pair.Effective moves i .far (.receive p)) (htarget : p.target = b) :
    p ∈ (pair.stage moves i .near).chronicle.sent a := by
  obtain ⟨origin, sub, hi, hcall, hok⟩ := h
  obtain ⟨call, mid, hcall', hperform, -⟩ := take_call_ok_iff.mp (Prod.ext hok rfl)
  obtain rfl : call = .receive p := Option.some.inj (hcall'.symm.trans hcall)
  obtain ⟨who, channel, rfl, hadmitted⟩ := admitted_of_receive_ok hperform
  exact hrelayed.packets i who sub p hi hadmitted.trusted hcall htarget

/-- An acknowledgement that took effect on the near channel is the answer of a receipt. -/
theorem Relayed.answer_of_acknowledged {ack : Acknowledgement} (hrelayed : pair.Relayed moves a b)
    (h : pair.Effective moves i .near (.acknowledge a s ack)) :
    ∃ j r, j ≤ i ∧ (pair.stage moves j .far).ledger.receipt b s = some r ∧ r.ack = ack := by
  obtain ⟨origin, sub, hi, hcall, hok⟩ := h
  obtain ⟨call, mid, hcall', hperform, -⟩ := take_call_ok_iff.mp (Prod.ext hok rfl)
  obtain rfl : call = .acknowledge a s ack := Option.some.inj (hcall'.symm.trans hcall)
  obtain ⟨l, e, lines, heffect, -⟩ := Inversion.caused_of_ok (by simp) hperform
  cases heffect with
  | acknowledge htrusted => exact hrelayed.answers i _ sub s ack hi htrusted hcall

/-! What a quiet run of one side says in the common history. -/

section

variable (h : pair.Follows moves fun w step => step.Onward w ∧ step.Quiet w)
include h

theorem Follows.effective_of_deed {d : Deed}
    (hd : d ∈ (pair.stage moves n side).chronicle.deeds) :
    ∃ i, i < n ∧ pair.Effective moves i side d.call := by
  rw [stage_eq] at hd
  obtain ⟨k, hk, heffective⟩ := RelayLedger.effective_of_deed
    ((h side).mono fun _ _ hmay => hmay.2) (pair.deeds_first side) hd
  obtain ⟨i, hi, rfl⟩ := exists_effective heffective
  exact ⟨i, Side.lt_of_clock_lt hk, hi⟩

theorem Follows.receipt_received {id : Bytes}
    (hr : (pair.stage moves n side).ledger.receipt id s = some r) :
    ∃ i p, i < n ∧ pair.Effective moves i side (.receive p) ∧ p.target = id ∧ p.sequence = s ∧
      r.timeout = p.timeout ∧ r.receivedAt < p.timeout ∧
      (pair.stage moves (i + 1) side).ledger.receipt id s = some r := by
  rw [stage_eq] at hr
  obtain ⟨k, p, hk, heffective, htarget, hsequence, htimeout, hearly, hwritten⟩ :=
    RelayLedger.receipt_received ((h side).mono fun _ _ hmay => hmay.2)
      (pair.receipt_first side id s) hr
  obtain ⟨i, hi, rfl⟩ := exists_effective heffective
  refine ⟨i, p, Side.lt_of_clock_lt hk, hi, htarget, hsequence, htimeout, hearly, ?_⟩
  obtain ⟨_, _, hmove, _⟩ := hi
  rw [stage_eq, Side.clock_succ hmove]
  exact hwritten

/-- No packet is received with two moves of one side. -/
theorem Follows.received_once (hi : pair.Effective moves i side (.receive p))
    (hj : pair.Effective moves j side (.receive p)) : i = j := by
  obtain ⟨_, _, hmove, _⟩ := id hi
  obtain ⟨_, _, hmove', _⟩ := id hj
  rcases Nat.lt_trichotomy i j with hlt | heq | hgt
  · exact absurd hj.of_pair (not_received_later (h side) (Side.clock_lt hmove hlt) hi.of_pair)
  · exact heq
  · exact absurd hi.of_pair (not_received_later (h side) (Side.clock_lt hmove' hgt) hj.of_pair)

end

/-! What the two ledgers have in common after so many moves. -/

section

variable (h : pair.Follows moves fun w step => step.Onward w ∧ step.Quiet w)
  (hrelayed : pair.Relayed moves a b)
  (hroom : (pair.stage moves n .near).chronicle.sendCount a < 18446744073709551615)
include h hrelayed hroom

/-- Packets that the far channel received under one number came with one move. -/
theorem Relayed.receives_once (hin : i < n) (hjn : j < n)
    (hi : pair.Effective moves i .far (.receive p))
    (hj : pair.Effective moves j .far (.receive q)) (hp : p.target = b) (hq : q.target = b)
    (hsequence : p.sequence = q.sequence) : i = j := by
  have hsent := sent_mono (Nat.le_of_lt hin) (hrelayed.sent_of_received hi hp)
  have hsent' := sent_mono (Nat.le_of_lt hjn) (hrelayed.sent_of_received hj hq)
  obtain rfl : p = q := (h.reached n .near).sent_unique hroom hsent hsent' hsequence
  exact h.received_once hi hj

/-- A receipt of the far channel has the timeout of the one packet that was sent under its
number. -/
theorem Relayed.receipt_of_sent
    (hr : (pair.stage moves n .far).ledger.receipt b s = some r) :
    ∃ p ∈ (pair.stage moves n .near).chronicle.sent a, p.sequence = s ∧
      (∀ q ∈ (pair.stage moves n .near).chronicle.sent a, q.sequence = s → q = p) ∧
      r.timeout = p.timeout ∧ r.receivedAt < p.timeout := by
  obtain ⟨i, p, hin, hi, htarget, hsequence, htimeout, hearly, -⟩ := h.receipt_received hr
  have hsent := sent_mono (Nat.le_of_lt hin) (hrelayed.sent_of_received hi htarget)
  refine ⟨p, hsent, hsequence, fun q hq hsame => ?_, htimeout, hearly⟩
  exact (h.reached n .near).sent_unique hroom hq hsent (hsame.trans hsequence.symm)

/-- What is recorded of an acknowledgement on the near channel is the answer that the far channel
gave when it received the packet. -/
theorem Relayed.answer_of_kept {kept : AckRecord}
    (hkept : ((pair.stage moves n .near).ledger.lane a).acks.get s = some kept) :
    ∃ i p r, i < n ∧ pair.Effective moves i .far (.receive p) ∧ p.target = b ∧
      p.sequence = s ∧ (pair.stage moves (i + 1) .far).ledger.receipt b s = some r ∧
      kept.ack = r.ack := by
  obtain ⟨-, hkeeps⟩ := ((h.reached n .near).archived a).2 hroom
  have hmem : (s, kept) ∈ (pair.stage moves n .near).chronicle.answers a :=
    (List.drop_sublist _ _).subset ((hkeeps.lists s kept).mp hkept)
  obtain ⟨d, hd, hanswer⟩ := List.mem_filterMap.mp hmem
  have hcall := Deed.call_of_answerOn hanswer
  obtain ⟨i, hin, hi⟩ := h.effective_of_deed hd
  rw [hcall] at hi
  obtain ⟨j, r, hji, hr, hack⟩ := hrelayed.answer_of_acknowledged hi
  obtain ⟨k, p, hkj, hk, htarget, hsequence, -, -, hwritten⟩ := h.receipt_received hr
  exact ⟨k, p, r, by omega, hk, htarget, hsequence, hwritten, hack.symm⟩

/-- The far channel expects no number after the one that the near channel gives out next. -/
theorem Relayed.recv_le_send {near far : Sequences}
    (hnear : ((pair.stage moves n .near).ledger.lane a).sequences = some near)
    (hfar : ((pair.stage moves n .far).ledger.lane b).sequences = some far) :
    far.recv ≤ near.send := by
  obtain ⟨hexact, hissued⟩ := (h.reached n .near).numbers a
  have hnext := hexact.numbered.next_send near.send near.ack (by simp [Lane.outbox, hnear])
  rw [UInt64.le_iff_toNat_le]
  have hexpected : ((pair.stage moves n .far).ledger.lane b).expected = some far.recv := by
    rw [Lane.expected, hfar, Option.map_some]
  rcases (h.reached n .far).expects b _ hexpected with hone | ⟨d, hd, p, hcall, htarget, hp⟩
  · rw [hone, UInt64.toNat_one]
    omega
  · obtain ⟨i, hin, hi⟩ := h.effective_of_deed hd
    rw [hcall] at hi
    have hsent := sent_mono (Nat.le_of_lt hin) (hrelayed.sent_of_received hi htarget)
    have hle := (hissued hroom).le p.sequence (List.mem_map_of_mem hsent)
    rw [hp, Sequence.toNat_next]
    omega

end

end LedgerPair

/-- While relayers are honest and the numbers of the near channel last, the two ledgers agree after
any number of moves. The far channel has received each number once at most. Each of its receipts
has the timeout of the one packet that the near channel sent under its number, and was written
before this timeout. Each acknowledgement that the near channel keeps is the answer that the far
one wrote down when it received the packet. And the far channel expects no number beyond the next
one of the near channel. -/
theorem ledgers_agree {pair : LedgerPair} {moves : List Move} {a b : Bytes}
    (h : pair.Follows moves fun w step => step.Onward w ∧ step.Quiet w)
    (hrelayed : pair.Relayed moves a b) (n : Nat)
    (hroom : (pair.stage moves n .near).chronicle.sendCount a < 18446744073709551615) :
    (∀ i j p q, i < n → j < n → pair.Effective moves i .far (.receive p) →
      pair.Effective moves j .far (.receive q) → p.target = b → q.target = b →
      p.sequence = q.sequence → i = j) ∧
    (∀ s r, (pair.stage moves n .far).ledger.receipt b s = some r →
      ∃ p ∈ (pair.stage moves n .near).chronicle.sent a, p.sequence = s ∧
        (∀ q ∈ (pair.stage moves n .near).chronicle.sent a, q.sequence = s → q = p) ∧
        r.timeout = p.timeout ∧ r.receivedAt < p.timeout) ∧
    (∀ s kept, ((pair.stage moves n .near).ledger.lane a).acks.get s = some kept →
      ∃ i p r, i < n ∧ pair.Effective moves i .far (.receive p) ∧ p.target = b ∧
        p.sequence = s ∧ (pair.stage moves (i + 1) .far).ledger.receipt b s = some r ∧
        kept.ack = r.ack) ∧
    ∀ near far, ((pair.stage moves n .near).ledger.lane a).sequences = some near →
      ((pair.stage moves n .far).ledger.lane b).sequences = some far → far.recv ≤ near.send :=
  ⟨fun _ _ _ _ => hrelayed.receives_once h hroom, fun _ _ => hrelayed.receipt_of_sent h hroom,
    fun _ _ => hrelayed.answer_of_kept h hroom, fun _ _ => hrelayed.recv_le_send h hroom⟩

namespace Small

open LedgerPair

/-- The packet of the near ledger is brought to the far one, its answer comes back, and then the
packet comes a second time. -/
def roundTrip : List Move :=
  meeting ++ [⟨.far, .call (.signed 10) (.value (.receive crossing))⟩,
    ⟨.near, .call (.signed 10) (.value (.acknowledge channel 1 .ok))⟩,
    ⟨.far, .call (.signed 10) (.value (.receive crossing))⟩]

theorem roundTrip_follows :
    twins.Follows roundTrip fun w step => step.Onward w ∧ step.Quiet w := by
  have hfresh : (fun _ => .accepting) =
      fun _ : Topic => (⟨Application.accepting.plan, 0⟩ : Application) := rfl
  have hquiet {w : World} (hhost : w.host.applications = some fun _ => .accepting) :
      w.host.Quiet := quiet_of_accepting _ (hhost.trans (congrArg some hfresh))
  intro side
  cases side with
  | near =>
    exact ⟨⟨show (0 : Height) ≤ 1 by decide, trivial⟩, ⟨trivial, hquiet rfl⟩,
      ⟨trivial, hquiet rfl⟩, ⟨trivial, hquiet rfl⟩, ⟨trivial, hquiet rfl⟩, trivial⟩
  | far =>
    refine ⟨⟨show (0 : Height) ≤ 1 by decide, trivial⟩, ⟨trivial, hquiet rfl⟩,
      ⟨trivial, hquiet rfl⟩, ⟨trivial, hquiet rfl⟩,
      ⟨trivial, quiet_of_accepting (fun topic => if topic = .raw then 1 else 0)
        (congrArg some (funext fun topic => ?_))⟩, trivial⟩
    cases topic <;> rfl

/-- The signed calls that the far ledger gets in the round trip. -/
theorem roundTrip_far {i : Nat} {who : Account} {s : Submission}
    (h : roundTrip[i]? = some ⟨.far, .call (.signed who) s⟩) :
    s = .value (.confirmOpen channel) ∨ 7 ≤ i ∧ s = .value (.receive crossing) := by
  rcases i with _ | _ | _ | _ | _ | _ | _ | _ | _ | _ | i <;>
    simp_all [roundTrip, meeting, eq_comm]

/-- The signed calls that the near ledger gets in the round trip. -/
theorem roundTrip_near {i : Nat} {who : Account} {s : Submission}
    (h : roundTrip[i]? = some ⟨.near, .call (.signed who) s⟩) :
    s = .value (.confirmOpen channel) ∨
      s = .value (.send channel [1] channel none (.raw [7])) ∨
      i = 8 ∧ s = .value (.acknowledge channel 1 .ok) := by
  rcases i with _ | _ | _ | _ | _ | _ | _ | _ | _ | _ | i <;>
    simp_all [roundTrip, meeting, eq_comm]

theorem roundTrip_relayed : twins.Relayed roundTrip channel channel where
  packets := by
    intro i who s p hi _ hcall _
    have hsent : crossing ∈ (twins.stage roundTrip 7 .near).chronicle.sent channel := by
      decide +kernel
    rcases roundTrip_far hi with rfl | ⟨hle, rfl⟩
    · have hother : some (.confirmOpen channel) = some (Call.receive p) := hcall
      cases hother
    · have hpacket : some (.receive crossing) = some (Call.receive p) := hcall
      cases hpacket
      exact sent_mono hle hsent
  answers := by
    intro i who s number ack hi _ hcall
    have hreceipt : (twins.stage roundTrip 8 .far).ledger.receipt channel 1 =
        some ⟨1, 101, .ok⟩ := rfl
    rcases roundTrip_near hi with rfl | rfl | ⟨rfl, rfl⟩
    · have hother : some (.confirmOpen channel) =
        some (Call.acknowledge channel number ack) := hcall
      cases hother
    · have hother : some (.send channel [1] channel none (.raw [7])) =
        some (Call.acknowledge channel number ack) := hcall
      cases hother
    · have hanswer : some (.acknowledge channel 1 .ok) =
        some (Call.acknowledge channel number ack) := hcall
      cases hanswer
      exact ⟨8, _, Nat.le_refl 8, hreceipt, rfl⟩

theorem roundTrip_agrees :
    twins.Relayed roundTrip channel channel ∧
      twins.Effective roundTrip 7 .far (.receive crossing) ∧
      twins.Effective roundTrip 8 .near (.acknowledge channel 1 .ok) ∧
      ¬twins.Effective roundTrip 9 .far (.receive crossing) ∧
      (∃ p ∈ (twins.stage roundTrip 10 .near).chronicle.sent channel, p.sequence = 1 ∧
        p.timeout = 101) ∧
      ∃ i p r, i < 10 ∧ twins.Effective roundTrip i .far (.receive p) ∧ p.sequence = 1 ∧
        (twins.stage roundTrip (i + 1) .far).ledger.receipt channel 1 = some r ∧
        r.ack = .ok := by
  have hcount : (twins.stage roundTrip 10 .near).chronicle.sendCount channel = 1 := rfl
  have hroom : (twins.stage roundTrip 10 .near).chronicle.sendCount channel <
      18446744073709551615 := by
    rw [hcount]
    decide
  obtain ⟨honce, hreceipts, hanswers, -⟩ :=
    ledgers_agree roundTrip_follows roundTrip_relayed 10 hroom
  have hreceived : twins.Effective roundTrip 7 .far (.receive crossing) :=
    ⟨_, _, rfl, rfl, rfl⟩
  have hreceipt : (twins.stage roundTrip 10 .far).ledger.receipt channel 1 =
      some ⟨1, 101, .ok⟩ := rfl
  have hkept : ((twins.stage roundTrip 10 .near).ledger.lane channel).acks.get 1 =
      some ⟨.ok, 1⟩ := rfl
  refine ⟨roundTrip_relayed, hreceived, ⟨_, _, rfl, rfl, rfl⟩, fun hagain => ?_, ?_, ?_⟩
  · exact absurd (honce 7 9 _ _ (by decide) (by decide) hreceived hagain rfl rfl rfl) (by decide)
  · obtain ⟨p, hp, hsequence, -, htimeout, -⟩ := hreceipts 1 _ hreceipt
    exact ⟨p, hp, hsequence, htimeout.symm⟩
  · obtain ⟨i, p, r, hi, heffective, -, hsequence, hwritten, hack⟩ := hanswers 1 _ hkept
    exact ⟨i, p, r, hi, heffective, hsequence, hwritten, hack.symm⟩

end Small

end RelayLedger
