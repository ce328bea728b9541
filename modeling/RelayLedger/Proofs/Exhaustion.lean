import RelayLedger.Proofs.Authority
import RelayLedger.Proofs.Fulfilment
import RelayLedger.Proofs.Lifetime
import RelayLedger.Proofs.Numbering

/-!
The end of the numbering. The number after the last one is the last one again, and no send looks
whether its number was given out before. So a channel that has come to its last number gives this
one out to every further packet, over a commitment that may still be there.
-/
namespace RelayLedger

namespace Sequence

/-- The number that is given out after so many others, from a first one on. -/
def nth (first : Sequence) : Nat → Sequence
  | 0 => first
  | n + 1 => next (nth first n)

/-- The numbers that are given out to so many packets, from a first one on. -/
def upTo (first : Sequence) (n : Nat) : List Sequence := (List.range n).map first.nth

/-- So many packets get numbers that nothing had before: there are as many left, and the first of
them was not given out already. -/
def Lasts (first : Sequence) (issued : List Sequence) (n : Nat) : Prop :=
  first.toNat + n ≤ 18446744073709551616 ∧ (first ∈ issued → n = 0)

variable {first : Sequence} {issued : List Sequence} {n : Nat}

theorem toNat_nth (first : Sequence) (n : Nat) :
    (first.nth n).toNat = min (first.toNat + n) 18446744073709551615 := by
  induction n with
  | zero =>
    have hlt := first.toNat_lt
    rw [nth]
    omega
  | succ n ih =>
    rw [nth, toNat_next, ih]
    omega

theorem upTo_succ (first : Sequence) (n : Nat) :
    first.upTo (n + 1) = first.upTo n ++ [first.nth n] := by
  rw [upTo, List.range_succ, List.map_append, List.map_singleton, ← upTo]

/-- Past the end of the numbering the last number was given out already. -/
theorem nth_mem_upTo (h : 18446744073709551616 ≤ first.toNat + n) :
    first.nth n ∈ first.upTo n := by
  have hlt := first.toNat_lt
  refine List.mem_map.mpr ⟨n - 1, List.mem_range.mpr (by omega), ?_⟩
  rw [← UInt64.toNat_inj, toNat_nth, toNat_nth]
  omega

/-- Before the end of the numbering each number comes but once. -/
theorem nth_not_mem_upTo (h : first.toNat + n < 18446744073709551616) :
    first.nth n ∉ first.upTo n := by
  intro hmem
  obtain ⟨k, hk, heq⟩ := List.mem_map.mp hmem
  have hlt := List.mem_range.mp hk
  have hsame := congrArg UInt64.toNat heq
  rw [toNat_nth, toNat_nth] at hsame
  omega

/-- A number is new as long as the numbers last, and if it is not the first one, given out
before. -/
theorem nth_fresh_iff (hissued : ∀ s ∈ issued, s ≤ first) :
    first.nth n ∉ issued ++ first.upTo n ↔
      first.toNat + n < 18446744073709551616 ∧ (n = 0 → first ∉ issued) := by
  rw [List.mem_append, not_or]
  constructor
  · rintro ⟨hbefore, hsince⟩
    constructor
    · apply Nat.lt_of_not_le
      intro hend
      exact hsince (nth_mem_upTo hend)
    · rintro rfl
      exact hbefore
  · rintro ⟨hlast, hfirst⟩
    refine ⟨fun hmem => ?_, nth_not_mem_upTo hlast⟩
    have hle := UInt64.le_iff_toNat_le.mp (hissued _ hmem)
    rw [toNat_nth] at hle
    obtain rfl : n = 0 := by omega
    exact hfirst rfl hmem

theorem Lasts.fresh (h : first.Lasts issued (n + 1)) (hissued : ∀ s ∈ issued, s ≤ first) :
    first.nth n ∉ issued ++ first.upTo n := by
  obtain ⟨hlast, hfirst⟩ := h
  rw [nth_fresh_iff hissued]
  refine ⟨by omega, fun _ hmem => ?_⟩
  have hnone := hfirst hmem
  omega

theorem Lasts.fewer (h : first.Lasts issued (n + 1)) : first.Lasts issued n := by
  obtain ⟨hlast, hfirst⟩ := h
  refine ⟨by omega, fun hmem => ?_⟩
  have hnone := hfirst hmem
  omega

end Sequence

/-- An outbox goes on with its numbering: it gave out the numbers `issued` before, and so many
numbers from `next` on since then. -/
structure Outbox.GoesOn (next : Sequence) (issued : List Sequence) (n : Nat) (o : Outbox) :
    Prop where
  counted : o.counts.isSome = o.opened
  next_send : ∀ send ack, o.counts = some (send, ack) → send = next.nth n
  unopened : o.opened = false → n = 0 ∧ next = 1
  committed : ∀ s, o.commitments.get s ≠ none → s ∈ issued ++ next.upTo n
  pending_eq : next.Lasts issued n → o.pending.toNat = o.commitments.size

namespace Outbox.GoesOn

variable {cfg : Config} {id : Bytes} {o after : Outbox} {next : Sequence} {issued : List Sequence}
  {n : Nat}

theorem opening (h : o.GoesOn next issued n) (hnew : o.opened = false) :
    GoesOn next issued n { o with opened := true, counts := some (1, 1) } where
  counted := rfl
  next_send send ack hcounts := by
    cases hcounts
    obtain ⟨rfl, rfl⟩ := h.unopened hnew
    rfl
  unopened hclosed := by cases hclosed
  committed := h.committed
  pending_eq := h.pending_eq

/-- A number that was not given out before is not committed either. -/
theorem free (h : o.GoesOn next issued n) {s : Sequence} (hfresh : s ∉ issued ++ next.upTo n) :
    o.commitments.get s = none := by
  by_contra hsome
  exact hfresh (h.committed s hsome)

theorem send (h : o.GoesOn next issued n) (hissued : ∀ s ∈ issued, s ≤ next) {s ack : Sequence}
    {pending : UInt32} (hopened : o.opened = true) (hcounts : o.counts = some (s, ack))
    (hpending : pending.toNat = o.pending.toNat + 1) (c : Commitment) :
    GoesOn next issued (n + 1)
      { o with
        counts := some (Sequence.next s, ack)
        pending := pending
        commitments := o.commitments.set s (some c) } := by
  have hnumber := h.next_send _ _ hcounts
  constructor
  case counted => exact hopened.symm
  case next_send =>
    intro send ack' hcounts'
    cases hcounts'
    rw [Sequence.nth, hnumber]
  case unopened =>
    intro hclosed
    rw [hopened] at hclosed
    cases hclosed
  case committed =>
    intro other hother
    rw [Table.get_set] at hother
    rw [Sequence.upTo_succ, ← List.append_assoc, List.mem_append, List.mem_singleton]
    split at hother
    · next heq => exact .inr (heq.trans hnumber)
    · exact .inl (h.committed other hother)
  case pending_eq =>
    intro hlasts
    have heq := h.pending_eq hlasts.fewer
    have hfree := h.free (hlasts.fresh hissued)
    rw [← hnumber] at hfree
    have hsize := Table.size_set o.commitments s (some c)
    rw [hfree, if_pos blank_option.symm, if_neg (by simp)] at hsize
    change pending.toNat = (o.commitments.set s (some c)).size
    omega

theorem settle (h : o.GoesOn next issued n) {s : Sequence} {c : Commitment}
    (hcommitment : o.commitments.get s = some c) {counts : Option (Sequence × Sequence)}
    (hcounts : counts.map Prod.fst = o.counts.map Prod.fst) :
    GoesOn next issued n
      { o with
        counts := counts
        pending := Capacity.decrement o.pending
        commitments := o.commitments.set s none } := by
  have hsize := Outbox.Exact.size_resolved hcommitment
  constructor
  case counted =>
    rw [← h.counted]
    simpa using congrArg Option.isSome hcounts
  case next_send =>
    intro send ack hsome
    obtain ⟨ack', hbefore⟩ := Outbox.exists_send_of_fst_eq hcounts hsome
    exact h.next_send _ _ hbefore
  case unopened => exact h.unopened
  case committed =>
    intro other hother
    rw [Table.get_set] at hother
    split at hother
    · exact absurd rfl hother
    · exact h.committed other hother
  case pending_eq =>
    intro hlasts
    have heq := h.pending_eq hlasts
    change (Capacity.decrement o.pending).toNat = (o.commitments.set s none).size
    rw [Capacity.toNat_decrement]
    omega

theorem turn (h : o.GoesOn next issued n) (hissued : ∀ s ∈ issued, s ≤ next) {call : Call}
    {e : Event} (hturn : o.Turn cfg id call e after) :
    after.GoesOn next issued (n + if call.sendsOn id then 1 else 0) := by
  cases hturn with
  | other hsends => simpa [hsends] using h
  | opening hnew => simpa [Call.sendsOn] using h.opening hnew
  | send hopened hcounts hpending =>
    have hhigher := (Capacity.increment?_eq_some_iff.mp hpending).2
    simpa [Call.sendsOn] using h.send hissued hopened hcounts hhigher _
  | acknowledge hcommitment =>
    simpa [Call.sendsOn] using h.settle hcommitment (fst_afterAck o.counts)
  | timeOut hcommitment => simpa [Call.sendsOn] using h.settle hcommitment rfl

/-- The packet that a call tells of has the number that comes next. -/
theorem told (h : o.GoesOn next issued n) {call : Call} {e : Event}
    (hturn : o.Turn cfg id call e after) :
    (e.sentOn id).toList.map Packet.sequence =
      if call.sendsOn id then [next.nth n] else [] := by
  cases hturn with
  | other hsends hsent => simp [hsends, hsent]
  | send _ hcounts _ hsource =>
    simp [Call.sendsOn, Event.sentOn, hsource, h.next_send _ _ hcounts]
  | _ => rfl

end Outbox.GoesOn

/-- What is kept of the packets that a channel sends is in order: `next` is the number of the next
packet, none of the numbers `issued` before is above it, each commitment stands under one of
these, and the pending packets are counted. -/
structure World.Tallied (id : Bytes) (next : Sequence) (issued : List Sequence) (w : World) :
    Prop where
  counted : (w.ledger.lane id).sequences.isSome = (w.ledger.lane id).channel.isSome
  next_send : ∀ counts, (w.ledger.lane id).sequences = some counts → counts.send = next
  /-- A channel that is not there yet begins with the number one. -/
  unopened : (w.ledger.lane id).channel = none → next = 1
  issued_le : ∀ s ∈ issued, s ≤ next
  committed : ∀ s, (w.ledger.lane id).commitments.get s ≠ none → s ∈ issued
  pending_eq : (w.ledger.lane id).pending.toNat = (w.ledger.lane id).commitments.size

/-- In a world the channel has sent some packets beyond those `before`, and goes on with its
numbering. -/
def World.GoesOn (id : Bytes) (next : Sequence) (issued : List Sequence) (before : Nat)
    (w : World) : Prop :=
  ∃ n, w.chronicle.sendCount id = before + n ∧ (w.ledger.lane id).outbox.GoesOn next issued n

/-- A world also tells of these packets, and of the numbers that they were given. -/
def World.TellsOn (id : Bytes) (next : Sequence) (issued : List Sequence) (before : Chronicle)
    (w : World) : Prop :=
  ∃ sends, w.chronicle.sendCount id = before.sendCount id + sends.length ∧
    w.chronicle.sent id = before.sent id ++ sends ∧
    sends.map Packet.sequence = next.upTo sends.length ∧
    (w.ledger.lane id).outbox.GoesOn next issued sends.length

section

variable {cfg : Config} {w first mid after : World} {id : Bytes} {next : Sequence}
  {issued : List Sequence} {steps : List Step} {i : Nat}

theorem World.Tallied.goesOn (h : w.Tallied id next issued) :
    (w.ledger.lane id).outbox.GoesOn next issued 0 := by
  constructor
  case counted => simpa [Lane.outbox] using h.counted
  case next_send =>
    intro send ack hcounts
    obtain ⟨counts, hsequences, heq⟩ := Option.map_eq_some_iff.mp hcounts
    cases heq
    exact h.next_send counts hsequences
  case unopened =>
    intro hclosed
    exact ⟨rfl, h.unopened (by simpa [Lane.outbox] using hclosed)⟩
  case committed =>
    intro s hs
    exact List.mem_append_left _ (h.committed s hs)
  case pending_eq =>
    intro _
    exact h.pending_eq

theorem kept_goesOn (cfg : Config) (id : Bytes) (hissued : ∀ s ∈ issued, s ≤ next)
    (before : Nat) : Kept cfg (fun _ => True) (World.GoesOn id next issued before) where
  host _ h := h
  height _ h := h
  deliver _ h := h
  call {w origin call l e} _ h heffect := by
    obtain ⟨n, hcount, hbox⟩ := h
    refine ⟨_, ?_, hbox.turn hissued (heffect.outbox_turn id)⟩
    rw [World.sendCount_book, hcount, Nat.add_assoc]
  receive {w} who p agent ack _ h := by
    obtain ⟨n, hcount, hbox⟩ := h
    refine ⟨n, ?_, ?_⟩
    · rw [World.sendCount_book, hcount]
      rfl
    · rw [World.book, Reception.outbox_receipted]
      exact hbox

theorem kept_tellsOn (cfg : Config) (id : Bytes) (hissued : ∀ s ∈ issued, s ≤ next)
    (before : Chronicle) : Kept cfg (· ≠ 0) (World.TellsOn id next issued before) where
  host _ h := h
  height _ h := h
  deliver _ h := h
  call {w origin call l e} hheight h heffect := by
    obtain ⟨sends, hcount, hsent, hnumbers, hbox⟩ := h
    have hl : l.height ≠ 0 := by rwa [heffect.height_eq]
    have hturn := heffect.outbox_turn id
    have htold := hbox.told hturn
    have hmore := hbox.turn hissued hturn
    have hlength : (e.sentOn id).toList.length = if call.sendsOn id then 1 else 0 := by
      rw [← List.length_map, htold]
      split <;> rfl
    refine ⟨sends ++ (e.sentOn id).toList, ?_, ?_, ?_, ?_⟩
    · rw [World.sendCount_book, hcount, List.length_append, hlength, Nat.add_assoc]
    · rw [Chronicle.sent, World.filterMap_book _ hl, ← Chronicle.sent, hsent, List.append_assoc]
    · rw [List.map_append, htold, hnumbers, List.length_append, hlength]
      split
      · rw [Sequence.upTo_succ]
      · rw [List.append_nil, Nat.add_zero]
    · rw [List.length_append, hlength]
      exact hmore
  receive {w} who p agent ack hheight h := by
    obtain ⟨sends, hcount, hsent, hnumbers, hbox⟩ := h
    have hl : (Reception.receipted w.ledger w.ledger.height p ack).height ≠ 0 := hheight
    refine ⟨sends, ?_, ?_, hnumbers, ?_⟩
    · rw [World.sendCount_book, hcount]
      rfl
    · rw [Chronicle.sent, World.filterMap_book _ hl, ← Chronicle.sent, hsent]
      exact List.append_nil _
    · rw [World.book, Reception.outbox_receipted]
      exact hbox

/-- A send gave a number to a packet: the send counts, the channel is committed to the packet and
tells of it, and one more place is taken. -/
structure World.Gives (cfg : Config) (id : Bytes) (p : Packet) (w after : World) : Prop where
  counted : after.chronicle.sendCount id = w.chronicle.sendCount id + 1
  told : w.ledger.height ≠ 0 → after.chronicle.sent id = w.chronicle.sent id ++ [p]
  committed : (after.ledger.lane id).commitments =
    (w.ledger.lane id).commitments.set p.sequence (some (p.commitment cfg))
  pending : (after.ledger.lane id).pending.toNat = (w.ledger.lane id).pending.toNat + 1

/-- The call of a send that takes effect gives the number that comes next. -/
theorem Effect.gives {origin : Origin} {chain counterparty : Bytes} {agent : Option Bytes}
    {payload : Payload} {l : Ledger} {e : Event}
    (h : Effect cfg w origin (.send id chain counterparty agent payload) l e)
    (lines : List LogLine) :
    ∃ p ack, (w.ledger.lane id).outbox.counts = some (p.sequence, ack) ∧
      w.Gives cfg id p { w.book origin (.send id chain counterparty agent payload) l e with
        host.log := lines } := by
  have hturn := h.outbox_turn id
  generalize hafter : (l.lane id).outbox = after at hturn
  cases hturn with
  | other hsends => exact absurd rfl (of_decide_eq_false hsends)
  | send _ hcounts hpending hsource =>
    refine ⟨_, _, hcounts, ?_, ?_, ?_, ?_⟩
    · exact (w.sendCount_book ..).trans (congrArg _ (if_pos (decide_eq_true rfl)))
    · intro hheight
      have hl : l.height ≠ 0 := by rwa [h.height_eq]
      rw [Chronicle.sent, World.filterMap_book _ hl, ← Chronicle.sent, Event.sentOn,
        if_pos hsource]
      rfl
    · exact congrArg Outbox.commitments hafter
    · have hhigher := congrArg (UInt32.toNat ·.pending) hafter
      exact hhigher.trans (Capacity.increment?_eq_some_iff.mp hpending).2

/-- A send that passes its checks has its effect where a place is left. -/
theorem Outbound.Sendable.effect {who : Account} {chain counterparty : Bytes}
    {agent : Option Bytes} {payload : Payload}
    (h : Outbound.Sendable cfg w.ledger id chain counterparty agent payload)
    (hplace : (w.ledger.lane id).pending < cfg.pendingLimit) {counts : Sequences}
    (hcounts : (w.ledger.lane id).sequences = some counts) :
    ∃ l e, Effect cfg w (.signed who) (.send id chain counterparty agent payload) l e := by
  obtain ⟨channel, hchannel, hopened, hroute⟩ := h.routed
  have hpending : Capacity.increment? cfg.pendingLimit (w.ledger.lane id).pending =
      some ((w.ledger.lane id).pending + 1) := if_neg (UInt32.not_le.mpr hplace)
  exact ⟨_, _, .send h.id_fits h.chain_fits h.counterparty_fits h.agent_fits hchannel hopened
    hroute h.payload_sent h.payload_fits hpending hcounts⟩

theorem Effect.sendable {origin : Origin} {chain counterparty : Bytes} {agent : Option Bytes}
    {payload : Payload} {l : Ledger} {e : Event}
    (h : Effect cfg w origin (.send id chain counterparty agent payload) l e) :
    (∃ who, origin = .signed who) ∧
      Outbound.Sendable cfg w.ledger id chain counterparty agent payload ∧
      (w.ledger.lane id).pending < cfg.pendingLimit := by
  cases h with
  | send hid hchain hcounterparty hagent hchannel hopen hroute hpayload hsize hpending =>
    exact ⟨⟨_, rfl⟩, ⟨hid, hchain, hcounterparty, hagent, ⟨_, hchannel, hopen, hroute⟩, hpayload,
      hsize⟩, (Capacity.increment?_eq_some_iff.mp hpending).1⟩

/-- A send succeeds wherever it passes its checks and a place is left, whatever its number. -/
theorem Outbox.GoesOn.send_ok_iff {n : Nat} (h : (w.ledger.lane id).outbox.GoesOn next issued n)
    {origin : Origin} {t : Submission} {chain counterparty : Bytes} {agent : Option Bytes}
    {payload : Payload}
    (hcall : t.call? cfg = some (.send id chain counterparty agent payload)) (layers : Nat) :
    ((dispatch cfg (layers + 1) origin t).run w).1 = .ok () ↔
      (∃ who, origin = .signed who) ∧
        Outbound.Sendable cfg w.ledger id chain counterparty agent payload ∧
        (w.ledger.lane id).pending < cfg.pendingLimit := by
  constructor
  · intro hok
    obtain ⟨l, e, lines, heffect, -⟩ :=
      effect_of_dispatch (Prod.ext hok rfl) hcall (by simp)
    exact heffect.sendable
  · rintro ⟨⟨who, rfl⟩, hsendable, hplace⟩
    obtain ⟨channel, hchannel, -⟩ := hsendable.routed
    have hcounted := h.counted
    simp only [Lane.outbox, Option.isSome_map, hchannel, Option.isSome_some] at hcounted
    obtain ⟨counts, hcounts⟩ := Option.isSome_iff_exists.mp hcounted
    obtain ⟨l, e, heffect⟩ := hsendable.effect hplace hcounts
    obtain ⟨lines, hrun⟩ := heffect.dispatch_eq hcall layers
    rw [hrun]

/-- From any world in which the numbering of a channel is in order, sends go on past the end of
it. Wherever a run from there comes to, the numbers given out since are those from `next` on, of
which the last is repeated without end, and a send is never refused for want of a number: it
succeeds if it passes its checks and a place is left. Its number is new, and then its commitment
takes an empty place, if and only if not all numbers from `next` on were given out, and `next`
itself was not before. The pending packets are counted as long as all numbers were new. -/
theorem last_number_given_out_again (hw : first.Tallied id next issued)
    (hmid : Within cfg first steps i mid) :
    ∃ n, mid.chronicle.sendCount id = first.chronicle.sendCount id + n ∧
      (Follows cfg Step.Dated first steps → ∃ sends, sends.length = n ∧
        mid.chronicle.sent id = first.chronicle.sent id ++ sends ∧
        sends.map Packet.sequence = next.upTo n) ∧
      (next.Lasts issued n →
        (mid.ledger.lane id).pending.toNat = (mid.ledger.lane id).commitments.size) ∧
      ∀ layers origin t chain counterparty agent payload,
        t.call? cfg = some (.send id chain counterparty agent payload) →
        (((dispatch cfg (layers + 1) origin t).run mid).1 = .ok () ↔
          (∃ who, origin = .signed who) ∧
            Outbound.Sendable cfg mid.ledger id chain counterparty agent payload ∧
            (mid.ledger.lane id).pending < cfg.pendingLimit) ∧
        ∀ after, (dispatch cfg (layers + 1) origin t).run mid = (.ok (), after) →
          ∃ p, mid.Gives cfg id p after ∧
            p.sequence.toNat = min (next.toNat + n) 18446744073709551615 ∧
            (p.sequence ∉ issued ++ next.upTo n ↔
              next.toNat + n < 18446744073709551616 ∧ (n = 0 → next ∉ issued)) ∧
            (p.sequence ∉ issued ++ next.upTo n →
              (mid.ledger.lane id).commitments.get p.sequence = none) := by
  have hkept := kept_goesOn cfg id hw.issued_le (first.chronicle.sendCount id)
  obtain ⟨n, hcount, hbox⟩ := hkept.within (Nat.zero_le i) ⟨0, rfl, hw.goesOn⟩ hmid
  refine ⟨n, hcount, ?_, hbox.pending_eq, ?_⟩
  · intro hfollows
    have hkept := kept_tellsOn cfg id hw.issued_le first.chronicle
    have hbegin : first.TellsOn id next issued first.chronicle :=
      ⟨[], rfl, (List.append_nil _).symm, rfl, hw.goesOn⟩
    obtain ⟨sends, hlength, hsent, hnumbers, -⟩ := hkept.throughout
      (fun _ _ _ hdated => hdated) hfollows (Nat.zero_le i) hbegin hmid
    obtain rfl : sends.length = n := by omega
    exact ⟨sends, rfl, hsent, hnumbers⟩
  · intro layers origin t chain counterparty agent payload hcall
    refine ⟨hbox.send_ok_iff hcall layers, ?_⟩
    intro after hok
    obtain ⟨l, e, lines, heffect, rfl⟩ := effect_of_dispatch hok hcall (by simp)
    obtain ⟨p, ack, hcounts, hgives⟩ := heffect.gives lines
    have hnumber := hbox.next_send _ _ hcounts
    refine ⟨p, hgives, ?_, ?_, hbox.free⟩
    · rw [hnumber, Sequence.toNat_nth]
    · rw [hnumber, Sequence.nth_fresh_iff hw.issued_le]

end

namespace Small

/-- A ledger whose channel has one number left to give out. -/
def lastNumber : World := recounted (first.after cfg opening) ⟨18446744073709551615, 1, 1⟩

/-- Two packets are sent, in one block and in the next. -/
def lastSends : List Step :=
  [.call (.signed 1) sending, .reach 2, .call (.signed 2) sending]

theorem lastNumber_tallied : lastNumber.Tallied channel 18446744073709551615 [] where
  counted := rfl
  next_send counts hcounts := by
    cases hcounts
    rfl
  unopened hclosed := by cases hclosed
  issued_le s hs := by cases hs
  committed s hs := absurd rfl hs
  pending_eq := rfl

theorem lastNumber_repeated :
    lastNumber.Tallied channel 18446744073709551615 [] ∧
      ∃ p, (lastNumber.stage cfg lastSends 2).Gives cfg channel p (lastNumber.after cfg lastSends) ∧
        p.sequence.toNat = 18446744073709551615 ∧
        p.sequence ∈ Sequence.upTo 18446744073709551615 1 := by
  obtain ⟨n, hcount, -, -, hsends⟩ := last_number_given_out_again lastNumber_tallied
    (.inl rfl : Within cfg lastNumber lastSends 2 (lastNumber.stage cfg lastSends 2))
  have hbefore : lastNumber.chronicle.sendCount channel = 0 := by decide +kernel
  have hthen : (lastNumber.stage cfg lastSends 2).chronicle.sendCount channel = 1 := by
    decide +kernel
  obtain rfl : n = 1 := by omega
  have hcall : sending.call? cfg = some (.send channel [1] [2] none (.raw [7])) := rfl
  obtain ⟨-, hgives⟩ := hsends 254 (.signed 2) sending _ _ _ _ hcall
  obtain ⟨p, hgiven, hnumber, hfresh, -⟩ := hgives (lastNumber.after cfg lastSends) rfl
  refine ⟨lastNumber_tallied, p, hgiven, hnumber, ?_⟩
  by_contra hnew
  exact absurd (hfresh.mp hnew).1 (by decide)

theorem number_taken_twice :
    lastNumber.Tallied channel 18446744073709551615 [] ∧
      (lastNumber.takeAll cfg lastSends).1 = [.ok (), .ok (), .ok ()] ∧
      ((lastNumber.after cfg lastSends).chronicle.sent channel).map Packet.sequence =
        [18446744073709551615, 18446744073709551615] ∧
      ((lastNumber.stage cfg lastSends 2).ledger.lane channel).commitments.get
        18446744073709551615 ≠ none ∧
      ((lastNumber.after cfg lastSends).ledger.lane channel).commitments.size = 1 ∧
      ((lastNumber.after cfg lastSends).ledger.lane channel).pending = 2 :=
  ⟨lastNumber_tallied, rfl, rfl, nofun, rfl, rfl⟩

end Small

end RelayLedger
