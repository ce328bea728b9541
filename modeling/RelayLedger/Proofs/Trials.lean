import Mathlib.Data.List.Nodup
import RelayLedger.Benchmark
import RelayLedger.Proofs.Answers
import RelayLedger.Proofs.Passage

/-!
Measured runs, step by step. A step goes through from a world if it comes to an end there, and
what it gives and leaves is said with it, so a run is followed through its steps in their order.
Here are the steps that several runs have in common: the relayer, the loop that is opened, and the
packets that are sent on it and settled.
-/
namespace RelayLedger

namespace Trial

variable {α β : Type} {w : World} {x : Trial α} {Q : α → World → Prop}

def run (x : Trial α) (w : World) : Except Halt α × World := StateT.run (ExceptT.run x) w

theorem run_bind (x : Trial α) (f : α → Trial β) (w : World) :
    (x >>= f).run w =
      match x.run w with
      | (.ok a, after) => (f a).run after
      | (.error halt, after) => (.error halt, after) := by
  change StateT.run (ExceptT.run (x >>= f)) w = _
  simp only [ExceptT.run_bind, StateT.run_bind, Trial.run]
  rcases StateT.run (ExceptT.run x) w with ⟨_ | _, after⟩ <;> rfl

theorem run_ofRelay {act : Relay α} {a : α} {after : World} (hrun : act.run w = (.ok a, after)) :
    (ofRelay act).run w = (.ok a, after) := by
  simp only [ofRelay, Trial.run, ExceptT.run_mk, StateT.run, hrun]

/-- From a world a step goes through, and what it gives and leaves has a property. -/
def Through (x : Trial α) (w : World) (Q : α → World → Prop) : Prop :=
  ∃ a after, x.run w = (.ok a, after) ∧ Q a after

namespace Through

theorem pure {a : α} (h : Q a w) : (Pure.pure a : Trial α).Through w Q := ⟨a, w, rfl, h⟩

theorem bind {R : β → World → Prop} {y : Trial β} {f : β → Trial α} (h : y.Through w R)
    (hnext : ∀ b mid, R b mid → (f b).Through mid Q) : (y >>= f).Through w Q := by
  obtain ⟨b, mid, hrun, hR⟩ := h
  obtain ⟨a, after, hlast, hQ⟩ := hnext b mid hR
  refine ⟨a, after, ?_, hQ⟩
  rw [run_bind, hrun]
  exact hlast

theorem mono {R : α → World → Prop} (h : x.Through w R) (hRQ : ∀ a after, R a after → Q a after) :
    x.Through w Q := by
  obtain ⟨a, after, hrun, hR⟩ := h
  exact ⟨a, after, hrun, hRQ a after hR⟩

theorem ofRelay {act : Relay α} {a : α} {after : World} (hrun : act.run w = (.ok a, after))
    (h : Q a after) : (Trial.ofRelay act).Through w Q := ⟨a, after, run_ofRelay hrun, h⟩

theorem ofRelay_bind {act : Relay β} {b : β} {mid : World} {f : β → Trial α}
    (hrun : act.run w = (.ok b, mid)) (h : (f b).Through mid Q) :
    (Trial.ofRelay act >>= f).Through w Q := by
  obtain ⟨a, after, hlast, hQ⟩ := h
  refine ⟨a, after, ?_, hQ⟩
  rw [run_bind, run_ofRelay hrun]
  exact hlast

theorem expect {o : Option α} {a : α} (ho : o = some a) (message : String) (h : Q a w) :
    (Trial.expect o message).Through w Q := by
  rw [ho]
  exact .pure h

theorem confirm {holds : Bool} (hholds : holds = true) (what : String) :
    (Trial.confirm holds what).Through w fun _ after => after = w := by
  rw [hholds]
  exact .pure rfl

theorem agree [DecidableEq α] {found wanted : α} (heq : found = wanted) (shown : α → String) :
    (Trial.agree found wanted shown).Through w fun _ after => after = w := by
  rw [Trial.agree, if_pos heq]
  exact .pure rfl

theorem setHeight (height : Height) :
    (Trial.setHeight height).Through w fun _ after =>
      after = { w with ledger.height := height } :=
  ⟨(), _, rfl, rfl⟩

end Through

@[simp] theorem through_ledger_bind (f : Ledger → Trial α) :
    (ledger >>= f).Through w Q ↔ (f w.ledger).Through w Q := Iff.rfl

end Trial

open Trial Fulfilment

/-- What a step leaves of the ledger, whatever it tells and logs. -/
theorem exists_left {w : World} {act : Relay Unit} {l : Ledger} {told : Chronicle}
    (h : ∃ lines, act.run w = (.ok (), ⟨l, told, { w.host with log := lines }⟩)) :
    ∃ after, act.run w = (.ok (), after) ∧ after.ledger = l := by
  obtain ⟨lines, hrun⟩ := h
  exact ⟨_, hrun, rfl⟩

namespace Layout

theorem length_writeWord (k n : Nat) : (writeWord k n).length = k := by
  induction k generalizing n with
  | zero => rfl
  | succ k ih => exact congrArg (· + 1) (ih _)

theorem length_write_length (n : Nat) : (Layout.length.write n).length = lengthSize n := by
  simp only [Layout.length, lengthSize]
  split
  · exact length_writeWord ..
  · split
    · exact length_writeWord ..
    · split
      · exact length_writeWord ..
      · rw [List.length_cons, length_writeWord]

end Layout

theorem Payload.size_raw (cfg : Config) (data : Bytes) :
    (Payload.raw data).size cfg = 1 + Layout.lengthSize data.length + data.length := by
  change (0 :: (Layout.length.write data.length ++ data)).length = _
  rw [List.length_cons, List.length_append, Layout.length_write_length]
  omega

/-- A lane on which a packet was sent and acknowledged, but for the answer that is to be kept. -/
def Lane.passed (l : Lane) (counts : Sequences) (c : Commitment) : Lane :=
  (({ l with pending := 1 }.commit counts c).release counts.send).countAck

namespace Benchmark

/-! The payload of a measured run keeps to its limit, where any raw payload does. -/

theorem longestRaw_le (limit n : Nat) : longestRaw limit n ≤ n := by
  induction n with
  | zero => exact Nat.le_refl 0
  | succ n ih =>
    unfold longestRaw
    split
    · exact Nat.le_refl _
    · exact Nat.le_succ_of_le ih

theorem longestRaw_fits {limit : Nat} (hlimit : 2 ≤ limit) (n : Nat) :
    1 + Layout.lengthSize (longestRaw limit n) + longestRaw limit n ≤ limit := by
  induction n with
  | zero => exact hlimit
  | succ n ih =>
    unfold longestRaw
    split
    · next hfits => exact hfits
    · exact ih

section

variable {cfg : Config}

theorem size_largestRaw (hlimit : 2 ≤ cfg.payloadLimit.toNat) :
    (largestRaw cfg).size cfg ≤ cfg.payloadLimit.toNat := by
  rw [largestRaw, Payload.size_raw, List.length_replicate]
  exact longestRaw_fits hlimit _

theorem bounded_largestRaw (cfg : Config) : (largestRaw cfg).Bounded cfg := by
  rw [largestRaw, Payload.Bounded, List.length_replicate]
  exact longestRaw_le ..

end

/-- The relayer of all runs. -/
def carrier : Account := account "relayer" 0 0

/-- A ledger on which a run can open its loop. -/
structure Site (cfg : Config) (l : Ledger) : Prop where
  fits : (Channel.idOf l.counter).fits cfg.channelIdLimit = true
  chain_fits : Bytes.fits cfg.chainIdLimit chain = true
  /-- Nothing is kept under the identifier of the next channel. -/
  fresh : l.lane (Channel.idOf l.counter) = .empty
  unlisted : Channel.idOf l.counter ∉ (l.peer chain).channels
  room : (l.peer chain).channels.length < cfg.channelLimit.toNat
  nodup : l.relayers.Nodup
  relayer : l.isTrusted carrier = true ∨ l.relayers.length < cfg.relayerLimit.toNat

/-- A loop in a state, with so many packets settled on it and none on its way. -/
structure Loop (cfg : Config) (id : Bytes) (state : ChannelState) (settled : Nat) (l : Lane) :
    Prop where
  fits : id.fits cfg.channelIdLimit = true
  channel : ∃ c, l.channel = some c ∧ c.chain = chain ∧ c.counterparty = id ∧ c.state = state
  counts : ∃ counts, l.sequences = some counts ∧ counts.send.toNat = settled + 1
  pending : l.pending = 0
  receipts : ∀ s, l.receipts.get s = none
  retained : l.retained.length = settled
  oldest : settled ≠ 0 → l.retained.head? = some 1

section

variable {cfg : Config} {w : World} {id : Bytes}

theorem Site.withRelayers {l : Ledger} (h : Site cfg l) {relayers : List Account}
    (hnodup : relayers.Nodup) (htrusted : carrier ∈ relayers) :
    Site cfg (l.withRelayers relayers) where
  fits := h.fits
  chain_fits := h.chain_fits
  fresh := h.fresh
  unlisted := h.unlisted
  room := h.room
  nodup := hnodup
  relayer := .inl (decide_eq_true htrusted)

/-- The relayer is trusted from then on, and nothing else has changed. -/
theorem through_relayer (hnodup : w.ledger.relayers.Nodup)
    (h : w.ledger.isTrusted carrier = true ∨
      w.ledger.relayers.length < cfg.relayerLimit.toNat) :
    (relayer cfg).Through w fun who after => who = carrier ∧ ∃ relayers,
      after.ledger = w.ledger.withRelayers relayers ∧ relayers.Nodup ∧ carrier ∈ relayers := by
  unfold relayer
  simp only [through_ledger_bind]
  change (if (!w.ledger.isTrusted carrier) = true then _ else _ : Trial Account).Through w _
  cases htrusted : w.ledger.isTrusted carrier with
  | true => exact .pure ⟨rfl, w.ledger.relayers, rfl, hnodup, of_decide_eq_true htrusted⟩
  | false =>
    have hnew : carrier ∉ w.ledger.relayers := of_decide_eq_false htrusted
    have hroom := h.resolve_left (by rw [htrusted]; exact Bool.false_ne_true)
    obtain ⟨after, hrun, hafter⟩ := exists_left (run_addRelayer hnew hroom)
    refine .ofRelay_bind hrun (.pure ⟨rfl, _, hafter, ?_, by simp⟩)
    rw [← List.concat_eq_append]
    exact hnodup.concat hnew

/-- A site is left as one when the relayer is seen to. -/
theorem Site.through_relayer (h : Site cfg w.ledger) :
    (Benchmark.relayer cfg).Through w fun who after => who = carrier ∧ Site cfg after.ledger ∧
      after.ledger.isTrusted carrier = true ∧ after.ledger.height = w.ledger.height := by
  refine (Benchmark.through_relayer h.nodup h.relayer).mono ?_
  rintro _ after ⟨rfl, relayers, hafter, hnodup, hcarrier⟩
  rw [hafter]
  exact ⟨rfl, h.withRelayers hnodup hcarrier, decide_eq_true hcarrier, rfl⟩

theorem Loop.enter {state next : ChannelState} {settled : Nat} {l : Lane} {c : Channel}
    (h : Loop cfg id state settled l) (hc : l.channel = some c) (now : Height) :
    Loop cfg id next settled { l with channel := some (c.enter next now) } where
  fits := h.fits
  channel := by
    obtain ⟨d, hd, hchain, hcounterparty, -⟩ := h.channel
    obtain rfl := Option.some.inj (hc.symm.trans hd)
    exact ⟨_, rfl, by rw [Channel.chain_enter, hchain],
      by rw [Channel.counterparty_enter, hcounterparty], Channel.state_enter ..⟩
  counts := h.counts
  pending := h.pending
  receipts := h.receipts
  retained := h.retained
  oldest := h.oldest

/-- The channel of a loop takes the steps of the state that it is in. -/
theorem Loop.step {state next : ChannelState} {settled : Nat} {l : Lane}
    (h : Loop cfg id state settled l) (taken : Handshake) (hstep : state.step taken = some next) :
    ∃ c, l.channel = some c ∧ c.state.step taken = some next := by
  obtain ⟨c, hc, -, -, rfl⟩ := h.channel
  exact ⟨c, hc, hstep⟩

/-- On its site the loop takes the next number. -/
theorem Site.opens (h : Site cfg w.ledger) :
    ∃ after, (Lifecycle.openChannel cfg chain (Channel.idOf w.ledger.counter)).run w =
        (.ok (Channel.idOf w.ledger.counter), after) ∧
      after.ledger = w.ledger.opened chain (Channel.idOf w.ledger.counter) ∧
      Loop cfg (Channel.idOf w.ledger.counter) .init 0
        (after.ledger.lane (Channel.idOf w.ledger.counter)) := by
  have hfree : (w.ledger.lane (Channel.idOf w.ledger.counter)).channel = none := by
    rw [h.fresh]
    rfl
  refine ⟨_, run_openChannel h.fits hfree h.unlisted h.room _, rfl, ?_⟩
  change Loop cfg _ .init 0 ((w.ledger.opened chain _).lane _)
  rw [Ledger.lane_opened, if_pos rfl, h.fresh]
  constructor
  case fits => exact h.fits
  case channel => exact ⟨_, rfl, rfl, rfl, rfl⟩
  case counts => exact ⟨_, rfl, rfl⟩
  case pending => rfl
  case receipts => exact fun _ => rfl
  case retained => rfl
  case oldest => exact fun hsome => absurd rfl hsome

theorem through_openLoop (h : Site cfg w.ledger) :
    (openLoop cfg false).Through w fun id after => Loop cfg id .init 0 (after.ledger.lane id) ∧
      after.ledger.relayers = w.ledger.relayers ∧ after.ledger.height = w.ledger.height := by
  obtain ⟨after, hrun, hafter, hloop⟩ := h.opens
  unfold openLoop
  simp only [through_ledger_bind, h.fits, h.chain_fits, Bool.not_true, Bool.false_eq_true, if_false]
  exact .ofRelay_bind hrun (.pure ⟨hloop, by rw [hafter]; rfl, by rw [hafter]; rfl⟩)

theorem through_openLoop_confirmed (h : Site cfg w.ledger) :
    (openLoop cfg true).Through w fun id after => Loop cfg id .opened 0 (after.ledger.lane id) ∧
      after.ledger.isTrusted carrier = true ∧ after.ledger.height = w.ledger.height := by
  obtain ⟨opened, hrun, hopened, hloop⟩ := h.opens
  have hrelayers : opened.ledger.relayers = w.ledger.relayers := by
    rw [hopened]
    rfl
  have hrelayer : opened.ledger.isTrusted carrier = true ∨
      opened.ledger.relayers.length < cfg.relayerLimit.toNat := by
    rw [Ledger.isTrusted, hrelayers]
    exact h.relayer
  unfold openLoop
  simp only [through_ledger_bind, h.fits, h.chain_fits, Bool.not_true, Bool.false_eq_true, if_false,
    if_true]
  refine .ofRelay_bind hrun (.bind (through_relayer (hrelayers ▸ h.nodup) hrelayer) ?_)
  rintro _ mid ⟨rfl, relayers, hmid, -, hcarrier⟩
  have htrusted : mid.ledger.isTrusted carrier = true := by
    rw [hmid]
    exact decide_eq_true hcarrier
  have hlane : ∀ id, mid.ledger.lane id = opened.ledger.lane id := by
    intro id
    rw [hmid]
    rfl
  obtain ⟨c, hc, hstep⟩ := hloop.step .confirmOpen rfl
  have hchannel := (congrArg Lane.channel (hlane _)).trans hc
  obtain ⟨after, hconfirm, hafter⟩ := exists_left (run_confirmOpen hchannel hstep carrier)
  refine .ofRelay_bind hconfirm (.pure ⟨?_, ?_, ?_⟩)
  · rw [hafter, Ledger.lane_modifyLane_self, hlane]
    exact hloop.enter hc _
  · rw [hafter]
    exact htrusted
  · rw [hafter]
    change mid.ledger.height = _
    rw [hmid]
    change opened.ledger.height = _
    rw [hopened]
    rfl

namespace Loop

variable {state : ChannelState} {settled : Nat}

theorem through_channel (h : Loop cfg id state settled (w.ledger.lane id)) :
    (Benchmark.channel id).Through w fun c after => w = after ∧
      (w.ledger.lane id).channel = some c ∧ c.chain = chain ∧ c.counterparty = id ∧
      c.state = state := by
  obtain ⟨c, hc, hrest⟩ := h.channel
  exact .expect hc _ ⟨rfl, hc, hrest⟩

/-- With nothing on its way the loop has a place for a packet. -/
theorem place {l : Lane} (h : Loop cfg id state settled l) (hpending : cfg.pendingLimit ≠ 0) :
    Capacity.increment? cfg.pendingLimit l.pending = some 1 := by
  rw [h.pending, Capacity.increment?_eq_some_iff]
  exact ⟨UInt32.pos_iff_ne_zero.mpr hpending, rfl⟩

/-- On an open loop the largest payload can be sent, under the number that is next. -/
theorem through_sendOne (h : Loop cfg id .opened settled (w.ledger.lane id))
    (hpayload : 2 ≤ cfg.payloadLimit.toNat) (hpending : cfg.pendingLimit ≠ 0) :
    (sendOne cfg id).Through w fun s after => ∃ counts c,
      (w.ledger.lane id).sequences = some counts ∧ counts.send = s ∧
      c.timeout = w.ledger.height.after cfg.timeoutBlocks ∧
      after.ledger = (w.ledger.modifyLane id fun l =>
        { l with pending := 1 }.commit counts c) ∧
      (after.ledger.lane id).commitments.get s = some c := by
  obtain ⟨counts, hcounts, -⟩ := h.counts
  unfold sendOne
  refine Through.bind h.through_channel ?_
  rintro c _ ⟨rfl, hc, -, -, hopened⟩
  refine .ofRelay (run_send hc hopened rfl (size_largestRaw hpayload) (h.place hpending)
    hcounts none)
    ⟨counts, _, hcounts, rfl, rfl, rfl, ?_⟩
  change ((w.ledger.modifyLane id _).lane id).commitments.get counts.send = _
  rw [Ledger.lane_modifyLane_self]
  exact Table.get_set_self ..

/-- A packet that was sent and acknowledged is settled, while there is room for its answer. -/
theorem settle {l : Lane} {counts : Sequences} (h : Loop cfg id state settled l)
    (hcounts : l.sequences = some counts) (hroom : settled < cfg.pendingLimit.toNat)
    (c : Commitment) (r : AckRecord) :
    Loop cfg id state (settled + 1)
      (Lane.retain cfg.pendingLimit (l.passed counts c) counts.send r) := by
  obtain ⟨before, hbefore, hsend⟩ := h.counts
  obtain rfl : before = counts := Option.some.inj (hbefore.symm.trans hcounts)
  have hlimit := cfg.pendingLimit.toNat_lt
  have hlength : l.archive.retained.length < cfg.pendingLimit.toNat := by
    change l.retained.length < _
    rw [h.retained]
    exact hroom
  have hretained : (Lane.retain cfg.pendingLimit (l.passed before c) before.send r).retained =
      l.retained ++ [before.send] := by
    have harchive := Lane.archive_retain cfg.pendingLimit (l.passed before c) before.send r
    exact (congrArg Archive.retained harchive).trans
      (congrArg Archive.retained (Archive.add_of_length_lt hlength _))
  have hfirst : (l.retained ++ [before.send]).head? = some 1 := by
    cases hold : l.retained with
    | nil =>
      have hzero : settled = 0 := by rw [← h.retained, hold]; rfl
      have hone : before.send = 1 := UInt64.toNat_inj.mp (by rw [hsend, hzero]; rfl)
      rw [hone]
      rfl
    | cons oldest rest =>
      have hsome : settled ≠ 0 := by rw [← h.retained, hold]; exact Nat.succ_ne_zero _
      rw [← h.oldest hsome, hold]
      rfl
  constructor
  case fits => exact h.fits
  case channel =>
    rw [Lane.retain_eq]
    exact h.channel
  case counts =>
    rw [Lane.retain_eq]
    refine ⟨before.afterSend.afterAck, rfl, ?_⟩
    change (Sequence.next before.send).toNat = _
    rw [Sequence.toNat_next]
    omega
  case pending =>
    rw [Lane.retain_eq]
    exact (by decide : Capacity.decrement 1 = 0)
  case receipts =>
    rw [Lane.retain_eq]
    exact h.receipts
  case retained =>
    rw [hretained, List.length_append, h.retained]
    rfl
  case oldest =>
    intro _
    rw [hretained, hfirst]

/-- Where as many answers are kept as can be, one more packet leaves neither its commitment nor the
first answer. -/
theorem evicts {l : Lane} (h : Loop cfg id state cfg.pendingLimit.toNat l)
    (hpending : cfg.pendingLimit ≠ 0) (counts : Sequences) (c : Commitment) (r : AckRecord) :
    (Lane.retain cfg.pendingLimit (l.passed counts c) counts.send r).commitments.get counts.send =
        none ∧
      (Lane.retain cfg.pendingLimit (l.passed counts c) counts.send r).acks.get 1 = none := by
  have hsome : cfg.pendingLimit.toNat ≠ 0 := (Capacity.toNat_pos hpending).ne'
  obtain ⟨rest, hretained⟩ : ∃ rest, l.retained = 1 :: rest := by
    cases hold : l.retained with
    | nil =>
      have holdest := h.oldest hsome
      rw [hold] at holdest
      cases holdest
    | cons oldest rest =>
      have holdest := h.oldest hsome
      rw [hold] at holdest
      exact ⟨rest, by rw [Option.some.inj holdest]⟩
  have harchive := Lane.archive_retain cfg.pendingLimit (l.passed counts c) counts.send r
  have hadd := Archive.add_of_length_eq (a := (l.passed counts c).archive) hpending hretained
    h.retained (counts.send, r)
  refine ⟨?_, ?_⟩
  · rw [Lane.retain_eq]
    exact Table.get_set_self ..
  · have hacks := congrArg Archive.acks (harchive.trans hadd)
    exact (congrArg (Table.get · 1) hacks).trans (Table.get_set_self ..)

/-- As many packets as answers can be kept are sent and settled one after another. -/
theorem through_settleSome {n : Nat} (h : Loop cfg id .opened settled (w.ledger.lane id))
    (hpayload : 2 ≤ cfg.payloadLimit.toNat) (hroom : settled + n ≤ cfg.pendingLimit.toNat) :
    (settleSome cfg id n).Through w fun _ after =>
      Loop cfg id .opened (settled + n) (after.ledger.lane id) ∧
      after.ledger.relayers = w.ledger.relayers ∧ after.ledger.height = w.ledger.height := by
  -- on the packets that are left, with a loop on which one more is settled each time
  induction n generalizing settled w with
  | zero => exact .pure ⟨h, rfl, rfl⟩
  | succ n ih =>
    have hlt : settled < cfg.pendingLimit.toNat := by omega
    unfold settleSome
    refine .bind (h.through_sendOne hpayload (Capacity.ne_zero_of_lt hlt)) ?_
    rintro _ mid ⟨counts, c, hcounts, rfl, -, hmid, hcommitted⟩
    obtain ⟨after, hrun, hafter⟩ := exists_left (run_acknowledge cfg hcommitted .ok)
    rw [hmid, Ledger.modifyLane_modifyLane] at hafter
    have hloop : Loop cfg id .opened (settled + 1) (after.ledger.lane id) := by
      rw [hafter, Ledger.lane_modifyLane_self]
      exact h.settle hcounts hlt c _
    refine .ofRelay_bind hrun ((ih hloop (by omega)).mono ?_)
    rintro _ last ⟨hlast, hrelayers, hheight⟩
    refine ⟨?_, ?_, ?_⟩
    · rwa [Nat.add_right_comm] at hlast
    · rw [hrelayers, hafter]
      rfl
    · rw [hheight, hafter]
      rfl

end Loop

end

end Benchmark

end RelayLedger
