import RelayLedger.Proofs.Mappings
import RelayLedger.Proofs.Membership
import RelayLedger.Proofs.Naming
import RelayLedger.Proofs.Trials

/-!
Every measured run goes through. Its preparation leaves a ledger on which the call to be measured
has its effect, and the effect is what is checked at the end. That the preparation meets nothing in
its way rests on what is true of every ledger that a run has come to: nothing is kept under the
next identifier, no relayer is listed twice, and the mapped agents are counted exactly. A call that
takes a right is made by the origin that the runtime names for it, and all that is asked of that
origin is that it has the right. Where none is named there is nothing to measure.
-/
namespace RelayLedger.Benchmark

open Trial Reception Fulfilment

/-- A call of a kind was prepared and goes through, at the first block or later, and its check
holds and changes nothing. -/
structure Measured.Goes (cfg : Config) (m : Measured) (kind : CallKind) (w : World) : Prop where
  kind_eq : m.call.kind = kind
  bounded : m.call.Bounded cfg
  begun : w.ledger.height ≠ 0
  passes : ∃ after, (submit cfg m.origin (.value m.call)).run w = (.ok (), after) ∧
    m.check.Through after fun _ last => last = after

section

variable {cfg : Config} {w : World} {id : Bytes} {n : Option UInt32}

theorem call?_value {call : Call} (h : call.Bounded cfg) :
    (Submission.value call).call? cfg = some call :=
  if_pos (Call.admits_iff.mpr h)

/-- A call goes where it has its effect, and its check is one of the ledger that it leaves. -/
theorem goes_of_effect {m : Measured} {l : Ledger} {e : Event}
    (h : Effect cfg w m.origin m.call l e) (hbounded : m.call.Bounded cfg)
    (hheight : w.ledger.height ≠ 0)
    (hcheck : ∀ after, after.ledger = l → m.check.Through after fun _ last => last = after) :
    m.Goes cfg m.call.kind w := by
  obtain ⟨lines, hrun⟩ := h.dispatch_eq (call?_value hbounded) 254
  exact ⟨rfl, hbounded, hheight, _, hrun, hcheck _ rfl⟩

theorem through_reached {c : Channel} {state : ChannelState}
    (hc : (w.ledger.lane id).channel = some c) (hstate : c.state = state) :
    (reached id state).Through w fun _ after => after = w := by
  have hchannel : (channel id).Through w fun found after => found = c ∧ after = w :=
    .expect hc _ ⟨rfl, rfl⟩
  refine Through.bind hchannel ?_
  rintro _ _ ⟨rfl, rfl⟩
  exact Through.agree hstate _

/-- Handshake steps on the loop are checked by the state that they lead to. -/
theorem goes_of_step {m : Measured} {c : Channel} {state : ChannelState} {e : Event}
    (h : Effect cfg w m.origin m.call
      (w.ledger.modifyLane id fun l =>
        { l with channel := some (c.enter state w.ledger.height) }) e)
    (hbounded : m.call.Bounded cfg) (hheight : w.ledger.height ≠ 0)
    (hcheck : m.check = reached id state) : m.Goes cfg m.call.kind w := by
  refine goes_of_effect h hbounded hheight fun after hafter => ?_
  rw [hcheck]
  refine through_reached ?_ (Channel.state_enter c state w.ledger.height)
  rw [hafter, Ledger.lane_modifyLane_self]

theorem fits_filler (limit : UInt32) : (filler limit).fits limit = true :=
  decide_eq_true (List.length_replicate ..).le

theorem next_counter {counter : UInt64} (h : counter ≠ Channel.lastNumber) :
    Sequence.next counter = counter + 1 := by
  have hlast : Channel.lastNumber.toNat = 18446744073709551615 := rfl
  have hlt := counter.toNat_lt
  rw [ne_eq, ← UInt64.toNat_inj, hlast] at h
  exact if_pos (by omega)

/-- Where an origin is named for a right, one is found that has the right, and nothing moves. -/
theorem through_privileged {right : Privilege} (htruthful : right.Truthful)
    (hnamed : right.successful ≠ none) :
    (privileged right).Through w fun origin after => w = after ∧ right.accepts origin = true := by
  obtain ⟨origin, horigin⟩ := Option.ne_none_iff_exists'.mp hnamed
  rw [privileged, horigin]
  exact .pure ⟨rfl, htruthful origin horigin⟩

theorem prepare_openChannel (hmanagers : cfg.managers.Truthful)
    (hnamed : cfg.managers.successful ≠ none) (h : Site cfg w.ledger)
    (hheight : w.ledger.height ≠ 0) (hcounter : w.ledger.counter ≠ Channel.lastNumber) :
    (prepare cfg n .openChannel).Through w fun m mid => m.Goes cfg .openChannel mid := by
  refine Through.bind (through_privileged hmanagers hnamed) ?_
  rintro origin _ ⟨rfl, hmanager⟩
  have hfiller := fits_filler cfg.channelIdLimit
  have hfree : (w.ledger.lane (Channel.idOf w.ledger.counter)).channel = none := by
    rw [h.fresh]
    rfl
  have heffect : Effect cfg w origin (.openChannel chain (filler cfg.channelIdLimit)) _ _ :=
    .openChannel hmanager h.chain_fits hfiller h.fits hfree h.unlisted h.room
  have hbounded : Call.Bounded cfg (.openChannel chain (filler cfg.channelIdLimit)) :=
    ⟨Bytes.tellable_of_fits h.chain_fits, Bytes.tellable_of_fits hfiller⟩
  have hcount : (w.ledger.opened chain (filler cfg.channelIdLimit)).counter =
      w.ledger.counter + 1 := next_counter hcounter
  refine (through_ledger_bind _).mpr (Through.pure ?_)
  refine goes_of_effect heffect hbounded hheight fun after hafter => ?_
  rw [← hafter] at hcount
  refine (through_ledger_bind _).mpr ?_
  exact Through.agree hcount _

theorem prepare_confirmOpen (h : Site cfg w.ledger) (hheight : w.ledger.height ≠ 0) :
    (prepare cfg n .confirmOpen).Through w fun m mid => m.Goes cfg .confirmOpen mid := by
  refine Through.bind h.through_relayer ?_
  rintro _ first ⟨rfl, hsite, htrusted, hfirst⟩
  refine Through.bind (through_openLoop hsite) ?_
  rintro id mid ⟨hloop, hrelayers, hsame⟩
  have htrusted : mid.ledger.isTrusted carrier = true := by
    rwa [Ledger.isTrusted, hrelayers]
  obtain ⟨c, hc, hstep⟩ := hloop.step .confirmOpen rfl
  refine Through.pure (goes_of_step (.confirmOpen htrusted hloop.fits hc hstep)
    (Bytes.tellable_of_fits hloop.fits) ?_ rfl)
  rw [hsame, hfirst]
  exact hheight

theorem prepare_startClose (hmanagers : cfg.managers.Truthful)
    (hnamed : cfg.managers.successful ≠ none) (h : Site cfg w.ledger)
    (hheight : w.ledger.height ≠ 0) :
    (prepare cfg n .startClose).Through w fun m mid => m.Goes cfg .startClose mid := by
  refine Through.bind (through_privileged hmanagers hnamed) ?_
  rintro origin _ ⟨rfl, hmanager⟩
  refine Through.bind (through_openLoop_confirmed h) ?_
  rintro id mid ⟨hloop, -, hsame⟩
  obtain ⟨c, hc, hstep⟩ := hloop.step .startClose rfl
  exact Through.pure (goes_of_step (.startClose hmanager hloop.fits hc hstep)
    (Bytes.tellable_of_fits hloop.fits) (hsame ▸ hheight) rfl)

theorem prepare_confirmClose (h : Site cfg w.ledger) (hheight : w.ledger.height ≠ 0) :
    (prepare cfg n .confirmClose).Through w fun m mid => m.Goes cfg .confirmClose mid := by
  refine Through.bind h.through_relayer ?_
  rintro _ first ⟨rfl, hsite, -, hfirst⟩
  refine Through.bind (through_openLoop_confirmed hsite) ?_
  rintro id mid ⟨hloop, htrusted, hsame⟩
  obtain ⟨c, hc, hstep⟩ := hloop.step .startClose rfl
  obtain ⟨last, hrun, hlast⟩ := exists_left (run_startClose hc hstep)
  refine .ofRelay_bind hrun (Through.pure ?_)
  have hchannel : (last.ledger.lane id).channel = some (c.enter .closing mid.ledger.height) := by
    rw [hlast, Ledger.lane_modifyLane_self]
  have htrusted : last.ledger.isTrusted carrier = true := by
    rw [hlast]
    exact htrusted
  refine goes_of_step (.confirmClose htrusted hloop.fits hchannel rfl)
    (Bytes.tellable_of_fits hloop.fits) ?_ rfl
  rw [hlast]
  change mid.ledger.height ≠ 0
  rw [hsame, hfirst]
  exact hheight

theorem through_confirm {f : Ledger → Bool} (h : f w.ledger = true) (what : String) :
    (do Trial.confirm (f (← Trial.ledger)) what).Through w fun _ after => after = w :=
  (through_ledger_bind _).mpr (Through.confirm h what)

theorem prepare_send (h : Site cfg w.ledger) (hheight : w.ledger.height ≠ 0)
    (hpayload : 2 ≤ cfg.payloadLimit.toNat) (hpending : cfg.pendingLimit ≠ 0) :
    (prepare cfg n .send).Through w fun m mid => m.Goes cfg .send mid := by
  refine Through.bind (through_openLoop_confirmed h) ?_
  rintro id mid ⟨hloop, -, hsame⟩
  refine Through.bind hloop.through_channel ?_
  rintro c _ ⟨rfl, hc, hchain, hcounterparty, hopened⟩
  obtain ⟨counts, hcounts, hsend⟩ := hloop.counts
  have hfirst : counts.send = 1 := UInt64.toNat_inj.mp hsend
  have hfiller := fits_filler cfg.agentIdLimit
  have hroute : c.chain.fits cfg.chainIdLimit = true ∧
      c.counterparty.fits cfg.channelIdLimit = true := by
    rw [hchain, hcounterparty]
    exact ⟨h.chain_fits, hloop.fits⟩
  have hagent : ∀ remote ∈ some (filler cfg.agentIdLimit),
      Bytes.fits cfg.agentIdLimit remote = true := by
    rintro _ ⟨⟩
    exact hfiller
  have heffect : Effect cfg _ (.signed caller) (.send id c.chain c.counterparty
      (some (filler cfg.agentIdLimit)) (largestRaw cfg)) _ _ :=
    .send hloop.fits hroute.1 hroute.2 hagent hc hopened ⟨rfl, rfl⟩ rfl (size_largestRaw hpayload)
      (hloop.place hpending) hcounts
  have hbounded : Call.Bounded cfg (.send id c.chain c.counterparty
      (some (filler cfg.agentIdLimit)) (largestRaw cfg)) := by
    refine ⟨Bytes.tellable_of_fits hloop.fits, Bytes.tellable_of_fits hroute.1,
      Bytes.tellable_of_fits hroute.2, ?_, bounded_largestRaw cfg⟩
    rintro _ ⟨⟩
    exact Bytes.tellable_of_fits hfiller
  refine Through.pure (goes_of_effect heffect hbounded (hsame ▸ hheight) fun after hafter => ?_)
  refine through_confirm (f := fun l => ((l.lane id).commitments.get 1).isSome) ?_ _
  rw [hafter, Ledger.lane_modifyLane_self, ← hfirst]
  exact congrArg Option.isSome (Table.get_set_self ..)

theorem prepare_receive (h : Site cfg w.ledger) (hheight : w.ledger.height ≠ 0)
    (htimeout : cfg.timeoutBlocks ≠ 0)
    (hroom : w.ledger.height.toNat + cfg.timeoutBlocks.toNat < 4294967296) :
    (prepare cfg n .receive).Through w fun m mid => m.Goes cfg .receive mid := by
  refine Through.bind h.through_relayer ?_
  rintro _ first ⟨rfl, hsite, -, hfirst⟩
  refine Through.bind (through_openLoop_confirmed hsite) ?_
  rintro id mid ⟨hloop, htrusted, hsame⟩
  have hnow : mid.ledger.height = w.ledger.height := by
    rw [hsame, hfirst]
  refine Through.bind hloop.through_channel ?_
  rintro c _ ⟨rfl, hc, hchain, hcounterparty, hopened⟩
  refine (through_ledger_bind _).mpr (Through.pure ?_)
  let p : Packet :=
    { sequence := 1, source := c.counterparty, chain := c.chain, target := id, agent := none
      payload := largestRaw cfg, timeout := mid.ledger.height + cfg.timeoutBlocks }
  have hbounded : p.Bounded cfg := by
    constructor
    case source =>
      change c.counterparty.length ≤ _
      rw [hcounterparty]
      exact Bytes.length_le_of_fits hloop.fits
    case chain =>
      change c.chain.length ≤ _
      rw [hchain]
      exact Bytes.length_le_of_fits h.chain_fits
    case target => exact Bytes.length_le_of_fits hloop.fits
    case agent => exact fun _ hnone => absurd hnone (by simp [p])
    case payload => exact bounded_largestRaw cfg
  have hearly : mid.ledger.height < mid.ledger.height + cfg.timeoutBlocks := by
    have hpos := Capacity.toNat_pos htimeout
    rw [UInt32.lt_iff_toNat_lt, UInt32.toNat_add, hnow]
    omega
  have hadmitted : Admitted mid carrier p c :=
    ⟨htrusted, hc, hopened, rfl, hloop.receipts 1, hearly⟩
  have hcall : (Submission.value (.receive p)).call? cfg = some (.receive p) :=
    call?_value hbounded
  obtain ⟨agent, ack, left, -, hrun⟩ := enter_of_admitted cfg (handlerAt cfg 254) hcall hadmitted
  rw [← submit_eq] at hrun
  refine ⟨rfl, hbounded, hnow ▸ hheight, _, hrun, ?_⟩
  refine through_confirm (f := fun l => ((l.lane id).receipts.get 1).isSome) ?_ _
  have hreceipt := receipt_receipted left.ledger mid.ledger.height p ack id 1
  rw [if_pos ⟨rfl, rfl⟩] at hreceipt
  exact congrArg Option.isSome hreceipt

/-- The answer to the last packet takes the place of that to the first one. -/
theorem prepare_acknowledge (h : Site cfg w.ledger) (hheight : w.ledger.height ≠ 0)
    (hpayload : 2 ≤ cfg.payloadLimit.toNat) (hpending : cfg.pendingLimit ≠ 0) :
    (prepare cfg n .acknowledge).Through w fun m mid => m.Goes cfg .acknowledge mid := by
  refine Through.bind h.through_relayer ?_
  rintro _ first ⟨rfl, hsite, -, hfirst⟩
  refine Through.bind (through_openLoop_confirmed hsite) ?_
  rintro id opened ⟨hopened, htrusted, hsame⟩
  -- all the room for answers is taken, by those to the packets from the first one on
  refine Through.bind (hopened.through_settleSome hpayload (Nat.zero_add _).le) ?_
  rintro _ full ⟨hfull, hrelayers, hlater⟩
  rw [Nat.zero_add] at hfull
  refine Through.bind (hfull.through_sendOne hpayload hpending) ?_
  rintro _ mid ⟨counts, c, hcounts, rfl, -, hmid, hcommitted⟩
  have hcarried : mid.ledger.isTrusted carrier = true := by
    rw [Ledger.isTrusted, hmid]
    change decide (carrier ∈ full.ledger.relayers) = true
    rw [hrelayers]
    exact htrusted
  have hnow : mid.ledger.height = w.ledger.height := by
    rw [hmid]
    change full.ledger.height = _
    rw [hlater, hsame, hfirst]
  have heffect : Effect cfg mid (.signed carrier) (.acknowledge id counts.send .ok) _ _ :=
    .acknowledge hcarried hfull.fits hcommitted
  have hbounded : Call.Bounded cfg (.acknowledge id counts.send .ok) :=
    ⟨Bytes.tellable_of_fits hfull.fits, Nat.zero_le _⟩
  refine Through.pure (goes_of_effect heffect hbounded (hnow ▸ hheight) fun after hafter => ?_)
  rw [hmid, Ledger.modifyLane_modifyLane] at hafter
  have hlane : after.ledger.lane id = Lane.retain cfg.pendingLimit
      ((full.ledger.lane id).passed counts c) counts.send ⟨.ok, mid.ledger.height⟩ := by
    rw [hafter, Ledger.lane_modifyLane_self, hmid]
    rfl
  obtain ⟨hcleared, hevicted⟩ := hfull.evicts hpending counts c ⟨.ok, mid.ledger.height⟩
  refine (through_ledger_bind _).mpr (Through.bind (Through.confirm ?_ _) ?_)
  · rw [hlane, hcleared]
    rfl
  · rintro _ _ rfl
    refine Through.confirm ?_ _
    rw [hlane, hevicted]
    rfl

theorem prepare_timeOut (h : Site cfg w.ledger) (hheight : w.ledger.height ≠ 0)
    (hpayload : 2 ≤ cfg.payloadLimit.toNat) (hpending : cfg.pendingLimit ≠ 0) :
    (prepare cfg n .timeOut).Through w fun m mid => m.Goes cfg .timeOut mid := by
  refine Through.bind (through_openLoop_confirmed h) ?_
  rintro id opened ⟨hloop, -, hsame⟩
  refine Through.bind (hloop.through_sendOne hpayload hpending) ?_
  rintro _ sent ⟨counts, c, hcounts, rfl, htimeout, -, hcommitted⟩
  -- the block number goes to that of the timeout, which is no earlier than it was
  have hlate : c.timeout ≠ 0 := by
    have hle := Height.le_after opened.ledger.height cfg.timeoutBlocks
    rw [← htimeout, hsame] at hle
    rintro hzero
    rw [hzero] at hle
    exact hheight (UInt32.le_zero_iff.mp hle)
  have hfound : (Trial.expect ((sent.ledger.lane id).commitments.get counts.send)
      "commitment missing").Through sent fun found after => c = found ∧ sent = after :=
    .expect hcommitted _ ⟨rfl, rfl⟩
  refine (through_ledger_bind _).mpr (Through.bind hfound ?_)
  rintro _ _ ⟨rfl, rfl⟩
  refine Through.bind (Through.setHeight _) ?_
  rintro _ _ rfl
  have heffect : Effect cfg { sent with ledger.height := c.timeout } (.signed caller)
      (.timeOut id counts.send) _ _ := .timeOut hloop.fits hcommitted (UInt32.le_refl _)
  refine Through.pure (goes_of_effect heffect (Bytes.tellable_of_fits hloop.fits) hlate
    fun after hafter => ?_)
  refine through_confirm (f := fun l => ((l.lane id).commitments.get counts.send).isNone) ?_ _
  rw [hafter, Ledger.lane_modifyLane_self]
  exact congrArg Option.isNone (Table.get_set_self ..)

/-- The planted receipts are those of the listed packets. -/
theorem get_planted (receipts : Table Sequence (Option Receipt)) (r : Receipt) (ids : List Nat)
    (s : Sequence) :
    (ids.foldl (fun t i => t.set (UInt64.ofNat (i + 1)) (some r)) receipts).get s =
      if s ∈ ids.map (fun i => UInt64.ofNat (i + 1)) then some r else receipts.get s := by
  induction ids generalizing receipts with
  | nil => rfl
  | cons i ids ih =>
    rw [List.foldl_cons, ih, List.map_cons, Table.get_set]
    by_cases hrest : s ∈ ids.map fun i => UInt64.ofNat (i + 1)
    · rw [if_pos hrest, if_pos (List.mem_cons_of_mem _ hrest)]
    · simp only [hrest, if_false, List.mem_cons, or_false]

/-- The numbers of the packets whose receipts are pruned. -/
def firstNumbers (count : UInt32) : List Sequence :=
  (List.range count.toNat).map fun i => UInt64.ofNat (i + 1)

theorem through_plantReceipts (id : Bytes) (now : Height) (count : UInt32) :
    (plantReceipts id now count.toNat).Through w fun _ after =>
      ∀ s ∈ firstNumbers count, (after.ledger.lane id).receipts.get s = some ⟨now, now, .ok⟩ := by
  refine ⟨(), _, rfl, fun s hs => ?_⟩
  change ((w.ledger.modifyLane id _).lane id).receipts.get s = _
  rw [Ledger.lane_modifyLane_self]
  exact (get_planted ..).trans (if_pos hs)

theorem prepare_prune (h : Site cfg w.ledger) (hheight : w.ledger.height ≠ 0)
    (hroom : w.ledger.height.toNat + cfg.retentionBlocks.toNat < 4294967296) {count : UInt32}
    (hleast : 1 ≤ count) (hmost : count ≤ cfg.pruneLimit) :
    (prepare cfg (some count) .prune).Through w fun m mid => m.Goes cfg .prune mid := by
  refine Through.bind (through_openLoop_confirmed h) ?_
  rintro id opened ⟨hloop, -, hsame⟩
  refine (through_ledger_bind _).mpr ?_
  refine Through.bind (through_plantReceipts id opened.ledger.height count) ?_
  rintro _ planted hplanted
  refine Through.bind (Through.setHeight _) ?_
  rintro _ _ rfl
  -- the run adds up the height by itself, so the sum has to fit
  have hlate : opened.ledger.height + cfg.retentionBlocks ≠ 0 := by
    have hpos := Capacity.toNat_pos hheight
    rw [ne_eq, ← UInt32.toNat_inj, hsame, UInt32.toNat_add]
    change ¬_ = 0
    omega
  have hstale : Inbound.checkStale cfg (planted.ledger.lane id).receipts
      (opened.ledger.height + cfg.retentionBlocks) (firstNumbers count) = .ok () := by
    refine Inbound.checkStale_ok_iff.mpr fun s hs => ⟨_, hplanted s hs, ?_⟩
    have hafter : opened.ledger.height.after cfg.retentionBlocks =
        opened.ledger.height + cfg.retentionBlocks := if_pos (by rwa [hsame])
    exact decide_eq_true (UInt32.le_of_eq hafter)
  have hfew : (firstNumbers count).length ≤ cfg.pruneLimit.toNat := by
    rw [firstNumbers, List.length_map, List.length_range]
    exact UInt32.le_iff_toNat_le.mp hmost
  have hlisted : 1 ∈ firstNumbers count := by
    have hpos := UInt32.le_iff_toNat_le.mp hleast
    exact List.mem_map.mpr ⟨0, List.mem_range.mpr hpos, rfl⟩
  have heffect : Effect cfg
      { planted with ledger.height := opened.ledger.height + cfg.retentionBlocks }
      (.signed caller) (.prune id (firstNumbers count)) _ _ := .prune hloop.fits hstale
  have hbatch : ¬cfg.pruneLimit < count := UInt32.not_lt.mpr hmost
  simp only [hbatch, if_false]
  refine Through.pure (goes_of_effect heffect ⟨Bytes.tellable_of_fits hloop.fits, hfew⟩ hlate
    fun after hafter => ?_)
  refine through_confirm (f := fun l => ((l.lane id).receipts.get 1).isNone) ?_ _
  rw [hafter, Ledger.lane_modifyLane_self]
  exact congrArg Option.isNone ((Inbound.get_dropReceipts ..).trans (if_pos hlisted))

theorem prepare_addRelayer (hmanagers : cfg.managers.Truthful)
    (hnamed : cfg.managers.successful ≠ none) (hheight : w.ledger.height ≠ 0)
    (hnew : account "relayer" 1 0 ∉ w.ledger.relayers)
    (hroom : w.ledger.relayers.length < cfg.relayerLimit.toNat) :
    (prepare cfg n .addRelayer).Through w fun m mid => m.Goes cfg .addRelayer mid := by
  refine Through.bind (through_privileged hmanagers hnamed) ?_
  rintro origin _ ⟨rfl, hmanager⟩
  have heffect : Effect cfg w origin (.addRelayer (account "relayer" 1 0)) _ _ :=
    .addRelayer hmanager hnew hroom
  refine Through.pure (goes_of_effect heffect trivial hheight fun after hafter => ?_)
  refine through_confirm (f := fun l => l.isTrusted (account "relayer" 1 0)) ?_ _
  rw [hafter]
  exact decide_eq_true (List.mem_append_right _ List.mem_cons_self)

theorem prepare_removeRelayer (hmanagers : cfg.managers.Truthful)
    (hnamed : cfg.managers.successful ≠ none) (h : Site cfg w.ledger)
    (hheight : w.ledger.height ≠ 0) :
    (prepare cfg n .removeRelayer).Through w fun m mid => m.Goes cfg .removeRelayer mid := by
  refine Through.bind (through_privileged hmanagers hnamed) ?_
  rintro origin _ ⟨rfl, hmanager⟩
  refine Through.bind (through_relayer h.nodup h.relayer) ?_
  rintro _ mid ⟨rfl, relayers, hmid, hnodup, hcarrier⟩
  have hmember : carrier ∈ mid.ledger.relayers := by
    rw [hmid]
    exact hcarrier
  have heffect : Effect cfg mid origin (.removeRelayer carrier) _ _ :=
    .removeRelayer hmanager hmember
  have hnow : mid.ledger.height = w.ledger.height := by
    rw [hmid]
    rfl
  refine Through.pure (goes_of_effect heffect trivial (hnow ▸ hheight) fun after hafter => ?_)
  refine through_confirm (f := fun l => !l.isTrusted carrier) ?_ _
  rw [hafter, hmid]
  change (!decide (carrier ∈ relayers.erase carrier)) = true
  simp [hnodup.mem_erase_iff]

end

/-- A place in the table of mapped agents that the runs may use. -/
structure Vacancy (cfg : Config) (w : World) : Prop where
  chain_fits : Bytes.fits cfg.chainIdLimit chain = true
  known : w.host.registry.knows agent = true
  unmapped : w.ledger.agentOf chain (filler cfg.agentIdLimit) = none
  place : ∃ mapped,
    Capacity.increment? cfg.mappingLimit (w.ledger.peer chain).mapped = some mapped

section

variable {cfg : Config} {w : World} {n : Option UInt32}

/-- What the remote agent of the runs stands for. -/
theorem through_resolved (hchain : Bytes.fits cfg.chainIdLimit chain = true)
    {wanted : Option AgentId}
    (h : w.ledger.agentOf chain (filler cfg.agentIdLimit) = wanted) :
    (resolved cfg (filler cfg.agentIdLimit) wanted).Through w fun _ after => after = w := by
  have hquery : Query.agent cfg w.ledger chain (filler cfg.agentIdLimit) = wanted := by
    rw [Query.agent, if_pos (fits_filler _), Query.peer, if_pos hchain]
    exact h
  refine (through_ledger_bind _).mpr ?_
  exact Through.agree hquery _

theorem prepare_mapAgent (hadmins : cfg.mappingAdmins.Truthful)
    (hnamed : cfg.mappingAdmins.successful ≠ none) (h : Vacancy cfg w)
    (hheight : w.ledger.height ≠ 0) :
    (prepare cfg n .mapAgent).Through w fun m mid => m.Goes cfg .mapAgent mid := by
  refine Through.bind (through_privileged hadmins hnamed) ?_
  rintro origin _ ⟨rfl, hadmin⟩
  obtain ⟨mapped, hmapped⟩ := h.place
  have hremote := fits_filler cfg.agentIdLimit
  have heffect : Effect cfg w origin (.mapAgent chain (filler cfg.agentIdLimit) agent) _ _ :=
    .mapAgent hadmin h.chain_fits hremote h.known h.unmapped hmapped
  have hbounded : Call.Bounded cfg (.mapAgent chain (filler cfg.agentIdLimit) agent) :=
    ⟨Bytes.tellable_of_fits h.chain_fits, Bytes.tellable_of_fits hremote⟩
  refine Through.pure (goes_of_effect heffect hbounded hheight fun after hafter => ?_)
  refine through_resolved h.chain_fits ?_
  rw [hafter]
  exact Ledger.agentOf_modifyPeer ..

theorem prepare_unmapAgent (hadmins : cfg.mappingAdmins.Truthful)
    (hnamed : cfg.mappingAdmins.successful ≠ none) (h : Vacancy cfg w)
    (hheight : w.ledger.height ≠ 0) :
    (prepare cfg n .unmapAgent).Through w fun m mid => m.Goes cfg .unmapAgent mid := by
  refine Through.bind (through_privileged hadmins hnamed) ?_
  rintro origin _ ⟨rfl, hadmin⟩
  obtain ⟨mapped, hmapped⟩ := h.place
  have hremote := fits_filler cfg.agentIdLimit
  obtain ⟨mid, hrun, hmid⟩ := exists_left (run_mapAgent h.known h.unmapped hmapped)
  have hagent : mid.ledger.agentOf chain (filler cfg.agentIdLimit) = some agent := by
    rw [hmid]
    exact Ledger.agentOf_modifyPeer ..
  have heffect : Effect cfg mid origin (.unmapAgent chain (filler cfg.agentIdLimit)) _ _ :=
    .unmapAgent hadmin h.chain_fits hremote hagent
  have hbounded : Call.Bounded cfg (.unmapAgent chain (filler cfg.agentIdLimit)) :=
    ⟨Bytes.tellable_of_fits h.chain_fits, Bytes.tellable_of_fits hremote⟩
  have hnow : mid.ledger.height = w.ledger.height := by
    rw [hmid]
    rfl
  simp only [h.chain_fits, Bool.not_true, Bool.false_eq_true, if_false]
  refine .ofRelay_bind hrun (Through.pure ?_)
  refine goes_of_effect heffect hbounded (hnow ▸ hheight) fun after hafter => ?_
  refine through_resolved h.chain_fits ?_
  rw [hafter]
  exact Ledger.agentOf_modifyPeer ..

end

/-- A world in which the measured runs find what they need: a slot for one more channel and a place
for one more mapped agent, a relayer or room for one, and a block number above zero from which the
spans of the configuration can be counted on. -/
structure Ready (cfg : Config) (w : World) : Prop where
  begun : 1 ≤ w.ledger.height
  counter : w.ledger.counter < Channel.lastNumber
  slot : (w.ledger.channelsTowards chain).length < cfg.channelLimit.toNat
  place : (w.ledger.peer chain).agents.size < cfg.mappingLimit.toNat
  unmapped : w.ledger.agentOf chain (filler cfg.agentIdLimit) = none
  known : w.host.registry.knows agent = true
  relayer : w.ledger.isTrusted carrier = true ∨
    w.ledger.relayers.length < cfg.relayerLimit.toNat
  timeout : w.ledger.height.toNat + cfg.timeoutBlocks.toNat < 4294967296
  retention : w.ledger.height.toNat + cfg.retentionBlocks.toNat < 4294967296

/-- What the run of one kind of call needs besides. -/
def Suits (cfg : Config) (n : Option UInt32) (w : World) : CallKind → Prop
  | .addRelayer =>
    account "relayer" 1 0 ∉ w.ledger.relayers ∧
      w.ledger.relayers.length < cfg.relayerLimit.toNat
  | .prune => ∃ count, n = some count ∧ 1 ≤ count ∧ count ≤ cfg.pruneLimit
  | _ => True

/-- For the right that a call of a kind takes, if it takes one, an origin is named. -/
def Offered (cfg : Config) : CallKind → Prop
  | .openChannel | .startClose | .addRelayer | .removeRelayer => cfg.managers.successful ≠ none
  | .mapAgent | .unmapAgent => cfg.mappingAdmins.successful ≠ none
  | _ => True

section

variable {cfg : Config} {w : World} {may : World → Step → Prop}

theorem fits_chain (hchain : 11 ≤ cfg.chainIdLimit.toNat) :
    Bytes.fits cfg.chainIdLimit chain = true := by
  have hlength : chain.length = 11 := by decide
  exact decide_eq_true (hlength ▸ hchain)

/-- Any ledger that a run has come to has a site for the loop, if it has a slot for it. -/
theorem Ready.site (h : Ready cfg w) (hreached : Reached cfg may w)
    (hsound : cfg.unsound? = none) (hchain : 11 ≤ cfg.chainIdLimit.toNat) :
    Site cfg w.ledger := by
  have hcounter : w.ledger.counter ≠ Channel.lastNumber := UInt64.ne_of_lt h.counter
  -- no channel has the next number, and where there is no channel nothing else is kept either
  have hfree := hreached.charted.next_free hcounter
  obtain ⟨founders, hrelayed⟩ := hreached.relayed
  constructor
  case fits => exact Config.fits_idOf hsound _
  case chain_fits => exact fits_chain hchain
  case fresh => exact (hreached.tabled_of_counter hcounter).eq_empty hfree
  case unlisted => exact hreached.charted.not_listed hfree chain
  case room =>
    rw [← hreached.charted.length_channelsTowards]
    exact h.slot
  case nodup => exact hrelayed.nodup
  case relayer => exact h.relayer

/-- The mapped agents are counted, so there is a place where there is room. -/
theorem Ready.vacancy (h : Ready cfg w) (hreached : Reached cfg may w)
    (hchain : 11 ≤ cfg.chainIdLimit.toNat) : Vacancy cfg w where
  chain_fits := fits_chain hchain
  known := h.known
  unmapped := h.unmapped
  place := by
    have hplace := h.place
    rw [← (hreached.mappedAs chain).counted] at hplace
    refine Option.ne_none_iff_exists'.mp fun hfull => ?_
    have hle := UInt32.le_iff_toNat_le.mp (Capacity.increment?_eq_none_iff.mp hfull)
    omega

/-- Whatever call is to be measured, its preparation leads to where it goes through. -/
theorem Ready.prepare (h : Ready cfg w) (hreached : Reached cfg may w)
    (hsound : cfg.unsound? = none) (hchain : 11 ≤ cfg.chainIdLimit.toNat)
    (hpayload : 2 ≤ cfg.payloadLimit.toNat) {n : Option UInt32} {kind : CallKind}
    (hsuits : Suits cfg n w kind) (hmanagers : cfg.managers.Truthful)
    (hadmins : cfg.mappingAdmins.Truthful) (hoffered : Offered cfg kind) :
    (Benchmark.prepare cfg n kind).Through w fun m mid => m.Goes cfg kind mid := by
  obtain ⟨htimeout, hpending, -⟩ := Config.unsound?_eq_none_iff.mp hsound
  have hsite := h.site hreached hsound hchain
  have hvacancy := h.vacancy hreached hchain
  have hheight : w.ledger.height ≠ 0 := by
    intro hzero
    have hbegun := h.begun
    rw [hzero] at hbegun
    exact absurd hbegun (by decide)
  cases kind with
  | openChannel =>
    exact prepare_openChannel hmanagers hoffered hsite hheight (UInt64.ne_of_lt h.counter)
  | confirmOpen => exact prepare_confirmOpen hsite hheight
  | startClose => exact prepare_startClose hmanagers hoffered hsite hheight
  | confirmClose => exact prepare_confirmClose hsite hheight
  | send => exact prepare_send hsite hheight hpayload hpending
  | receive => exact prepare_receive hsite hheight htimeout h.timeout
  | acknowledge => exact prepare_acknowledge hsite hheight hpayload hpending
  | timeOut => exact prepare_timeOut hsite hheight hpayload hpending
  | prune =>
    obtain ⟨count, rfl, hleast, hmost⟩ := hsuits
    exact prepare_prune hsite hheight h.retention hleast hmost
  | addRelayer => exact prepare_addRelayer hmanagers hoffered hheight hsuits.1 hsuits.2
  | removeRelayer => exact prepare_removeRelayer hmanagers hoffered hsite hheight
  | mapAgent => exact prepare_mapAgent hadmins hoffered hvacancy hheight
  | unmapAgent => exact prepare_unmapAgent hadmins hoffered hvacancy hheight

end

theorem ofName?_name (kind : CallKind) : CallKind.ofName? kind.name = some kind := by
  cases kind <;> decide

/-- A run is its preparation, the call and the check, and the call is the last one done. -/
theorem through_run {cfg : Config} {w : World} {n : Option UInt32} {kind : CallKind}
    (h : (prepare cfg n kind).Through w fun m mid => m.Goes cfg kind mid) :
    (run cfg kind.name n true).Through w fun _ after =>
      ∃ d, after.chronicle.deeds.getLast? = some d ∧ d.call.kind = kind := by
  unfold run
  simp only [ofName?_name, if_true]
  refine Through.bind h ?_
  rintro m mid ⟨hkind, hbounded, hbegun, after, hrun, hcheck⟩
  refine (through_ledger_bind _).mpr ?_
  simp only [hbegun, if_false]
  refine .ofRelay_bind hrun (hcheck.mono ?_)
  rintro _ _ rfl
  rw [submit_eq] at hrun
  exact ⟨_, enter_noted (call?_value hbounded) hrun, hkind⟩

theorem run_privileged_of_none {right : Privilege} (h : right.successful = none) (w : World) :
    (privileged right).run w = (.error .weightless, w) := by
  rw [privileged, h]
  rfl

/-- Where nobody is named for the call, its preparation ends before anything is done. -/
theorem prepare_of_not_offered {cfg : Config} {kind : CallKind} (h : ¬Offered cfg kind)
    (n : Option UInt32) (w : World) :
    (Benchmark.prepare cfg n kind).run w = (.error .weightless, w) := by
  cases kind with
  | openChannel | startClose | addRelayer | removeRelayer | mapAgent | unmapAgent =>
    have hnone := run_privileged_of_none (not_not.mp h) w
    unfold Benchmark.prepare
    rw [Trial.run_bind, hnone]
  | confirmOpen | confirmClose | send | receive | acknowledge | timeOut | prune =>
    exact absurd trivial h

theorem run_of_not_offered {cfg : Config} {kind : CallKind} (h : ¬Offered cfg kind)
    (n : Option UInt32) (w : World) :
    (run cfg kind.name n true).run w = (.error .weightless, w) := by
  unfold run
  simp only [ofName?_name]
  rw [Trial.run_bind, prepare_of_not_offered h]

end RelayLedger.Benchmark

namespace RelayLedger.Small

open Benchmark

/-- The ledger at its first block, with its one channel open. -/
def bench : World := first.after cfg opening

theorem ready_bench : Ready cfg bench where
  begun := by decide
  counter := by decide
  slot := by decide
  place := by decide
  unmapped := by decide
  known := by decide
  relayer := .inr (by decide)
  timeout := by decide
  retention := by decide

end RelayLedger.Small
