import RelayLedger.Proofs.LedgerPair
import RelayLedger.Proofs.Numbering

/-!
Timeouts across two ledgers. The sending ledger gives a packet up when its own block number has
come to the packet's timeout, and the receiving ledger turns a packet away when its own block
number has come to it; neither knows the block number of the other. So a packet that was given
up is turned away from the block on in which it was given up, but not necessarily before.
-/
namespace RelayLedger

open Reception

namespace Height

theorem after_mono {h k : Height} (hle : h ≤ k) (blocks : UInt32) :
    h.after blocks ≤ k.after blocks := by
  rw [UInt32.le_iff_toNat_le] at hle ⊢
  rw [toNat_after, toNat_after]
  omega

end Height

/-- While packets that are sent now time out at `due`, no packet that was sent times out later,
and what is committed under the number of a packet times out no sooner than the packet. -/
structure Outbox.Timely (due : Height) (o : Outbox) (sent : List Packet) : Prop where
  sent_le : ∀ p ∈ sent, p.timeout ≤ due
  committed : ∀ p ∈ sent, ∀ c, o.commitments.get p.sequence = some c → p.timeout ≤ c.timeout

namespace Outbox.Timely

variable {due : Height} {o : Outbox} {sent : List Packet}

theorem empty (due : Height) : Timely due Lane.empty.outbox [] where
  sent_le := by simp
  committed := by simp

theorem later {due' : Height} (h : Timely due o sent) (hle : due ≤ due') :
    Timely due' o sent where
  sent_le p hp := UInt32.le_trans (h.sent_le p hp) hle
  committed := h.committed

theorem fewer {sent' : List Packet} (h : Timely due o sent) (hsub : sent'.Sublist sent) :
    Timely due o sent' where
  sent_le p hp := h.sent_le p (hsub.subset hp)
  committed p hp := h.committed p (hsub.subset hp)

theorem opening (h : Timely due o sent) :
    Timely due { o with opened := true, counts := some (1, 1) } sent :=
  ⟨h.sent_le, h.committed⟩

/-- A packet that is sent now is the last one to time out, also under a number that was given
out before. -/
theorem send {cfg : Config} {p : Packet} (h : Timely due o sent) (hdue : p.timeout = due)
    (counts : Option (Sequence × Sequence)) (pending : UInt32) :
    Timely due
      { o with
        counts, pending, commitments := o.commitments.set p.sequence (some (p.commitment cfg)) }
      (sent ++ [p]) := by
  have hsent : ∀ q ∈ sent ++ [p], q.timeout ≤ due := by
    rw [List.forall_mem_append, List.forall_mem_singleton]
    exact ⟨h.sent_le, UInt32.le_of_eq hdue⟩
  constructor
  case sent_le => exact hsent
  case committed =>
    intro q hq c hc
    rw [Table.get_set] at hc
    by_cases hs : q.sequence = p.sequence
    · rw [if_pos hs, Option.some.injEq] at hc
      rw [← hc, Packet.commitment, hdue]
      exact hsent q hq
    · rw [if_neg hs] at hc
      rcases List.mem_append.mp hq with hold | hnew
      · exact h.committed q hold c hc
      · rw [List.mem_singleton.mp hnew] at hs
        exact absurd rfl hs

theorem settle (h : Timely due o sent) (counts : Option (Sequence × Sequence))
    (pending : UInt32) (s : Sequence) :
    Timely due { o with counts, pending, commitments := o.commitments.set s none } sent where
  sent_le := h.sent_le
  committed p hp c hc := by
    rw [Table.get_set] at hc
    split at hc
    · cases hc
    · exact h.committed p hp c hc

theorem turn {cfg : Config} {id : Bytes} {call : Call} {e : Event} {after : Outbox}
    (h : Timely due o sent) (hturn : o.Turn cfg id call e after)
    (hdue : ∀ p, e.sentOn id = some p → p.timeout = due) :
    Timely due after (sent ++ (e.sentOn id).toList) := by
  cases hturn with
  | other _ hsent => simpa [hsent] using h
  | opening => simpa [Event.sentOn] using h.opening
  | @send _ _ _ _ _ _ _ p _ _ _ _ hsource =>
    have hp : p.timeout = due := hdue p (by simp [Event.sentOn, hsource])
    simpa [Event.sentOn, hsource] using h.send hp _ _
  | acknowledge => simpa [Event.sentOn] using h.settle _ _ _
  | timeOut => simpa [Event.sentOn] using h.settle _ _ _

end Outbox.Timely

/-- A packet that is sent times out the configured number of blocks later. -/
theorem Effect.timeout_of_sent {cfg : Config} {w : World} {origin : Origin} {call : Call}
    {l : Ledger} {e : Event} (h : Effect cfg w origin call l e) {id : Bytes} {p : Packet}
    (hp : e.sentOn id = some p) : p.timeout = w.ledger.height.after cfg.timeoutBlocks := by
  cases h with
  | send =>
    simp only [Event.sentOn, Option.ite_none_right_eq_some, Option.some.injEq] at hp
    rw [← hp.2, Packet.draft]
  | _ => cases hp

/-- The packets of a channel are timely for those that are sent at a height. -/
def World.Timely (cfg : Config) (id : Bytes) (height : Height) (w : World) : Prop :=
  (w.ledger.lane id).outbox.Timely (height.after cfg.timeoutBlocks) (w.chronicle.sent id)

theorem kept_timely (cfg : Config) (id : Bytes) (height : Height) :
    Kept cfg (· = height) (World.Timely cfg id height) where
  host _ h := h
  height _ h := h
  deliver _ h := h
  call {w origin call l e} hheight h heffect := by
    have hdue : ∀ p, e.sentOn id = some p → p.timeout = height.after cfg.timeoutBlocks := by
      intro p hp
      rw [← hheight]
      exact heffect.timeout_of_sent hp
    exact (h.turn (heffect.outbox_turn id) hdue).fewer (w.sent_book_sublist origin call l e id)
  receive {w} who p agent ack _ h := by
    have hbox := outbox_receipted w.ledger w.ledger.height p ack id
    unfold World.Timely
    rw [World.book, hbox]
    exact h.fewer (w.sent_receive_sublist who p agent ack _ id)

theorem World.Timely.later {cfg : Config} {id : Bytes} {height height' : Height} {w : World}
    (h : w.Timely cfg id height) (hle : height ≤ height') : w.Timely cfg id height' :=
  Outbox.Timely.later h (Height.after_mono hle cfg.timeoutBlocks)

theorem Reached.timely {cfg : Config} {w : World} (h : Reached cfg Step.Onward w) (id : Bytes) :
    w.Timely cfg id w.ledger.height := by
  apply h.onward (P := World.Timely cfg id)
  · exact fun _ _ => .empty _
  · exact kept_timely cfg id
  · intro w height height' htimely hle
    exact htimely.later hle

/-- A packet that a ledger has told of, or is committed to. -/
def World.Sent (cfg : Config) (w : World) (p : Packet) : Prop :=
  p ∈ w.chronicle.sent p.source ∨
    (w.ledger.lane p.source).commitments.get p.sequence = some (p.commitment cfg)

/-- Where a packet that was sent is given up, its time is over. -/
theorem World.Sent.due {cfg : Config} {w : World} {p : Packet} {height : Height} {origin : Origin}
    {l : Ledger} {e : Event} (h : w.Sent cfg p) (htimely : w.Timely cfg p.source height)
    (heffect : Effect cfg w origin (.timeOut p.source p.sequence) l e) :
    p.timeout ≤ w.ledger.height := by
  cases heffect with
  | @timeOut _ _ _ c _ hcommitment hdue =>
    have hle : p.timeout ≤ c.timeout := by
      rcases h with htold | hcommitted
      · exact htimely.committed p htold c hcommitment
      · obtain rfl : c = p.commitment cfg := Option.some.inj (hcommitment.symm.trans hcommitted)
        exact UInt32.le_refl _
    exact UInt32.le_trans hle hdue

namespace Reception

/-- A packet passes every check of the receiving ledger but that of its time. -/
structure Awaited (w : World) (who : Account) (p : Packet) (channel : Channel) : Prop where
  trusted : w.ledger.isTrusted who = true
  channel_eq : (w.ledger.lane p.target).channel = some channel
  opened : channel.state = .opened
  paired : channel.counterparty = p.source
  unreceived : (w.ledger.lane p.target).receipts.get p.sequence = none

variable {cfg : Config} {handle : Handler} {w : World} {who : Account} {p : Packet}
  {channel : Channel}

theorem Awaited.admitted (h : Awaited w who p channel) (hearly : w.ledger.height < p.timeout) :
    Admitted w who p channel :=
  ⟨h.trusted, h.channel_eq, h.opened, h.paired, h.unreceived, hearly⟩

theorem Awaited.accepted (h : Awaited w who p channel) (hearly : w.ledger.height < p.timeout) :
    ((Call.perform cfg handle (.signed who) (.receive p)).run w).1 = .ok () := by
  obtain ⟨_, _, _, _, hrun⟩ := receive_of_admitted cfg handle (h.admitted hearly)
  rw [hrun]

theorem Awaited.rejected (h : Awaited w who p channel) (hlate : p.timeout ≤ w.ledger.height) :
    ((Call.perform cfg handle (.signed who) (.receive p)).run w).1 =
      .error (.refused .packetTimedOut) := by
  have hexpired : p.isExpired w.ledger.height = true := by simpa [Packet.isExpired] using hlate
  have hopen : channel.state.isOpen = true := by simp [ChannelState.isOpen, h.opened]
  simp [Call.perform, Origin.signer, Inbound.receive, Inbound.requireTrusted, h.trusted,
    h.channel_eq, hopen, h.paired, h.unreceived, hexpired]

/-- On a packet that is awaited, only the ledger's own block number decides. -/
theorem Awaited.outcome_iff (h : Awaited w who p channel) {outcome : Outcome}
    (houtcome : outcome = ((Call.perform cfg handle (.signed who) (.receive p)).run w).1) :
    (outcome = .ok () ↔ w.ledger.height < p.timeout) ∧
      (outcome = .error (.refused .packetTimedOut) ↔ p.timeout ≤ w.ledger.height) := by
  by_cases hearly : w.ledger.height < p.timeout
  · have hnot : ¬p.timeout ≤ w.ledger.height := UInt32.not_le.mpr hearly
    rw [houtcome, h.accepted hearly]
    simp [hearly, hnot]
  · have hlate : p.timeout ≤ w.ledger.height := UInt32.not_lt.mp hearly
    rw [houtcome, h.rejected hlate]
    simp [hearly, hlate]

end Reception

/-- Once the near ledger has given a packet up, which is not before its block number has come to
the packet's timeout, the far ledger does not receive it from the moment on at which its own
block number has come to the timeout. A packet that passes all its other checks it turns away as
too late from that block on, and only then; until then it takes it, given up or not. -/
theorem timed_out_packet_not_received_late {pair : LedgerPair} {moves : List Move} {i : Nat}
    {p : Packet} {origin : Origin} {mid : World} (h : pair.Follows moves Step.Onward)
    (hout : pair.Carries moves i .near origin (.timeOut p.source p.sequence) mid (.ok ()))
    (hsent : mid.Sent (pair.cfg .near) p) :
    p.timeout ≤ (pair.stage moves i .near).ledger.height ∧
      (∀ j k, p.timeout ≤ (pair.stage moves j .far).ledger.height → j ≤ k →
        ∀ origin late, ¬pair.Carries moves k .far origin (.receive p) late (.ok ())) ∧
      ∀ k who late outcome channel,
        pair.Carries moves k .far (.signed who) (.receive p) late outcome →
        Reception.Awaited late who p channel →
        (outcome = .ok () ↔ (pair.stage moves k .far).ledger.height < p.timeout) ∧
        (outcome = .error (.refused .packetTimedOut) ↔
          p.timeout ≤ (pair.stage moves k .far).ledger.height) := by
  refine ⟨?_, ?_, ?_⟩
  · obtain ⟨step, _, hcarries⟩ := hout
    obtain ⟨l, e, heffect⟩ := hcarries.effect (by simp)
    have hstart := (h.reached i .near).timely p.source
    have htimely := (kept_timely (pair.cfg .near) p.source _).proceeds hcarries.proceeds rfl hstart
    rw [← hcarries.height_eq]
    exact hsent.due htimely heffect
  · rintro j k hlate hjk origin late ⟨step, _, hcarries⟩
    obtain ⟨who, channel, _, hadmitted⟩ := hcarries.admitted
    have hearly := hadmitted.early
    rw [hcarries.height_eq] at hearly
    exact absurd hearly (UInt32.not_lt.mpr (UInt32.le_trans hlate (h.height_mono .far hjk)))
  · rintro k who late outcome channel ⟨step, _, hcarries⟩ hawaited
    obtain ⟨handle, houtcome⟩ := hcarries.outcome_eq
    rw [← hcarries.height_eq]
    exact hawaited.outcome_iff houtcome

namespace Small

/-- The near ledger gives its packet up, and then it is brought to the far one at a height. -/
def tooLate (height : Height) : List Move :=
  meeting ++ [⟨.near, .reach 101⟩, ⟨.near, .call (.signed 1) (.value (.timeOut channel 1))⟩,
    ⟨.far, .reach height⟩, ⟨.far, .call (.signed 10) (.value (.receive crossing))⟩]

theorem tooLate_follows {height : Height} (h : 1 ≤ height) :
    twins.Follows (tooLate height) Step.Onward := by
  intro side
  cases side with
  | near =>
    exact ⟨show (0 : Height) ≤ 1 by decide, trivial, trivial, trivial,
      show (1 : Height) ≤ 101 by decide, trivial, trivial⟩
  | far => exact ⟨show (0 : Height) ≤ 1 by decide, trivial, trivial, h, trivial, trivial⟩

/-- The far ledger, which is still at its first block, receives a packet that the near ledger has
given up at its block 101. -/
theorem received_after_timeout :
    twins.Follows (tooLate 1) Step.Onward ∧
      (∀ side, ((twins.stage (tooLate 1) 8 side).ledger.lane channel).channel =
        some ⟨channel, [1], channel, .opened, 1, some 1, none⟩) ∧
      crossing ∈ (twins.stage (tooLate 1) 8 .near).chronicle.sent channel ∧
      twins.Carries (tooLate 1) 8 .near (.signed 1) (.timeOut channel 1)
        (twins.stage (tooLate 1) 8 .near) (.ok ()) ∧
      twins.Carries (tooLate 1) 10 .far (.signed 10) (.receive crossing)
        (twins.stage (tooLate 1) 10 .far) (.ok ()) := by
  refine ⟨tooLate_follows (by decide), ?_, by decide +kernel, ?_, ?_⟩
  · intro side
    cases side <;> rfl
  · exact ⟨_, rfl, _, _, _, _, rfl, .outside, rfl, rfl⟩
  · exact ⟨_, rfl, _, _, _, _, rfl, .outside, rfl, rfl⟩

theorem late_crossing_turned_away :
    (twins.stage (tooLate 101) 8 .near).Sent cfg crossing ∧
      crossing.timeout ≤ (twins.stage (tooLate 101) 8 .near).ledger.height ∧
      twins.Carries (tooLate 101) 10 .far (.signed 10) (.receive crossing)
        (twins.stage (tooLate 101) 10 .far) (.error (.refused .packetTimedOut)) ∧
      ∀ origin late,
        ¬twins.Carries (tooLate 101) 10 .far origin (.receive crossing) late (.ok ()) := by
  have hfollows : twins.Follows (tooLate 101) Step.Onward := tooLate_follows (by decide)
  have hout : twins.Carries (tooLate 101) 8 .near (.signed 1) (.timeOut channel 1)
      (twins.stage (tooLate 101) 8 .near) (.ok ()) :=
    ⟨_, rfl, _, _, _, _, rfl, .outside, rfl, rfl⟩
  have hsent : (twins.stage (tooLate 101) 8 .near).Sent cfg crossing :=
    .inl (by decide +kernel)
  obtain ⟨hdue, hlate, -⟩ := timed_out_packet_not_received_late hfollows hout hsent
  exact ⟨hsent, hdue, ⟨_, rfl, _, _, _, _, rfl, .outside, rfl, rfl⟩,
    hlate 10 10 (UInt32.le_refl _) (Nat.le_refl _)⟩

end Small

end RelayLedger
