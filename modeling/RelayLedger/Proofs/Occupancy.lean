import Mathlib.Data.List.Perm.Subperm
import RelayLedger.Proofs.Answers
import RelayLedger.Proofs.Passage
import RelayLedger.Proofs.Roster

/-!
How much is kept under one channel. A commitment stands for a pending packet and a kept
acknowledgement for a place in the queue, so these stores keep to the limit of pending packets,
also when the numbers have run out. Nothing of the kind holds for receipts: whoever may bring
packets in chooses their numbers, and no limit of the configuration is looked at, so the receipts
of a channel can come to any number up to that of all sequences.
-/
namespace RelayLedger

open Reception

/-! The stores that the limit of pending packets bounds. -/

/-- The commitments of an outbox are no more than its pending packets, and these keep to their
limit. -/
structure Outbox.Confined (limit : UInt32) (o : Outbox) : Prop where
  size_le : o.commitments.size ≤ o.pending.toNat
  pending_le : o.pending.toNat ≤ limit.toNat

namespace Outbox.Confined

variable {cfg : Config} {limit : UInt32} {o after : Outbox}

theorem send (h : o.Confined limit) {pending : UInt32}
    (hpending : Capacity.increment? limit o.pending = some pending)
    (counts : Option (Sequence × Sequence)) (s : Sequence) (c : Commitment) :
    Confined limit
      { o with counts, pending, commitments := o.commitments.set s (some c) } := by
  obtain ⟨hlt, hhigher⟩ := Capacity.increment?_eq_some_iff.mp hpending
  have hlimit := UInt32.lt_iff_toNat_lt.mp hlt
  have hle := h.size_le
  constructor
  case size_le =>
    -- the number may be committed already, and then nothing is added
    have hsize := Table.size_set o.commitments s (some c)
    rw [if_neg (show (some c : Option Commitment) ≠ blank by simp)] at hsize
    change (o.commitments.set s (some c)).size ≤ pending.toNat
    omega
  case pending_le =>
    change pending.toNat ≤ limit.toNat
    omega

theorem settle (h : o.Confined limit) {s : Sequence} {c : Commitment}
    (hcommitment : o.commitments.get s = some c) (counts : Option (Sequence × Sequence)) :
    Confined limit
      { o with
        counts
        pending := Capacity.decrement o.pending
        commitments := o.commitments.set s none } := by
  have hsize := Outbox.Exact.size_resolved hcommitment
  obtain ⟨hle, hlimit⟩ := h
  constructor
  case size_le =>
    change (o.commitments.set s none).size ≤ (Capacity.decrement o.pending).toNat
    rw [Capacity.toNat_decrement]
    omega
  case pending_le =>
    change (Capacity.decrement o.pending).toNat ≤ limit.toNat
    rw [Capacity.toNat_decrement]
    omega

theorem turn {id : Bytes} {call : Call} {e : Event} (h : o.Confined cfg.pendingLimit)
    (hturn : o.Turn cfg id call e after) : after.Confined cfg.pendingLimit := by
  cases hturn with
  | other => exact h
  | opening => exact ⟨h.size_le, h.pending_le⟩
  | send _ _ hpending => exact h.send hpending _ _ _
  | acknowledge hcommitment => exact h.settle hcommitment _
  | timeOut hcommitment => exact h.settle hcommitment _

end Outbox.Confined

/-- The acknowledgements of an archive are listed in its queue, and this keeps to its limit. -/
structure Archive.Confined (limit : UInt32) (a : Archive) : Prop where
  listed : ∀ s, a.acks.get s ≠ none → s ∈ a.retained
  length_le : a.retained.length ≤ limit.toNat

namespace Archive.Confined

variable {limit : UInt32} {a : Archive} {answer : Sequence × AckRecord}

theorem add_of_zero (h : a.Confined 0) : (a.add 0 answer).Confined 0 := by
  have hpush : Capacity.pushEvicting 0 a.retained answer.1 = (some answer.1, a.retained) := by
    rw [Capacity.pushEvicting_of_length_le _ h.length_le, if_pos rfl]
  simp only [add, hpush, Table.set_set]
  refine ⟨fun s hs => h.listed s ?_, h.length_le⟩
  rw [Table.get_set] at hs
  split at hs
  · exact absurd rfl hs
  · exact hs

theorem add_of_room (h : a.Confined limit) (hroom : a.retained.length < limit.toNat) :
    (a.add limit answer).Confined limit := by
  rw [add_of_length_lt hroom]
  constructor
  case listed =>
    intro s hs
    rw [List.mem_append, List.mem_singleton]
    rw [Table.get_set] at hs
    split at hs
    · exact .inr ‹_›
    · exact .inl (h.listed s hs)
  case length_le =>
    rw [List.length_append, List.length_singleton]
    exact hroom

theorem add_of_full {oldest : Sequence} {rest : List Sequence} (h : a.Confined limit)
    (hlimit : limit ≠ 0) (hretained : a.retained = oldest :: rest)
    (hfull : limit.toNat ≤ a.retained.length) : (a.add limit answer).Confined limit := by
  have hle := h.length_le
  rw [add_of_length_eq hlimit hretained (Nat.le_antisymm hle hfull)]
  constructor
  case listed =>
    intro s hs
    rw [List.mem_append, List.mem_singleton]
    rw [Table.get_set, Table.get_set] at hs
    split at hs
    · exact absurd rfl hs
    · next hleft =>
      split at hs
      · exact .inr ‹_›
      · have hmem := h.listed s hs
        rw [hretained] at hmem
        exact .inl (List.mem_of_ne_of_mem hleft hmem)
  case length_le =>
    rw [hretained, List.length_cons] at hle
    rw [List.length_append, List.length_singleton]
    exact hle

theorem add (h : a.Confined limit) (answer : Sequence × AckRecord) :
    (a.add limit answer).Confined limit := by
  by_cases hlimit : limit = 0
  · subst hlimit
    exact h.add_of_zero
  · rcases Nat.lt_or_ge a.retained.length limit.toNat with hroom | hfull
    · exact h.add_of_room hroom
    · cases hretained : a.retained with
      | nil =>
        have hpos := Capacity.toNat_pos hlimit
        rw [hretained, List.length_nil] at hfull
        omega
      | cons oldest rest => exact h.add_of_full hlimit hretained hfull

theorem size_le (h : a.Confined limit) : a.acks.size ≤ a.retained.length := by
  rw [← Table.length_keys]
  refine (List.subperm_of_subset a.acks.nodup_keys fun s hs => ?_).length_le
  exact h.listed s (Table.mem_keys.mp hs)

end Archive.Confined

/-- What is kept under a channel for the packets that it sends keeps to the limit of pending
packets. -/
structure Lane.Confined (limit : UInt32) (l : Lane) : Prop where
  outbox : l.outbox.Confined limit
  archive : l.archive.Confined limit

theorem kept_confined (cfg : Config) (id : Bytes) :
    Kept cfg (fun _ => True) fun w => (w.ledger.lane id).Confined cfg.pendingLimit where
  host _ h := h
  height _ h := h
  deliver _ h := h
  call {w origin call l e} _ h heffect := by
    refine ⟨h.outbox.turn (heffect.outbox_turn id), ?_⟩
    rw [World.book, heffect.archive_eq id]
    cases Deed.answerOn id ⟨w.ledger.height, origin, call⟩ with
    | none => exact h.archive
    | some answer => exact h.archive.add answer
  receive {w} who p agent ack _ h := by
    constructor
    case outbox =>
      rw [World.book, outbox_receipted]
      exact h.outbox
    case archive =>
      rw [World.book, archive_receipted]
      exact h.archive

theorem Lane.Confined.empty (limit : UInt32) : Lane.empty.Confined limit where
  outbox := ⟨Nat.le_refl 0, Nat.zero_le _⟩
  archive := ⟨fun _ h => absurd rfl h, Nat.zero_le _⟩

theorem Reached.confined {cfg : Config} {may : World → Step → Prop} {w : World}
    (h : Reached cfg may w) (id : Bytes) : (w.ledger.lane id).Confined cfg.pendingLimit :=
  (kept_confined cfg id).reached (fun _ _ => .empty _) (fun _ _ _ _ => trivial) h

/-! When no packet comes in at all. -/

theorem Channel.length_idOf (number : UInt64) : 9 ≤ (idOf number).length := by
  have hdigits : 0 < (Nat.toDigits 10 number.toNat).length := Nat.length_toDigits_pos
  have htext : (Bytes.ofAscii "channel-").length = 8 := by decide
  rw [idOf, List.length_append, htext, Bytes.decimal, List.length_map]
  omega

/-- A channel can be opened: somebody may open one, and there is room for it and its identifier. -/
structure Config.Opens (cfg : Config) : Prop where
  manager : ∃ origin, cfg.isManager origin = true
  channel : cfg.channelLimit ≠ 0
  identifier : 9 ≤ cfg.channelIdLimit.toNat

/-- A packet can come in: there may be a relayer that brings it, and a channel that takes it. -/
structure Config.Receives (cfg : Config) : Prop extends cfg.Opens where
  relayer : cfg.relayerLimit ≠ 0

/-- What there is on the ledger is there because the configuration lets it be. -/
structure Ledger.Warranted (cfg : Config) (l : Ledger) : Prop where
  relayer : l.relayers ≠ [] → cfg.relayerLimit ≠ 0
  channel : ∀ id, (l.lane id).channel ≠ none → cfg.Opens
  receipt : ∀ id s, l.receipt id s ≠ none → cfg.Receives

theorem Genesis.relayerLimit_ne_zero {limit : UInt32} {known relayers out : List Account}
    (h : distinct? limit known relayers = some out) (hout : out ≠ []) :
    known ≠ [] ∨ limit ≠ 0 := by
  induction relayers generalizing known with
  | nil =>
    cases h
    exact .inl hout
  | cons who rest ih =>
    rw [distinct?] at h
    split at h
    · next hinsert =>
      obtain ⟨-, hroom, -⟩ := Capacity.insertNew_eq_ok_iff.mp hinsert
      exact .inr (Capacity.ne_zero_of_lt hroom)
    · exact ih h
    · cases h

namespace Ledger.Warranted

variable {cfg : Config} {w : World} {origin : Origin} {call : Call} {l : Ledger} {e : Event}

theorem initial {relayers known : List Account}
    (h : Genesis.distinct? cfg.relayerLimit [] relayers = some known) :
    Warranted cfg { Ledger.initial with relayers := known } where
  relayer hknown := (Genesis.relayerLimit_ne_zero h hknown).resolve_left fun hnil => hnil rfl
  channel _ hchannel := absurd rfl hchannel
  receipt _ _ hreceipt := absurd rfl hreceipt

theorem effect_relayer (h : Effect cfg w origin call l e) (hw : w.ledger.Warranted cfg)
    (hrelayers : l.relayers ≠ []) : cfg.relayerLimit ≠ 0 := by
  cases h with
  | addRelayer _ _ hroom => exact Capacity.ne_zero_of_lt hroom
  | removeRelayer _ hmember => exact hw.relayer (List.ne_nil_of_mem hmember)
  | _ => exact hw.relayer hrelayers

theorem effect_channel (h : Effect cfg w origin call l e) (hw : w.ledger.Warranted cfg)
    {id : Bytes} (hchannel : (l.lane id).channel ≠ none) : cfg.Opens := by
  by_cases hopens : ∃ chain counterparty, call = .openChannel chain counterparty
  · obtain ⟨chain, counterparty, rfl⟩ := hopens
    cases h with
    | openChannel hmanager _ _ hid _ _ hroom =>
      have hlength := Bytes.length_le_of_fits hid
      exact ⟨⟨origin, hmanager⟩, Capacity.ne_zero_of_lt hroom,
        (Channel.length_idOf _).trans hlength⟩
  · apply hw.channel id
    have hturn := h.outbox_turn id
    have hopened : (l.lane id).outbox.opened = true := Option.isSome_iff_ne_none.mpr hchannel
    apply Option.isSome_iff_ne_none.mp
    change (w.ledger.lane id).outbox.opened = true
    generalize (w.ledger.lane id).outbox = before, (l.lane id).outbox = after at hturn hopened
    cases hturn with
    | opening => exact absurd ⟨_, _, rfl⟩ hopens
    | _ => exact hopened

theorem effect (h : Effect cfg w origin call l e) (hw : w.ledger.Warranted cfg) :
    l.Warranted cfg where
  relayer := hw.effect_relayer h
  channel _ := hw.effect_channel h
  receipt id s hreceipt := by
    rcases h.receipt_kept_or_pruned id s with hkept | ⟨_, _, _, _, _, _, hgone⟩
    · exact hw.receipt id s (hkept ▸ hreceipt)
    · exact absurd hgone hreceipt

/-- Where a packet passes its checks there is all that it takes. -/
theorem receives {who : Account} {p : Packet} {channel : Channel} (hw : w.ledger.Warranted cfg)
    (h : Admitted w who p channel) : cfg.Receives := by
  have hmember : who ∈ w.ledger.relayers := of_decide_eq_true h.trusted
  have hopens : cfg.Opens := hw.channel p.target (by rw [h.channel_eq]; simp)
  exact ⟨hopens, hw.relayer (List.ne_nil_of_mem hmember)⟩

theorem of_receives (h : cfg.Receives) (l : Ledger) : l.Warranted cfg :=
  ⟨fun _ => h.relayer, fun _ _ => h.toOpens, fun _ _ _ => h⟩

end Ledger.Warranted

theorem Proceeds.warranted {cfg : Config} {w after : World} (h : Proceeds cfg w after)
    (hw : w.ledger.Warranted cfg) : after.ledger.Warranted cfg := by
  induction h with
  | refl => exact hw
  | host _ _ ih => exact ih hw
  | deliver _ _ ih => exact ⟨(ih hw).relayer, (ih hw).channel, (ih hw).receipt⟩
  | call _ heffect ih => exact (ih hw).effect heffect
  | receive _ _ _ hadmitted _ ih _ => exact .of_receives ((ih hw).receives hadmitted) _

theorem Reached.warranted {cfg : Config} {may : World → Step → Prop} {w : World}
    (h : Reached cfg may w) : w.ledger.Warranted cfg := by
  refine h.induct (P := fun w => w.ledger.Warranted cfg) ?_ ?_
  · intro relayers host first hfirst
    unfold World.genesis? Genesis.ledger? at hfirst
    cases hknown : Genesis.distinct? cfg.relayerLimit [] relayers with
    | none => simp [hknown] at hfirst
    | some known =>
      rw [hknown] at hfirst
      cases hfirst
      exact .initial hknown
  · intro w step hw _
    cases step with
    | reach height => exact ⟨hw.relayer, hw.channel, hw.receipt⟩
    | setRegistry registry => exact hw
    | install topic app => exact hw
    | call origin s => exact (take_call_proceeds w origin s).warranted hw

/-! When packets come in one after another. -/

section

variable {cfg : Config} {w : World} {origin : Origin} {call : Call} {l : Ledger} {e : Event}

/-- A run can go on with any call that can have its effect. -/
theorem Reached.effect (h : Reached cfg (fun _ _ => True) w)
    (heffect : Effect cfg w origin call l e) (hbounded : call.Bounded cfg) :
    ∃ lines, Reached cfg (fun _ _ => True) { w.book origin call l e with host.log := lines } := by
  have hcall : (Submission.value call).call? cfg = some call :=
    Submission.call?_of_mem_forms hbounded List.mem_cons_self
  obtain ⟨lines, hrun⟩ := heffect.take_eq hcall
  have hnext : Reached cfg (fun _ _ => True) (w.take cfg (.call origin (.value call))).2 :=
    h.step trivial
  rw [hrun] at hnext
  exact ⟨lines, hnext⟩

end

namespace Inflow

/-- The channel on which the packets come in. -/
def channel : Bytes := Channel.idOf 0

/-- The packet with a number. -/
def parcel (s : Sequence) : Packet where
  sequence := s
  source := []
  chain := []
  target := channel
  agent := none
  payload := .raw []
  timeout := 2

/-- The world in which the ledger begins: it trusts one relayer, and there are no applications. -/
def first : World :=
  ⟨{ Ledger.initial with relayers := [0] }, .empty, .opening (.ofRanges [] []) false⟩

/-- The world at its first block. -/
def begun : World := { first with ledger.height := 1 }

/-- So many packets have come in on the opened channel, those with the lowest numbers. -/
structure Filled (n : Nat) (w : World) : Prop where
  height : w.ledger.height = 1
  trusted : w.ledger.isTrusted 0 = true
  unseen : w.host.applications = none
  opened : ∃ c, (w.ledger.lane channel).channel = some c ∧ c.state = .opened ∧ c.counterparty = []
  size : (w.ledger.lane channel).receipts.size = n
  free : ∀ s : Sequence, n ≤ s.toNat → (w.ledger.lane channel).receipts.get s = none

variable {cfg : Config} {w mid : World} {n : Nat}

theorem fits_nil (limit : UInt32) : Bytes.fits limit [] = true := decide_eq_true (Nat.zero_le _)

theorem fits_channel (h : cfg.Receives) : channel.fits cfg.channelIdLimit = true := by
  have hlength : channel.length = 9 := by decide
  apply decide_eq_true
  rw [hlength]
  exact h.identifier

theorem bounded_parcel (h : cfg.Receives) (s : Sequence) : (parcel s).Bounded cfg where
  source := Nat.zero_le _
  chain := Nat.zero_le _
  target := Bytes.length_le_of_fits (fits_channel h)
  agent _ hagent := by cases hagent
  payload := Nat.zero_le _

theorem genesis_eq (h : cfg.Receives) :
    World.genesis? cfg [0] (.opening (.ofRanges [] []) false) = some first := by
  have hroom : ([] : List Account).length < cfg.relayerLimit.toNat :=
    Capacity.toNat_pos h.relayer
  have hinsert : Capacity.insertNew cfg.relayerLimit [] (0 : Account) = .ok [0] :=
    Capacity.insertNew_eq_ok_iff.mpr ⟨List.not_mem_nil, hroom, rfl⟩
  simp only [World.genesis?, Genesis.ledger?, Genesis.distinct?, hinsert]
  rfl

/-- The ledger with its channel, and with the channel confirmed. -/
def created : Ledger := begun.ledger.opened [] []

def confirmed : Ledger :=
  created.modifyLane channel fun l =>
    { l with channel := some ((Channel.created channel [] [] 1).enter .opened 1) }

theorem lane_created :
    created.lane channel = Lifecycle.opening (.created channel [] [] 1) .empty :=
  (Ledger.lane_opened ..).trans (if_pos rfl)

theorem lane_confirmed :
    confirmed.lane channel =
      ⟨some ((Channel.created channel [] [] 1).enter .opened 1), some .start, 0, .empty, .empty,
        .empty, []⟩ := by
  rw [confirmed, Ledger.lane_modifyLane_self, lane_created]
  rfl

theorem exists_opened (h : cfg.Receives) :
    ∃ w, Reached cfg (fun _ _ => True) w ∧ Filled 0 w := by
  have hroom := Capacity.toNat_pos h.channel
  have hid := fits_channel h
  have hnil : Bytes.Tellable [] := Bytes.tellable_of_fits (fits_nil 0)
  obtain ⟨manager, hmanager⟩ := h.manager
  have hbegun : Reached cfg (fun _ _ => True) begun :=
    ⟨[0], _, first, [.reach 1], genesis_eq h, ⟨trivial, trivial⟩, rfl⟩
  have hopening : Effect cfg begun manager (.openChannel [] []) created
      (.channelOpened channel [] []) :=
    .openChannel hmanager (fits_nil _) (fits_nil _) hid rfl List.not_mem_nil hroom
  obtain ⟨lines, hcreated⟩ := hbegun.effect hopening ⟨hnil, hnil⟩
  have hchannel : (created.lane channel).channel = some (.created channel [] [] 1) := by
    rw [lane_created]
    rfl
  generalize hw : ({ begun.book manager (.openChannel [] []) created
    (.channelOpened channel [] []) with host.log := lines } : World) = w at hcreated
  have hconfirming : Effect cfg w (.signed 0) (.confirmOpen channel) confirmed
      (.openConfirmed channel 0) := by
    subst hw
    exact .confirmOpen rfl hid hchannel rfl
  obtain ⟨lines', hconfirmed⟩ := hcreated.effect hconfirming (Bytes.tellable_of_fits hid)
  subst hw
  refine ⟨_, hconfirmed, rfl, rfl, rfl, ?_, ?_, ?_⟩
  · exact ⟨_, congrArg Lane.channel lane_confirmed, rfl, rfl⟩
  · exact congrArg (Table.size ·.receipts) lane_confirmed
  · intro s _
    exact congrArg (Table.get ·.receipts s) lane_confirmed

/-- Where there are no applications the answer to a packet changes nothing. -/
theorem answered_unseen {layers : Nat} {c : Channel} {s : Sequence} {agent : Option AgentId}
    {ack : Acknowledgement} (hunseen : w.host.applications = none)
    (h : Answered (handlerAt cfg (layers + 1)) w c (parcel s) agent ack mid) : mid = w := by
  have hhandle (d : Delivery) : handlerAt cfg (layers + 1) d w = (.accepted, w) :=
    Application.handler_of_none (dispatch cfg layers) hunseen
  cases h with
  | unassigned hassign => cases hassign
  | accepted _ haccepted =>
    rw [hhandle] at haccepted
    cases haccepted
    rfl
  | rejected _ hrejected hverdict =>
    rw [hhandle] at hrejected
    cases hrejected
    exact absurd rfl hverdict

theorem Filled.receive (h : Filled n w) {s : Sequence} (hs : s.toNat = n) (who : Account)
    (agent : Option AgentId) (ack : Acknowledgement) :
    Filled (n + 1) (w.book (.signed who) (.receive (parcel s))
      (receipted w.ledger w.ledger.height (parcel s) ack) (news who (parcel s) agent ack)) := by
  have hlane : (receipted w.ledger w.ledger.height (parcel s) ack).lane channel =
      (w.ledger.lane channel).receive s ⟨w.ledger.height, 2, ack⟩ :=
    (Ledger.lane_modifyLane ..).trans (if_pos rfl)
  constructor
  case height => exact h.height
  case trusted => exact h.trusted
  case unseen => exact h.unseen
  case opened =>
    rw [World.book, hlane]
    exact h.opened
  case size =>
    rw [World.book, hlane]
    have hsize := Table.size_set (w.ledger.lane channel).receipts s
      (some ⟨w.ledger.height, 2, ack⟩)
    rw [h.free s (Nat.le_of_eq hs.symm), if_pos blank_option.symm, if_neg (by simp), h.size]
      at hsize
    exact hsize
  case free =>
    intro other hother
    rw [World.book, hlane]
    have hne : other ≠ s := by
      rintro rfl
      omega
    exact (Table.get_set_of_ne _ _ hne).trans (h.free other (by omega))

theorem Filled.next (hcfg : cfg.Receives) (h : Filled n w)
    (hreached : Reached cfg (fun _ _ => True) w) (hn : n < 18446744073709551616) :
    ∃ after, Reached cfg (fun _ _ => True) after ∧ Filled (n + 1) after := by
  obtain ⟨c, hchannel, hopened, hpaired⟩ := h.opened
  have hs : (UInt64.ofNat n).toNat = n := UInt64.toNat_ofNat_of_lt hn
  generalize UInt64.ofNat n = s at hs
  have hadmitted : Admitted w 0 (parcel s) c := by
    refine ⟨h.trusted, hchannel, hopened, hpaired, h.free s (Nat.le_of_eq hs.symm), ?_⟩
    rw [h.height]
    change (1 : Height) < 2
    decide
  have hbounded : Call.Bounded cfg (.receive (parcel s)) := bounded_parcel hcfg s
  have hcall : (Submission.value (.receive (parcel s))).call? cfg = some (.receive (parcel s)) :=
    Submission.call?_of_mem_forms hbounded List.mem_cons_self
  obtain ⟨agent, ack, mid, hanswered, hrun⟩ :=
    enter_of_admitted cfg (handlerAt cfg 254) hcall hadmitted
  obtain rfl := answered_unseen h.unseen hanswered
  have hnext : Reached cfg (fun _ _ => True)
      (mid.take cfg (.call (.signed 0) (.value (.receive (parcel s))))).2 := hreached.step trivial
  rw [← submit_eq] at hrun
  rw [World.take, hrun] at hnext
  exact ⟨_, hnext, h.receive hs 0 agent ack⟩

/-- Any number of receipts is reached, up to that of all sequences. -/
theorem exists_filled (h : cfg.Receives) (hn : n ≤ 18446744073709551616) :
    ∃ w, Reached cfg (fun _ _ => True) w ∧ Filled n w := by
  induction n with
  | zero => exact exists_opened h
  | succ n ih =>
    obtain ⟨w, hreached, hfilled⟩ := ih (by omega)
    exact hfilled.next h hreached (by omega)

end Inflow

/-- A list of sequences without repetition is no longer than that of all sequences. -/
theorem Sequence.length_le_of_nodup {sequences : List Sequence} (h : sequences.Nodup) :
    sequences.length ≤ 18446744073709551616 := by
  have hnodup : (sequences.map UInt64.toNat).Nodup :=
    h.map fun _ _ => UInt64.toNat_inj.mp
  have hsub : sequences.map UInt64.toNat ⊆ List.range 18446744073709551616 := by
    intro n hn
    obtain ⟨s, -, rfl⟩ := List.mem_map.mp hn
    exact List.mem_range.mpr s.toNat_lt
  have hle := (List.subperm_of_subset hnodup hsub).length_le
  rwa [List.length_map, List.length_range] at hle

/-- What is kept under a channel for the packets that it sends never outgrows the limit of pending
packets. The receipts have no limit but that of their numbers: where packets can come in at all,
each count of them up to there is that of a channel in some run. -/
theorem receipts_alone_unlimited (cfg : Config) :
    (∀ w, Reached cfg (fun _ _ => True) w → ∀ id,
      (w.ledger.lane id).commitments.size ≤ cfg.pendingLimit.toNat ∧
      (w.ledger.lane id).acks.size ≤ (w.ledger.lane id).retained.length ∧
      (w.ledger.lane id).retained.length ≤ cfg.pendingLimit.toNat) ∧
    ∀ n, (∃ w id, Reached cfg (fun _ _ => True) w ∧ (w.ledger.lane id).receipts.size = n) ↔
      n = 0 ∨ cfg.Receives ∧ n ≤ 18446744073709551616 := by
  constructor
  · intro w hreached id
    obtain ⟨houtbox, harchive⟩ := hreached.confined id
    exact ⟨houtbox.size_le.trans houtbox.pending_le, harchive.size_le, harchive.length_le⟩
  · intro n
    constructor
    · rintro ⟨w, id, hreached, rfl⟩
      rw [← Table.length_keys]
      cases hkeys : (w.ledger.lane id).receipts.keys with
      | nil => exact .inl rfl
      | cons s rest =>
        have hs : s ∈ (w.ledger.lane id).receipts.keys := hkeys ▸ List.mem_cons_self
        right
        rw [← hkeys]
        exact ⟨hreached.warranted.receipt id s (Table.mem_keys.mp hs),
          Sequence.length_le_of_nodup (Table.nodup_keys _)⟩
    · rintro (rfl | ⟨hcfg, hn⟩)
      · exact ⟨_, [], ⟨[], .opening (.ofRanges [] []) false, _, [], rfl, trivial, rfl⟩, rfl⟩
      · obtain ⟨w, hreached, hfilled⟩ := Inflow.exists_filled hcfg hn
        exact ⟨w, _, hreached, hfilled.size⟩

namespace Small

/-- The least limits that are sound: one of everything, and identifiers that are just long
enough for all channels. -/
def least : Config where
  relayerLimit := 1
  channelLimit := 1
  channelIdLimit := 28
  chainIdLimit := 1
  agentIdLimit := 1
  payloadLimit := 1
  pendingLimit := 1
  timeoutBlocks := 1
  retentionBlocks := 1
  pruneLimit := 1
  mappingLimit := 1
  managers := ([] : List Account)
  mappingAdmins := ([] : List Account)

theorem least_outgrown :
    least.unsound? = none ∧ ∀ bound < 18446744073709551616,
      ∃ w id, Reached least (fun _ _ => True) w ∧ bound < (w.ledger.lane id).receipts.size := by
  refine ⟨rfl, fun bound hbound => ?_⟩
  have hreceives : least.Receives := ⟨⟨⟨.root, rfl⟩, by decide, by decide⟩, by decide⟩
  obtain ⟨w, hreached, hfilled⟩ := Inflow.exists_filled hreceives (n := bound + 1) hbound
  refine ⟨w, Inflow.channel, hreached, ?_⟩
  rw [hfilled.size]
  exact Nat.lt_succ_self bound

end Small

end RelayLedger
