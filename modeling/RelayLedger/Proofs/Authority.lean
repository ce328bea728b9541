import RelayLedger.Proofs.ReplayGuard

/-!
Who may change what. The privileged origins open channels, start to close them, choose the
relayers and map agents; the trusted relayers confirm what the other chain did, bring packets in
and settle packets that were sent; anyone else can send, and clear away what is out of time.
Whatever a call is, and whatever it changes in a ledger, its origin had the authority for it.
Applications hand in no calls here, since those have origins of their own.
-/
namespace RelayLedger

open Reception

namespace Lane

/-- The state of the channel, if there is one. -/
def state (l : Lane) : Option ChannelState := l.channel.map Channel.state

/-- The number that the channel expects next, and the one of the next acknowledgement. -/
def tallies (l : Lane) : Option (Sequence × Sequence) :=
  l.sequences.map fun counts => (counts.recv, counts.ack)

/-- The number that the next packet gets. -/
def nextSend (l : Lane) : Option Sequence := l.sequences.map Sequences.send

/-- Each change from one lane to another was made with authority: `manager` and `relayer` say
whether it was made by an origin that manages channels, and by a trusted relayer. Commitments are
meant whose timeout is still to come, but for one under the number that is given out next. -/
structure Guarded (manager relayer : Prop) (now : Height) (l after : Lane) : Prop where
  known : after.channel.isSome = l.channel.isSome ∨ manager
  closing : after.state = some .closing → l.state = some .closing ∨ manager
  opened : after.state = some .opened → l.state = some .opened ∨ relayer
  closed : after.state = some .closed → l.state = some .closed ∨ relayer
  receipts : ∀ s r, after.receipts.get s = some r → l.receipts.get s = some r ∨ relayer
  tallies : l.channel ≠ none → after.tallies = l.tallies ∨ relayer
  archive : after.acks = l.acks ∧ after.retained = l.retained ∨ relayer
  commitments : ∀ s c, l.commitments.get s = some c → now < c.timeout → l.nextSend ≠ some s →
    after.commitments.get s = some c ∨ relayer

namespace Guarded

variable {manager relayer : Prop} {now : Height} {l : Lane}

theorem refl (l : Lane) : Guarded manager relayer now l l where
  known := .inl rfl
  closing := .inl
  opened := .inl
  closed := .inl
  receipts _ _ := .inl
  tallies _ := .inl rfl
  archive := .inl ⟨rfl, rfl⟩
  commitments _ _ hc _ _ := .inl hc

/-- A trusted relayer may change everything but which channels there are and which of them are
closing. -/
theorem of_relayer {after : Lane} (h : relayer)
    (hknown : after.channel.isSome = l.channel.isSome)
    (hclosing : after.state = some .closing → l.state = some .closing) :
    Guarded manager relayer now l after where
  known := .inl hknown
  closing hafter := .inl (hclosing hafter)
  opened _ := .inr h
  closed _ := .inr h
  receipts _ _ _ := .inr h
  tallies _ := .inr h
  archive := .inr h
  commitments _ _ _ _ _ := .inr h

/-- A channel that is opened gets a lane that nothing else was kept in but for old counts. -/
theorem opening (h : manager) (hfree : l.channel = none) (id chain counterparty : Bytes)
    (height : Height) :
    Guarded manager relayer now l
      (Lifecycle.opening (.created id chain counterparty height) l) where
  known := .inr h
  closing _ := .inr h
  opened hafter := by simp [state, Lifecycle.opening, Channel.created] at hafter
  closed hafter := by simp [state, Lifecycle.opening, Channel.created] at hafter
  receipts _ _ := .inl
  tallies hchannel := absurd hfree hchannel
  archive := .inl ⟨rfl, rfl⟩
  commitments _ _ hc _ _ := .inl hc

theorem commit {counts : Sequences} (hcounts : l.sequences = some counts) (pending : UInt32)
    (c : Commitment) : Guarded manager relayer now l ({ l with pending }.commit counts c) where
  known := .inl rfl
  closing := .inl
  opened := .inl
  closed := .inl
  receipts _ _ := .inl
  tallies _ := .inl (by simp [Lane.tallies, Lane.commit, hcounts, Sequences.afterSend])
  archive := .inl ⟨rfl, rfl⟩
  commitments s c' hc _ hother := by
    have hne : s ≠ counts.send := by
      rintro rfl
      exact hother (by rw [nextSend, hcounts, Option.map_some])
    exact .inl ((Table.get_set_of_ne _ _ hne).trans hc)

theorem release {s : Sequence} {c : Commitment} (hc : l.commitments.get s = some c)
    (hdue : c.timeout ≤ now) : Guarded manager relayer now l (l.release s) where
  known := .inl rfl
  closing := .inl
  opened := .inl
  closed := .inl
  receipts _ _ := .inl
  tallies _ := .inl rfl
  archive := .inl ⟨rfl, rfl⟩
  commitments other c' hc' hahead _ := by
    have hne : other ≠ s := by
      rintro rfl
      obtain rfl : c = c' := Option.some.inj (hc.symm.trans hc')
      exact absurd hahead (UInt32.not_lt.mpr hdue)
    exact .inl ((Table.get_set_of_ne _ _ hne).trans hc')

theorem prune (listed : List Sequence) :
    Guarded manager relayer now l
      { l with receipts := (Inbound.dropReceipts l.receipts listed).1 } where
  known := .inl rfl
  closing := .inl
  opened := .inl
  closed := .inl
  receipts s r hr := by
    rw [Inbound.get_dropReceipts] at hr
    split at hr
    · cases hr
    · exact .inl hr
  tallies _ := .inl rfl
  archive := .inl ⟨rfl, rfl⟩
  commitments _ _ hc _ _ := .inl hc

end Guarded

end Lane

/-- Each change that is kept of a chain was made with authority. -/
structure Peer.Guarded (manager admin : Prop) (p after : Peer) : Prop where
  channels : after.channels = p.channels ∨ manager
  agents : after.agents = p.agents ∧ after.mapped = p.mapped ∨ admin

theorem Peer.Guarded.refl {manager admin : Prop} (p : Peer) : Guarded manager admin p p :=
  ⟨.inl rfl, .inl ⟨rfl, rfl⟩⟩

namespace Ledger

/-- The origin is an account that is a trusted relayer now. -/
def Trusts (l : Ledger) (origin : Origin) : Prop :=
  ∃ who, origin = .signed who ∧ l.isTrusted who = true

/-- Each change from one ledger to another was one that the origin has the authority for. -/
structure Guarded (cfg : Config) (origin : Origin) (l after : Ledger) : Prop where
  counter : after.counter = l.counter ∨ cfg.isManager origin = true
  relayers : after.relayers = l.relayers ∨ cfg.isManager origin = true
  peers : ∀ chain, Peer.Guarded (cfg.isManager origin = true) (cfg.isMappingAdmin origin = true)
    (l.peer chain) (after.peer chain)
  lanes : ∀ id, Lane.Guarded (cfg.isManager origin = true) (l.Trusts origin) l.height
    (l.lane id) (after.lane id)

/-- What an account without any authority can do to a ledger: put one packet on its way on an
opened channel, give up a packet whose timeout has come, and drop receipts that are out of
time. -/
inductive Outsider (cfg : Config) (l : Ledger) : Ledger → Prop
  | nothing : Outsider cfg l l
  | send {id : Bytes} {channel : Channel} {counts : Sequences} {pending : UInt32}
      {c : Commitment} (hchannel : (l.lane id).channel = some channel)
      (hopen : channel.state = .opened) (hcounts : (l.lane id).sequences = some counts)
      (hpending : pending.toNat = (l.lane id).pending.toNat + 1) :
      Outsider cfg l (l.modifyLane id fun lane =>
        { lane with
          pending := pending
          sequences := some { counts with send := Sequence.next counts.send }
          commitments := lane.commitments.set counts.send (some c) })
  | timeOut {id : Bytes} {s : Sequence} {c : Commitment}
      (hcommitment : (l.lane id).commitments.get s = some c) (hdue : c.timeout ≤ l.height) :
      Outsider cfg l (l.modifyLane id fun lane =>
        { lane with
          pending := Capacity.decrement lane.pending
          commitments := lane.commitments.set s none })
  | prune {id : Bytes} {listed : List Sequence} {left : Table Sequence (Option Receipt)}
      (hdue : ∀ s ∈ listed, ∃ r, (l.lane id).receipts.get s = some r ∧
        r.timeout.after cfg.retentionBlocks ≤ l.height)
      (hleft : ∀ s, left.get s = if s ∈ listed then none else (l.lane id).receipts.get s) :
      Outsider cfg l (l.modifyLane id fun lane => { lane with receipts := left })

namespace Guarded

variable {cfg : Config} {origin : Origin} {l : Ledger} {id chain : Bytes}

theorem refl (l : Ledger) : Guarded cfg origin l l where
  counter := .inl rfl
  relayers := .inl rfl
  peers chain := .refl (l.peer chain)
  lanes id := .refl (l.lane id)

/-- A change of one lane has authority if it has it in that lane. -/
theorem of_lane {f : Lane → Lane}
    (h : Lane.Guarded (cfg.isManager origin = true) (l.Trusts origin) l.height (l.lane id)
      (f (l.lane id))) : Guarded cfg origin l (l.modifyLane id f) where
  counter := .inl rfl
  relayers := .inl rfl
  peers chain := .refl (l.peer chain)
  lanes other := by
    rw [lane_modifyLane]
    split
    · next hid =>
      rw [hid]
      exact h
    · exact .refl (l.lane other)

theorem of_peer {f : Peer → Peer}
    (h : Peer.Guarded (cfg.isManager origin = true) (cfg.isMappingAdmin origin = true)
      (l.peer chain) (f (l.peer chain))) : Guarded cfg origin l (l.modifyPeer chain f) where
  counter := .inl rfl
  relayers := .inl rfl
  peers other := by
    rw [peer_modifyPeer]
    split
    · next hchain =>
      rw [hchain]
      exact h
    · exact .refl (l.peer other)
  lanes id := .refl (l.lane id)

theorem of_relayers (h : cfg.isManager origin = true) (relayers : List Account) :
    Guarded cfg origin l (l.withRelayers relayers) where
  counter := .inl rfl
  relayers := .inr h
  peers chain := .refl (l.peer chain)
  lanes id := .refl (l.lane id)

theorem opened (h : cfg.isManager origin = true)
    (hfree : (l.lane (Channel.idOf l.counter)).channel = none) (counterparty : Bytes) :
    Guarded cfg origin l (l.opened chain counterparty) where
  counter := .inr h
  relayers := .inl rfl
  peers other := by
    rw [peer_opened]
    split
    · next hchain =>
      rw [hchain]
      exact ⟨.inr h, .inl ⟨rfl, rfl⟩⟩
    · exact .refl (l.peer other)
  lanes id := by
    rw [lane_opened]
    split
    · next hid =>
      rw [hid]
      exact .opening h hfree ..
    · exact .refl (l.lane id)

end Guarded

end Ledger

section

variable {cfg : Config} {w : World} {origin : Origin} {call : Call} {l : Ledger} {e : Event}

/-- A handshake step needs the authority for the state that it leads to. -/
theorem Lane.Guarded.enter {manager relayer : Prop} {lane : Lane} {channel : Channel}
    {taken : Handshake} {state : ChannelState} (hchannel : lane.channel = some channel)
    (hstate : channel.state.step taken = some state) (now : Height)
    (hmanager : taken = .startClose → manager) (hrelayer : taken ≠ .startClose → relayer) :
    Guarded manager relayer now lane { lane with channel := some (channel.enter state now) } := by
  have hafter : { lane with channel := some (channel.enter state now) }.state =
      some taken.target := by
    rw [Lane.state, Option.map_some, Channel.state_enter, ChannelState.target_of_step hstate]
  constructor
  case known =>
    left
    rw [hchannel]
    rfl
  case closing =>
    intro hclosing
    rw [hafter] at hclosing
    cases taken with
    | startClose => exact .inr (hmanager rfl)
    | confirmOpen | confirmClose => cases hclosing
  case opened =>
    intro hopened
    rw [hafter] at hopened
    cases taken with
    | confirmOpen => exact .inr (hrelayer nofun)
    | startClose | confirmClose => cases hopened
  case closed =>
    intro hclosed
    rw [hafter] at hclosed
    cases taken with
    | confirmClose => exact .inr (hrelayer nofun)
    | confirmOpen | startClose => cases hclosed
  case receipts =>
    intro s r hr
    exact .inl hr
  case tallies =>
    intro _
    exact .inl rfl
  case archive => exact .inl ⟨rfl, rfl⟩
  case commitments =>
    intro s c hc _ _
    exact .inl hc

theorem Effect.guarded (h : Effect cfg w origin call l e) : w.ledger.Guarded cfg origin l := by
  cases h with
  | openChannel hmanager _ _ _ hfree => exact .opened hmanager hfree _
  | @confirmOpen who _ _ _ htrusted _ hchannel hstate =>
    exact .of_lane (.enter hchannel hstate _ nofun fun _ => ⟨who, rfl, htrusted⟩)
  | startClose hmanager _ hchannel hstate =>
    exact .of_lane (.enter hchannel hstate _ (fun _ => hmanager) fun h => absurd rfl h)
  | @confirmClose who _ _ _ htrusted _ hchannel hstate =>
    exact .of_lane (.enter hchannel hstate _ nofun fun _ => ⟨who, rfl, htrusted⟩)
  | send _ _ _ _ _ _ _ _ _ _ hcounts => exact .of_lane (.commit hcounts _ _)
  | @acknowledge who _ _ _ _ htrusted =>
    apply Ledger.Guarded.of_lane
    rw [Lane.retain_eq]
    exact .of_relayer ⟨who, rfl, htrusted⟩ rfl id
  | timeOut _ hcommitment hdue => exact .of_lane (.release hcommitment hdue)
  | addRelayer hmanager => exact .of_relayers hmanager _
  | removeRelayer hmanager => exact .of_relayers hmanager _
  | mapAgent hadmin => exact .of_peer ⟨.inl rfl, .inr hadmin⟩
  | unmapAgent hadmin => exact .of_peer ⟨.inl rfl, .inr hadmin⟩
  | @prune _ _ listed => exact .of_lane (.prune listed)

/-- An account without any authority does nothing but what an outsider can do. -/
theorem Effect.outsider {who : Account} (h : Effect cfg w (.signed who) call l e)
    (hmanager : cfg.isManager (.signed who) = false)
    (hadmin : cfg.isMappingAdmin (.signed who) = false)
    (htrusted : w.ledger.isTrusted who = false) : w.ledger.Outsider cfg l := by
  cases h with
  | send _ _ _ _ hchannel hopen _ _ _ hpending hcounts =>
    exact .send hchannel hopen hcounts (Capacity.increment?_eq_some_iff.mp hpending).2
  | timeOut _ hcommitment hdue => exact .timeOut hcommitment hdue
  | prune _ hstale =>
    refine .prune (fun s hs => ?_) (Inbound.get_dropReceipts _)
    obtain ⟨r, hr, hdue⟩ := Inbound.checkStale_ok_iff.mp hstale s hs
    exact ⟨r, hr, of_decide_eq_true hdue⟩
  | openChannel h | startClose h | addRelayer h | removeRelayer h =>
    rw [h] at hmanager
    cases hmanager
  | mapAgent h | unmapAgent h =>
    rw [h] at hadmin
    cases hadmin
  | confirmOpen h | confirmClose h | acknowledge h =>
    rw [h] at htrusted
    cases htrusted

/-- What has an effect without either right is signed. -/
theorem Effect.signed_of_unprivileged (h : Effect cfg w origin call l e)
    (hmanager : cfg.isManager origin = false) (hadmin : cfg.isMappingAdmin origin = false) :
    ∃ who, origin = .signed who := by
  cases h with
  | openChannel h | startClose h | addRelayer h | removeRelayer h =>
    rw [h] at hmanager
    cases hmanager
  | mapAgent h | unmapAgent h =>
    rw [h] at hadmin
    cases hadmin
  | @confirmOpen who | @confirmClose who | @send who | @acknowledge who | @timeOut who
  | @prune who => exact ⟨who, rfl⟩

end

theorem Ledger.Guarded.receipted {cfg : Config} {l : Ledger} {who : Account}
    (h : l.isTrusted who = true) (p : Packet) (ack : Acknowledgement)
    (deliveries : List Delivery) :
    l.Guarded cfg (.signed who)
      { Reception.receipted l l.height p ack with deliveries := deliveries } := by
  have hlane : l.Guarded cfg (.signed who) (Reception.receipted l l.height p ack) :=
    .of_lane (.of_relayer ⟨who, rfl, h⟩ rfl id)
  exact ⟨hlane.counter, hlane.relayers, hlane.peers, hlane.lanes⟩

/-- Whatever a call changes, its origin has the authority for it. What an account without any
authority changes is one thing at most of those that an outsider can do, and a call that nobody
signed changes nothing where its origin has neither right. -/
theorem changes_authorized (cfg : Config) {w : World} (hquiet : w.host.Quiet) (origin : Origin)
    (s : Submission) :
    w.ledger.Guarded cfg origin (w.take cfg (.call origin s)).2.ledger ∧
      (∀ who, origin = .signed who → cfg.isManager origin = false →
        cfg.isMappingAdmin origin = false → w.ledger.isTrusted who = false →
        w.ledger.Outsider cfg (w.take cfg (.call origin s)).2.ledger) ∧
      ((∀ who, origin ≠ .signed who) → cfg.isManager origin = false →
        cfg.isMappingAdmin origin = false → (w.take cfg (.call origin s)).2.ledger = w.ledger ∧
        (w.take cfg (.call origin s)).2.chronicle = w.chronicle) := by
  have hcall := take_quietCall cfg hquiet origin s
  generalize (w.take cfg (.call origin s)).2 = after at hcall ⊢
  cases hcall with
  | refused host => exact ⟨.refl _, fun _ _ _ _ _ => .nothing, fun _ _ _ => ⟨rfl, rfl⟩⟩
  | call host _ _ heffect =>
    refine ⟨heffect.guarded, ?_, ?_⟩
    · rintro who rfl hmanager hadmin htrusted
      exact heffect.outsider hmanager hadmin htrusted
    · intro hunsigned hmanager hadmin
      obtain ⟨who, hsigned⟩ := heffect.signed_of_unprivileged hmanager hadmin
      exact absurd hsigned (hunsigned who)
  | @receive who _ p _ _ ack deliveries host _ _ hadmitted =>
    refine ⟨.receipted hadmitted.trusted p ack deliveries, ?_, ?_⟩
    · rintro _ ⟨rfl⟩ - - hnot
      rw [hadmitted.trusted] at hnot
      cases hnot
    · intro hunsigned
      exact absurd rfl (hunsigned who)

namespace Small

/-- A ledger that has sent one packet. -/
def sent : World := first.after cfg (opening ++ [.call (.signed 1) sending])

/-- A stranger tries to have the packet taken for acknowledged. -/
def forgery : Step := .call (.signed 2) (.value (.acknowledge channel 1 .ok))

theorem forgery_in_vain :
    sent.host.Quiet ∧ ∃ c, (sent.ledger.lane channel).commitments.get 1 = some c ∧
      ((sent.take cfg forgery).2.ledger.lane channel).commitments.get 1 = some c := by
  have hquiet : sent.host.Quiet := quiet_of_accepting (fun _ => 0) rfl
  obtain ⟨hguarded, -, -⟩ :=
    changes_authorized cfg hquiet (.signed 2) (.value (.acknowledge channel 1 .ok))
  obtain ⟨c, hc⟩ : ∃ c, (sent.ledger.lane channel).commitments.get 1 = some c := ⟨_, rfl⟩
  have hahead : sent.ledger.height < c.timeout := by
    cases hc
    decide
  refine ⟨hquiet, c, hc, ?_⟩
  rcases (hguarded.lanes channel).commitments 1 c hc hahead (by decide) with hkept | htrusts
  · exact hkept
  · obtain ⟨who, hwho, htrusted⟩ := htrusts
    cases hwho
    exact absurd htrusted (by decide)

/-- A world with other counts on its channel. -/
def recounted (w : World) (counts : Sequences) : World :=
  { w with ledger := w.ledger.modifyLane channel fun l => { l with sequences := some counts } }

/-- A ledger at the end of the numbering of its channel, with the last number taken. -/
def exhausted : World :=
  (recounted (first.after cfg opening) ⟨18446744073709551615, 1, 1⟩).after cfg
    [.call (.signed 1) sending, .reach 2]

/-- A runtime that lets everybody open channels. -/
def anybody : Config := { cfg with managers := ⟨fun _ => true, none⟩ }

/-- Two changes by origins that are no trusted relayers: a channel that is opened where counts
were left starts them afresh, and at the end of the numbering a packet takes the place of one
that is still to be answered. And where the right to open channels is everybody's, an unsigned
call opens one. -/
theorem unauthorized_changes :
    ¬(∀ (w : World) (origin : Origin) (s : Submission) (id : Bytes), w.host.Quiet →
        ((w.take cfg (.call origin s)).2.ledger.lane id).tallies = (w.ledger.lane id).tallies ∨
          w.ledger.Trusts origin) ∧
      (¬∀ (w : World) (origin : Origin) (s : Submission) (id : Bytes) (n : Sequence)
        (c : Commitment), w.host.Quiet → (w.ledger.lane id).commitments.get n = some c →
        w.ledger.height < c.timeout →
        ((w.take cfg (.call origin s)).2.ledger.lane id).commitments.get n = some c ∨
          w.ledger.Trusts origin) ∧
      ¬∀ (w : World) (s : Submission), w.host.Quiet →
        (w.take anybody (.call .unsigned s)).2.ledger = w.ledger := by
  refine ⟨?_, ?_, ?_⟩
  · intro hall
    have hquiet : (recounted first ⟨1, 5, 1⟩).host.Quiet := quiet_of_accepting (fun _ => 0) rfl
    rcases hall _ .root (.value (.openChannel [1] [2])) channel hquiet with hkept | htrusts
    · exact absurd hkept (by decide +kernel)
    · obtain ⟨who, hwho, -⟩ := htrusts
      cases hwho
  · intro hall
    have hquiet : exhausted.host.Quiet := quiet_of_accepting (fun _ => 0) rfl
    rcases hall _ (.signed 2) sending channel 18446744073709551615 _ hquiet rfl (by decide)
      with hkept | htrusts
    · -- the two packets differ in their timeouts already
      have htimeout := congrArg (Option.map Commitment.timeout) hkept
      exact absurd htimeout (by decide +kernel)
    · obtain ⟨who, hwho, htrusted⟩ := htrusts
      cases hwho
      exact absurd htrusted (by decide)
  · intro hall
    have hquiet : first.host.Quiet := quiet_of_accepting (fun _ => 0) rfl
    have hsame := hall first (.value (.openChannel [1] [2])) hquiet
    exact absurd (congrArg Ledger.counter hsame) (by decide +kernel)

end Small

end RelayLedger
