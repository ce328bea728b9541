import RelayLedger.Proofs.Runs

/-!
The life of a channel. What a channel was created as never changes, and no channel goes away.
What does change is its state, by one handshake step after another; so the steps that were
taken on a channel tell in which state it is and when it was opened and closed. Packets move
only between the confirmation of its opening and the start of its close.
-/
namespace RelayLedger

open Reception

namespace Channel

/-- The channel as it was when it was created. -/
def asCreated (c : Channel) : Channel := .created c.id c.chain c.counterparty c.createdAt

theorem asCreated_enter (c : Channel) (state : ChannelState) (now : Height) :
    (c.enter state now).asCreated = c.asCreated := by
  simp [asCreated]

/-- What a call does to the channel under an identifier, in a block of height `now`: it leaves
it, creates it, or takes a step of its handshake. -/
inductive Turn (now : Height) : Option Channel → Option Handshake → Option Channel → Prop
  | idle (slot : Option Channel) : Turn now slot none slot
  | opening (id chain counterparty : Bytes) :
      Turn now none none (some (.created id chain counterparty now))
  | taken {c : Channel} {step : Handshake} {state : ChannelState}
      (hstate : c.state.step step = some state) :
      Turn now (some c) (some step) (some (c.enter state now))

theorem Turn.asCreated_eq {now : Height} {before after : Option Channel} {step : Option Handshake}
    (h : Turn now before step after) {c : Channel} (hc : before.map asCreated = some c) :
    after.map asCreated = some c := by
  cases h with
  | idle => exact hc
  | opening => cases hc
  | taken => rwa [Option.map_some, asCreated_enter]

/-- The states that the steps taken on a channel led it through. -/
def statesOf (past : List (Handshake × Height)) : List ChannelState :=
  .init :: past.map fun (step, _) => step.target

section

variable (id chain counterparty : Bytes) (createdAt : Height)

/-- The lives that a channel can have had: the steps that were taken on it, each with its
block, and the channel that they made of it. -/
inductive Life : List (Handshake × Height) → Channel → Prop
  | created : Life [] ⟨id, chain, counterparty, .init, createdAt, none, none⟩
  | opened (t : Height) :
      Life [(.confirmOpen, t)] ⟨id, chain, counterparty, .opened, createdAt, some t, none⟩
  | closing (t u : Height) :
      Life [(.confirmOpen, t), (.startClose, u)]
        ⟨id, chain, counterparty, .closing, createdAt, some t, none⟩
  | closed (t u v : Height) :
      Life [(.confirmOpen, t), (.startClose, u), (.confirmClose, v)]
        ⟨id, chain, counterparty, .closed, createdAt, some t, some v⟩
  | closingUnopened (u : Height) :
      Life [(.startClose, u)] ⟨id, chain, counterparty, .closing, createdAt, none, none⟩
  | closedUnopened (u v : Height) :
      Life [(.startClose, u), (.confirmClose, v)]
        ⟨id, chain, counterparty, .closed, createdAt, none, some v⟩

end

namespace Life

variable {id chain counterparty : Bytes} {createdAt now : Height}
  {past : List (Handshake × Height)} {c : Channel}

/-- A step that is legal continues a life. -/
theorem step (h : Life id chain counterparty createdAt past c) {taken : Handshake}
    {state : ChannelState} (hstate : c.state.step taken = some state) (now : Height) :
    Life id chain counterparty createdAt (past ++ [(taken, now)]) (c.enter state now) := by
  cases h with
  | created =>
    cases taken with
    | confirmOpen =>
      cases hstate
      exact .opened now
    | startClose =>
      cases hstate
      exact .closingUnopened now
    | confirmClose => cases hstate
  | opened t =>
    cases taken with
    | startClose =>
      cases hstate
      exact .closing t now
    | confirmOpen | confirmClose => cases hstate
  | closing t u =>
    cases taken with
    | confirmClose =>
      cases hstate
      exact .closed t u now
    | confirmOpen | startClose => cases hstate
  | closingUnopened u =>
    cases taken with
    | confirmClose =>
      cases hstate
      exact .closedUnopened u now
    | confirmOpen | startClose => cases hstate
  | closed | closedUnopened => cases taken <;> cases hstate

/-- No life goes back, and one that skips a state skips the opened one. -/
theorem path (h : Life id chain counterparty createdAt past c) :
    statesOf past <+: [.init, .opened, .closing, .closed] ∨
      statesOf past <+: [.init, .closing, .closed] := by
  cases h with
  | created | opened | closing | closed =>
    left
    exact ⟨_, rfl⟩
  | closingUnopened | closedUnopened =>
    right
    exact ⟨_, rfl⟩

theorem current (h : Life id chain counterparty createdAt past c) :
    (statesOf past).getLast? = some c.state := by
  cases h <;> rfl

theorem openedAt_iff (h : Life id chain counterparty createdAt past c) (t : Height) :
    c.openedAt = some t ↔ (.confirmOpen, t) ∈ past := by
  cases h <;> simp [eq_comm]

theorem closedAt_iff (h : Life id chain counterparty createdAt past c) (t : Height) :
    c.closedAt = some t ↔ (.confirmClose, t) ∈ past := by
  cases h <;> simp [eq_comm]

theorem opened_iff (h : Life id chain counterparty createdAt past c) :
    c.openedAt.isSome ↔ .opened ∈ statesOf past := by
  cases h <;> simp [statesOf, Handshake.target]

theorem closed_iff (h : Life id chain counterparty createdAt past c) :
    c.closedAt.isSome ↔ c.state = .closed := by
  cases h <;> simp

/-- No step is taken twice. -/
theorem once (h : Life id chain counterparty createdAt past c) : (past.map Prod.fst).Nodup := by
  cases h <;> simp

/-- The blocks that a channel is stamped with are those of its steps, in their order. -/
theorem stamps_sublist (h : Life id chain counterparty createdAt past c) :
    (c.openedAt.toList ++ c.closedAt.toList).Sublist (past.map Prod.snd) := by
  cases h <;> simp

/-- A channel that is opened has had its opening confirmed, and its close was not started. -/
theorem of_opened (h : Life id chain counterparty createdAt past c) (hopened : c.state = .opened) :
    .confirmOpen ∈ past.map Prod.fst ∧ .startClose ∉ past.map Prod.fst := by
  cases h with
  | opened => simp
  | created | closing | closed | closingUnopened | closedUnopened => cases hopened

end Life

/-- The channel under an identifier, if there is one, has had the life that the steps taken on
it tell, in blocks of which none came after a later one, and none after `now`. -/
structure Traced (now : Height) (slot : Option Channel) (past : List (Handshake × Height)) :
    Prop where
  uncreated : slot = none → past = []
  life : ∀ c, slot = some c → Life c.id c.chain c.counterparty c.createdAt past c
  ordered : ∀ c, slot = some c →
    (c.createdAt :: past.map Prod.snd ++ [now]).Pairwise (· ≤ ·)

namespace Traced

variable {now : Height} {slot : Option Channel} {past : List (Handshake × Height)}

theorem none (now : Height) : Traced now none [] where
  uncreated _ := rfl
  life _ h := by cases h
  ordered _ h := by cases h

theorem pairwise_concat {ts : List Height} (h : (ts ++ [now]).Pairwise (· ≤ ·)) {later : Height}
    (hle : now ≤ later) : (ts ++ [now] ++ [later]).Pairwise (· ≤ ·) := by
  rw [List.pairwise_append]
  refine ⟨h, List.pairwise_singleton _ _, ?_⟩
  intro t ht u hu
  rw [List.mem_singleton.mp hu]
  rw [List.pairwise_append] at h
  rcases List.mem_append.mp ht with hold | hnow
  · exact UInt32.le_trans (h.2.2 t hold now (List.mem_singleton.mpr rfl)) hle
  · rw [List.mem_singleton.mp hnow]
    exact hle

theorem later (h : Traced now slot past) {height : Height} (hle : now ≤ height) :
    Traced height slot past where
  uncreated := h.uncreated
  life := h.life
  ordered c hc := by
    have hsub : (c.createdAt :: past.map Prod.snd ++ [height]).Sublist
        (c.createdAt :: past.map Prod.snd ++ [now] ++ [height]) :=
      (List.sublist_append_left _ _).append (List.Sublist.refl _)
    exact (pairwise_concat (h.ordered c hc) hle).sublist hsub

/-- What a call does to a channel continues its life in the block of the call. -/
theorem turn (h : Traced now slot past) {step : Option Handshake} {after : Option Channel}
    (hturn : Turn now slot step after) :
    Traced now after (past ++ (step.map fun step => (step, now)).toList) := by
  cases hturn with
  | idle => simpa using h
  | opening id chain counterparty =>
    rw [h.uncreated rfl]
    constructor
    case uncreated => exact nofun
    case life =>
      rintro _ ⟨rfl⟩
      exact .created
    case ordered =>
      rintro _ ⟨rfl⟩
      simp [created]
  | @taken c step state hstate =>
    have hlife := (h.life c rfl).step hstate now
    have hordered := pairwise_concat (h.ordered c rfl) (UInt32.le_refl now)
    constructor
    case uncreated => exact nofun
    case life =>
      rintro _ ⟨rfl⟩
      simpa using hlife
    case ordered =>
      rintro _ ⟨rfl⟩
      simpa using hordered

end Traced

end Channel

/-! The steps that were taken on the channels of a ledger. -/

/-- The step of a channel's handshake that a call takes. -/
def Call.stepOn (id : Bytes) : Call → Option Handshake
  | .confirmOpen channel => if channel = id then some .confirmOpen else none
  | .startClose channel => if channel = id then some .startClose else none
  | .confirmClose channel => if channel = id then some .confirmClose else none
  | _ => none

def Deed.stepOn (id : Bytes) (d : Deed) : Option (Handshake × Height) :=
  (d.call.stepOn id).map fun step => (step, d.height)

/-- The steps that were taken on a channel, each with its block, oldest first. -/
def Chronicle.handshakes (c : Chronicle) (id : Bytes) : List (Handshake × Height) :=
  c.deeds.filterMap (Deed.stepOn id)

/-- The states that a channel has been in, oldest first. -/
def Chronicle.states (c : Chronicle) (id : Bytes) : List ChannelState :=
  Channel.statesOf (c.handshakes id)

theorem World.handshakes_book (w : World) (origin : Origin) (call : Call) (l : Ledger) (e : Event)
    (id : Bytes) :
    (w.book origin call l e).chronicle.handshakes id =
      w.chronicle.handshakes id ++ ((call.stepOn id).map fun step => (step, l.height)).toList := by
  rw [Chronicle.handshakes, World.deeds_book, List.filterMap_append, Chronicle.handshakes]
  cases h : call.stepOn id <;> simp [Deed.stepOn, h]

/-- The channel of a lane as it was created. -/
def Lane.founded (l : Lane) : Option Channel := l.channel.map Channel.asCreated

section

variable {cfg : Config} {w : World} {origin : Origin} {call : Call} {l : Ledger} {e : Event}

theorem Effect.channel_turn (h : Effect cfg w origin call l e) (id : Bytes) :
    Channel.Turn w.ledger.height (w.ledger.lane id).channel (call.stepOn id)
      (l.lane id).channel := by
  cases h with
  | @openChannel _ chain counterparty _ _ _ _ hfree =>
    rw [Ledger.lane_opened]
    split
    · next hid =>
      rw [hid, hfree]
      exact .opening _ _ _
    · exact .idle _
  | @confirmOpen _ target _ _ _ _ hchannel hstate | @startClose _ target _ _ _ _ hchannel hstate
  | @confirmClose _ target _ _ _ _ hchannel hstate =>
    rw [Ledger.lane_modifyLane]
    by_cases hid : id = target
    · rw [if_pos hid, hid, hchannel, Call.stepOn, if_pos rfl]
      exact .taken hstate
    · rw [if_neg hid, Call.stepOn, if_neg (Ne.symm hid)]
      exact .idle _
  | addRelayer | removeRelayer | mapAgent | unmapAgent => exact .idle _
  | @acknowledge _ target =>
    rw [Ledger.lane_modifyLane]
    split
    · next hid =>
      rw [hid, Lane.retain_eq]
      exact .idle _
    · exact .idle _
  | send | timeOut | prune =>
    rw [Ledger.lane_modifyLane]
    split
    · next hid =>
      rw [hid]
      exact .idle _
    · exact .idle _

/-- Receiving a packet leaves every channel as it was. -/
theorem Reception.channel_receipted (l : Ledger) (now : Height) (p : Packet)
    (ack : Acknowledgement) (id : Bytes) :
    ((receipted l now p ack).lane id).channel = (l.lane id).channel := by
  rw [receipted, Ledger.lane_modifyLane]
  split
  · next hid =>
    rw [hid]
    rfl
  · rfl

/-- What a channel was created as stays for good. -/
theorem kept_founded (cfg : Config) (id : Bytes) (c : Channel) :
    Kept cfg (fun _ => True) fun w => (w.ledger.lane id).founded = some c where
  host _ h := h
  height _ h := h
  deliver _ h := h
  call _ h heffect := (heffect.channel_turn id).asCreated_eq h
  receive {w} _ p _ ack _ h := by
    rw [Lane.founded, World.book, channel_receipted]
    exact h

/-- The steps that were taken on a channel stay taken. -/
theorem kept_past (cfg : Config) (id : Bytes) (past : List (Handshake × Height)) :
    Kept cfg (fun _ => True) fun w => past <+: w.chronicle.handshakes id where
  host _ h := h
  height _ h := h
  deliver _ h := h
  call {w origin call l e} _ h _ := by
    rw [World.handshakes_book]
    exact h.trans (List.prefix_append _ _)
  receive {w} who p agent ack _ h := by
    rw [World.handshakes_book]
    exact h.trans (List.prefix_append _ _)

/-- The channel under an identifier is traced by the steps that were taken on it. -/
def World.Traced (id : Bytes) (now : Height) (w : World) : Prop :=
  Channel.Traced now (w.ledger.lane id).channel (w.chronicle.handshakes id)

theorem kept_traced (cfg : Config) (id : Bytes) (height : Height) :
    Kept cfg (· = height) (World.Traced id height) where
  host _ h := h
  height _ h := h
  deliver _ h := h
  call {w origin call l e} hheight h heffect := by
    have hturn := heffect.channel_turn id
    rw [hheight] at hturn
    unfold World.Traced
    rw [World.handshakes_book, heffect.height_eq, hheight]
    exact h.turn hturn
  receive {w} who p agent ack _ h := by
    unfold World.Traced
    have hnone : (Call.receive p).stepOn id = none := rfl
    rw [World.handshakes_book, World.book, channel_receipted, hnone, Option.map_none,
      Option.toList_none, List.append_nil]
    exact h

theorem Reached.traced (h : Reached cfg Step.Onward w) (id : Bytes) :
    w.Traced id w.ledger.height := by
  apply h.onward (P := World.Traced id)
  · exact fun _ _ => .none _
  · exact kept_traced cfg id
  · intro w height height' htraced hle
    exact htraced.later hle

/-- What the fields of a channel tell of its life. -/
structure World.Lifetime (w : World) (id : Bytes) (c : Channel) : Prop where
  /-- No state comes back, and the only one that can be skipped is the opened one. -/
  path : w.chronicle.states id <+: [.init, .opened, .closing, .closed] ∨
    w.chronicle.states id <+: [.init, .closing, .closed]
  current : (w.chronicle.states id).getLast? = some c.state
  once : ((w.chronicle.handshakes id).map Prod.fst).Nodup
  opened : c.openedAt.isSome ↔ .opened ∈ w.chronicle.states id
  closed : c.closedAt.isSome ↔ c.state = .closed
  openedAt : ∀ t, c.openedAt = some t ↔ (.confirmOpen, t) ∈ w.chronicle.handshakes id
  closedAt : ∀ t, c.closedAt = some t ↔ (.confirmClose, t) ∈ w.chronicle.handshakes id
  /-- It is created, opened and closed in this order, as far as it is, and all of it by now. -/
  ordered : (c.createdAt :: (c.openedAt.toList ++ c.closedAt.toList) ++
    [w.ledger.height]).Pairwise (· ≤ ·)

theorem World.Traced.lifetime {id : Bytes} {c : Channel} (h : w.Traced id w.ledger.height)
    (hc : (w.ledger.lane id).channel = some c) : w.Lifetime id c := by
  have hlife := h.life c hc
  constructor
  case path => exact hlife.path
  case current => exact hlife.current
  case once => exact hlife.once
  case opened => exact hlife.opened_iff
  case closed => exact hlife.closed_iff
  case openedAt => exact hlife.openedAt_iff
  case closedAt => exact hlife.closedAt_iff
  case ordered =>
    refine List.Pairwise.sublist ?_ (h.ordered c hc)
    exact (hlife.stamps_sublist.cons_cons c.createdAt).append (List.Sublist.refl _)

end

/-! The channels in all worlds of a run. -/

/-- A world of a run at one of its positions: the one in which the step is taken, or one in which
a call is carried out that is nested in the step. -/
def Within (cfg : Config) (first : World) (steps : List Step) (i : Nat) (w : World) : Prop :=
  w = first.stage cfg steps i ∨ ∃ step origin call outcome, steps[i]? = some step ∧
    (first.stage cfg steps i).Carries cfg step origin call w outcome

/-- A call sends a packet on a channel or brings one in. -/
def Call.movesOn (id : Bytes) : Call → Bool
  | .send channel .. => channel = id
  | .receive p => p.target = id
  | _ => false

section

variable {cfg : Config} {may : World → Step → Prop} {first w mid : World} {steps : List Step}
  {i j : Nat} {id : Bytes} {c : Channel}

theorem Within.proceeds (h : Within cfg first steps i w) :
    Proceeds cfg (first.stage cfg steps i) w := by
  rcases h with rfl | ⟨_, _, _, _, _, hcarries⟩
  · exact .refl _
  · exact hcarries.proceeds

/-- What is kept at the heights at which calls are made is kept from one position of a run to a
later one. -/
theorem Kept.throughout {fine : Height → Prop} {P : World → Prop} (hkept : Kept cfg fine P)
    (hfine : ∀ w origin s, may w (.call origin s) → fine w.ledger.height)
    (hfollows : Follows cfg may first steps) (hij : i ≤ j) (hP : P (first.stage cfg steps i))
    (h : Within cfg first steps j w) : P w := by
  have hstage : P (first.stage cfg steps j) := by
    clear h
    induction hij with
    | refl => exact hP
    | @step j _ ih =>
      rw [World.stage_succ]
      cases hj : steps[j]? with
      | none => exact ih
      | some step =>
        have hmay := hfollows.may_at hj
        exact hkept.take (fun origin s hstep => hfine _ origin s (hstep ▸ hmay)) ih
  rcases h with rfl | ⟨step, origin, call, outcome, hj, hcarries⟩
  · exact hstage
  · have hproceeds := hcarries.proceeds
    obtain ⟨caller, outer, _, _, rfl, _⟩ := hcarries
    exact hkept.proceeds hproceeds (hfine _ caller outer (hfollows.may_at hj)) hstage

/-- What is kept whatever happens is kept from one position of a run to a later one. -/
theorem Kept.within {P : World → Prop} (hkept : Kept cfg (fun _ => True) P) (hij : i ≤ j)
    (hP : P (first.stage cfg steps i)) (h : Within cfg first steps j w) : P w := by
  have hall : Follows cfg (fun _ _ => True) first steps := follows_of_forall fun _ _ => trivial
  exact hkept.throughout (fun _ _ _ _ => trivial) hall hij hP h

theorem Within.traced (hreached : Reached cfg Step.Onward (first.stage cfg steps i))
    (h : Within cfg first steps i w) (id : Bytes) : w.Traced id w.ledger.height := by
  rw [h.proceeds.height_eq]
  exact (kept_traced cfg id _).proceeds h.proceeds rfl (hreached.traced id)

/-- A packet moves on a channel only while it is opened. -/
theorem World.Carries.opened {step : Step} {origin : Origin} {call : Call}
    (h : w.Carries cfg step origin call mid (.ok ())) (hmoves : call.movesOn id = true) :
    ∃ c, (mid.ledger.lane id).channel = some c ∧ c.state = .opened := by
  cases call with
  | send channel chain counterparty agent payload =>
    obtain rfl : channel = id := of_decide_eq_true hmoves
    obtain ⟨l, e, heffect⟩ := h.effect (by simp)
    cases heffect with
    | send _ _ _ _ hchannel hopen => exact ⟨_, hchannel, hopen⟩
  | receive p =>
    obtain rfl : p.target = id := of_decide_eq_true hmoves
    obtain ⟨who, c, -, hadmitted⟩ := h.admitted
    exact ⟨c, hadmitted.channel_eq, hadmitted.opened⟩
  | _ => cases hmoves

/-- Throughout a run a channel that was created stays, with its identifier, its counterparty and
the block of its creation. Its states follow one another in their order, it is stamped with the
blocks of its confirmations, and packets move on it only when its opening was confirmed and its
close was not started. -/
theorem channel_lifetime {relayers : List Account} {host : Host}
    (hgenesis : World.genesis? cfg relayers host = some first)
    (h : Follows cfg Step.Onward first steps) (id : Bytes) :
    (∀ i w c, Within cfg first steps i w → (w.ledger.lane id).channel = some c →
      w.Lifetime id c) ∧
    (∀ i j w c, i ≤ j → ((first.stage cfg steps i).ledger.lane id).channel = some c →
      Within cfg first steps j w →
      ∃ d, (w.ledger.lane id).channel = some d ∧ d.id = c.id ∧ d.chain = c.chain ∧
        d.counterparty = c.counterparty ∧ d.createdAt = c.createdAt ∧
        (first.stage cfg steps i).chronicle.states id <+: w.chronicle.states id ∧
        (∀ t, c.openedAt = some t → d.openedAt = some t) ∧
        ∀ t, c.closedAt = some t → d.closedAt = some t) ∧
    ∀ i step origin call mid, steps[i]? = some step →
      (first.stage cfg steps i).Carries cfg step origin call mid (.ok ()) →
      call.movesOn id = true →
      .confirmOpen ∈ (mid.chronicle.handshakes id).map Prod.fst ∧
        .startClose ∉ (mid.chronicle.handshakes id).map Prod.fst := by
  refine ⟨?_, ?_, ?_⟩
  · intro i w c hw hc
    exact (hw.traced (h.reached hgenesis i) id).lifetime hc
  · intro i j w c hij hc hw
    have hfounded : (w.ledger.lane id).founded = some c.asCreated := by
      refine (kept_founded cfg id c.asCreated).within hij ?_ hw
      rw [Lane.founded, hc, Option.map_some]
    have hpast := (kept_past cfg id _).within hij (List.prefix_refl _) hw
    obtain ⟨d, hd, heq⟩ := Option.map_eq_some_iff.mp hfounded
    simp only [Channel.asCreated, Channel.created, Channel.mk.injEq, true_and, and_true] at heq
    obtain ⟨hid, hchain, hcounterparty, hcreatedAt⟩ := heq
    have hbefore := ((h.reached hgenesis i).traced id).lifetime hc
    have hafter := (hw.traced (h.reached hgenesis j) id).lifetime hd
    refine ⟨d, hd, hid, hchain, hcounterparty, hcreatedAt, ?_, ?_, ?_⟩
    · exact List.cons_prefix_cons.mpr ⟨rfl, hpast.map _⟩
    · intro t ht
      exact (hafter.openedAt t).mpr (hpast.subset ((hbefore.openedAt t).mp ht))
    · intro t ht
      exact (hafter.closedAt t).mpr (hpast.subset ((hbefore.closedAt t).mp ht))
  · intro i step origin call mid hi hcarries hmoves
    obtain ⟨c, hc, hopened⟩ := hcarries.opened hmoves
    have hwithin : Within cfg first steps i mid := .inr ⟨step, origin, call, _, hi, hcarries⟩
    have htraced := hwithin.traced (h.reached hgenesis i) id
    exact (htraced.life c hc).of_opened hopened

end

namespace Small

/-- A channel is opened, sends a packet, and is closed, at different heights. -/
def wholeLife : List Step :=
  [.reach 1, .call .root (.value (.openChannel [1] [2])), .reach 2,
    .call (.signed 10) (.value (.confirmOpen channel)), .call (.signed 1) sending, .reach 5,
    .call .root (.value (.startClose channel)), .reach 9,
    .call (.signed 10) (.value (.confirmClose channel))]

theorem wholeLife_follows : Follows cfg Step.Onward first wholeLife :=
  ⟨show (0 : Height) ≤ 1 by decide, trivial, show (1 : Height) ≤ 2 by decide, trivial, trivial,
    show (2 : Height) ≤ 5 by decide, trivial, show (5 : Height) ≤ 9 by decide, trivial, trivial⟩

theorem wholeLife_told :
    Follows cfg Step.Onward first wholeLife ∧
      (first.stage cfg wholeLife 9).chronicle.states channel =
        [.init, .opened, .closing, .closed] ∧
      (∃ c, ((first.stage cfg wholeLife 9).ledger.lane channel).channel = some c ∧
        c.createdAt = 1 ∧ c.openedAt = some 2 ∧ c.closedAt = some 9) ∧
      .startClose ∉ ((first.stage cfg wholeLife 4).chronicle.handshakes channel).map Prod.fst := by
  obtain ⟨hlife, hkept, hmoves⟩ := channel_lifetime genesis_eq wholeLife_follows channel
  have hcreated : ((first.stage cfg wholeLife 2).ledger.lane channel).channel =
      some (.created channel [1] [2] 1) := rfl
  obtain ⟨c, hc, -, -, -, hcreatedAt, -⟩ := hkept 2 9 _ _ (by decide) hcreated (.inl rfl)
  have hlifetime := hlife 9 _ c (.inl rfl) hc
  have hopenedAt := (hlifetime.openedAt 2).mpr (by decide +kernel)
  have hclosedAt := (hlifetime.closedAt 9).mpr (by decide +kernel)
  have hsent : (first.stage cfg wholeLife 4).Carries cfg (.call (.signed 1) sending) (.signed 1)
      (.send channel [1] [2] none (.raw [7])) (first.stage cfg wholeLife 4) (.ok ()) :=
    ⟨_, _, _, _, rfl, .outside, rfl, rfl⟩
  exact ⟨wholeLife_follows, rfl, ⟨c, hc, hcreatedAt, hopenedAt, hclosedAt⟩,
    (hmoves 4 _ _ _ _ rfl hsent rfl).2⟩

end Small

end RelayLedger
