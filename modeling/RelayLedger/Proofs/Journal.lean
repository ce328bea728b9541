import Mathlib.Data.List.Forall2
import RelayLedger.Proofs.Lifetime

/-!
The events of a ledger as a journal. Whoever follows the events from the first relayers on, and
nothing else, knows the channels with their states, which of them stand under which chain, the
relayers, and the agents that are mapped. A call that takes effect tells one event of its own,
after those of the calls nested in it; a failed one tells none.
-/
namespace RelayLedger

open Reception

/-- Where a channel leads, and how far its handshake is. -/
structure Standing where
  chain : Bytes
  counterparty : Bytes
  state : ChannelState
  deriving DecidableEq

def Channel.standing (c : Channel) : Standing := ⟨c.chain, c.counterparty, c.state⟩

/-- What the events tell of a ledger. -/
structure Replica where
  /-- How many channels were opened. -/
  opened : Nat
  channels : Table Bytes (Option Standing)
  /-- The channels towards each chain, in order of creation. -/
  listed : Table Bytes (List Bytes)
  relayers : List Account
  agents : Table Bytes (Table Bytes (Option AgentId))
  deriving DecidableEq

namespace Replica

/-- A replica of a ledger that trusts some relayers and has nothing else. -/
def start (relayers : List Account) : Replica := ⟨0, .empty, .empty, relayers, .empty⟩

/-- The replica with a channel in another state. -/
def enter (r : Replica) (id : Bytes) (state : ChannelState) : Replica :=
  { r with channels := r.channels.modify id (Option.map fun s => { s with state }) }

/-- The replica with a remote agent that stands for another local one, or for none. -/
def assign (r : Replica) (chain remote : Bytes) (agent : Option AgentId) : Replica :=
  { r with agents := r.agents.modify chain fun agents => agents.set remote agent }

/-- The replica after one more event. -/
def record (r : Replica) : Event → Replica
  | .channelOpened id chain counterparty =>
    { r with
      opened := r.opened + 1
      channels := r.channels.set id (some ⟨chain, counterparty, .init⟩)
      listed := r.listed.modify chain fun ids => ids ++ [id] }
  | .openConfirmed id _ => r.enter id .opened
  | .closeStarted id => r.enter id .closing
  | .channelClosed id _ => r.enter id .closed
  | .relayerAdded who => { r with relayers := r.relayers ++ [who] }
  | .relayerRemoved who => { r with relayers := r.relayers.erase who }
  | .agentMapped chain remote agent => r.assign chain remote (some agent)
  | .agentUnmapped chain remote _ => r.assign chain remote none
  | .packetSent .. | .packetReceived .. | .packetAcknowledged .. | .packetTimedOut ..
  | .receiptsPruned .. => r

/-- The replica of one who knows the first relayers and has followed all events since. -/
def follow (relayers : List Account) (events : List Event) : Replica :=
  events.foldl record (start relayers)

theorem follow_concat (relayers : List Account) (events : List Event) (e : Event) :
    follow relayers (events ++ [e]) = (follow relayers events).record e :=
  List.foldl_concat ..

/-- A replica agrees with a ledger. The ledger's number stays at its last value, the count of
the replica goes on. -/
structure Mirrors (r : Replica) (l : Ledger) : Prop where
  counter : l.counter.toNat = min r.opened 18446744073709551615
  channels : ∀ id, r.channels.get id = (l.lane id).channel.map Channel.standing
  listed : ∀ chain, r.listed.get chain = (l.peer chain).channels
  relayers : r.relayers = l.relayers
  agents : ∀ chain remote, (r.agents.get chain).get remote = l.agentOf chain remote

namespace Mirrors

variable {r : Replica} {l : Ledger}

theorem start (relayers : List Account) :
    (Replica.start relayers).Mirrors { Ledger.initial with relayers } where
  counter := rfl
  channels _ := rfl
  listed _ := rfl
  relayers := rfl
  agents _ _ := rfl

/-- What is not the channel of a lane is not mirrored. -/
theorem modifyLane (h : r.Mirrors l) {id : Bytes} {f : Lane → Lane}
    (hsame : (f (l.lane id)).channel = (l.lane id).channel) : r.Mirrors (l.modifyLane id f) where
  counter := h.counter
  channels other := by
    rw [Ledger.lane_modifyLane, h.channels]
    split
    · next hid => rw [hid, hsame]
    · rfl
  listed := h.listed
  relayers := h.relayers
  agents := h.agents

theorem opened (h : r.Mirrors l) (chain counterparty : Bytes) :
    (r.record (.channelOpened (Channel.idOf l.counter) chain counterparty)).Mirrors
      (l.opened chain counterparty) where
  counter := by
    have hbefore := h.counter
    change (Sequence.next l.counter).toNat = min (r.opened + 1) 18446744073709551615
    rw [Sequence.toNat_next]
    omega
  channels id := by
    rw [Ledger.lane_opened, record, Table.get_set]
    split
    · rfl
    · exact h.channels id
  listed other := by
    rw [Ledger.peer_opened, record, Table.get_modify, h.listed, h.listed]
    split <;> rfl
  relayers := h.relayers
  agents other remote := by
    have hagents : ((l.opened chain counterparty).peer other).agents = (l.peer other).agents := by
      rw [Ledger.peer_opened]
      split
      · next hother => rw [hother]
      · rfl
    rw [Ledger.agentOf, hagents]
    exact h.agents other remote

/-- A step of a handshake shows in the state that it leads to. -/
theorem enter (h : r.Mirrors l) {id : Bytes} {channel : Channel} {taken : Handshake}
    {state : ChannelState} (hchannel : (l.lane id).channel = some channel)
    (hstate : channel.state.step taken = some state) (now : Height) :
    (r.enter id taken.target).Mirrors
      (l.modifyLane id fun lane => { lane with channel := some (channel.enter state now) }) where
  counter := h.counter
  channels other := by
    rw [Ledger.lane_modifyLane, Replica.enter, Table.get_modify, h.channels, h.channels]
    split
    · rw [hchannel, ← ChannelState.target_of_step hstate]
      simp [Channel.standing]
    · rfl
  listed := h.listed
  relayers := h.relayers
  agents := h.agents

theorem withRelayers (h : r.Mirrors l) (change : List Account → List Account) :
    { r with relayers := change r.relayers }.Mirrors (l.withRelayers (change l.relayers)) where
  counter := h.counter
  channels := h.channels
  listed := h.listed
  relayers := congrArg change h.relayers
  agents := h.agents

theorem assign (h : r.Mirrors l) (chain remote : Bytes) (agent : Option AgentId)
    (mapped : UInt32) :
    (r.assign chain remote agent).Mirrors (l.modifyPeer chain fun p =>
      { p with mapped, agents := p.agents.set remote agent }) where
  counter := h.counter
  channels := h.channels
  listed other := by
    rw [Ledger.peer_modifyPeer, Replica.assign, h.listed]
    split
    · next hother => rw [hother]
    · rfl
  relayers := h.relayers
  agents other remote' := by
    rw [Ledger.agentOf, Ledger.peer_modifyPeer, Replica.assign, Table.get_modify]
    split
    · rw [Table.get_set, Table.get_set, h.agents]
      rfl
    · exact h.agents other remote'

end Mirrors

end Replica

/-- The event that tells of a call. -/
inductive Event.TellsOf : Origin → Call → Event → Prop
  | openChannel {origin : Origin} (id chain counterparty : Bytes) :
      TellsOf origin (.openChannel chain counterparty) (.channelOpened id chain counterparty)
  | confirmOpen (who : Account) (id : Bytes) :
      TellsOf (.signed who) (.confirmOpen id) (.openConfirmed id who)
  | startClose {origin : Origin} (id : Bytes) :
      TellsOf origin (.startClose id) (.closeStarted id)
  | confirmClose (who : Account) (id : Bytes) :
      TellsOf (.signed who) (.confirmClose id) (.channelClosed id who)
  | send (who : Account) (p : Packet) (hash : Digest) :
      TellsOf (.signed who) (.send p.source p.chain p.target p.agent p.payload)
        (.packetSent who p hash)
  | receive (who : Account) (p : Packet) (agent : Option AgentId) (ack : Acknowledgement) :
      TellsOf (.signed who) (.receive p) (news who p agent ack)
  | acknowledge {origin : Origin} (id : Bytes) (s : Sequence) (ack : Acknowledgement) :
      TellsOf origin (.acknowledge id s ack) (.packetAcknowledged id s ack.success ack.code)
  | timeOut {origin : Origin} (id : Bytes) (s : Sequence) :
      TellsOf origin (.timeOut id s) (.packetTimedOut id s)
  | addRelayer {origin : Origin} (relayer : Account) :
      TellsOf origin (.addRelayer relayer) (.relayerAdded relayer)
  | removeRelayer {origin : Origin} (relayer : Account) :
      TellsOf origin (.removeRelayer relayer) (.relayerRemoved relayer)
  | mapAgent {origin : Origin} (chain remote : Bytes) (agent : AgentId) :
      TellsOf origin (.mapAgent chain remote agent) (.agentMapped chain remote agent)
  | unmapAgent {origin : Origin} (chain remote : Bytes) (agent : AgentId) :
      TellsOf origin (.unmapAgent chain remote) (.agentUnmapped chain remote agent)
  | prune {origin : Origin} (id : Bytes) (listed : List Sequence) (count : UInt32) :
      TellsOf origin (.prune id listed) (.receiptsPruned id count)

namespace Chronicle

/-- One chronicle and another one that goes on from it. -/
def append (c more : Chronicle) : Chronicle := ⟨c.events ++ more.events, c.deeds ++ more.deeds⟩

/-- The chronicle of one call. -/
def single (d : Deed) (e : Event) : Chronicle := ⟨[e], [d]⟩

theorem append_empty (c : Chronicle) : c.append empty = c := by
  simp [append, empty]

theorem append_assoc (c d e : Chronicle) : (c.append d).append e = c.append (d.append e) := by
  simp [append]

/-- The calls that took effect and the events tell of each other, one by one and in order. -/
def Paired (c : Chronicle) : Prop :=
  List.Forall₂ (fun d e => Event.TellsOf d.origin d.call e) c.deeds c.events

theorem Paired.empty : Paired .empty := .nil

theorem Paired.append {c more : Chronicle} (h : c.Paired) (hmore : more.Paired) :
    (c.append more).Paired := List.rel_append h hmore

theorem Paired.single (height : Height) {origin : Origin} {call : Call} {e : Event}
    (h : e.TellsOf origin call) : Paired (.single ⟨height, origin, call⟩ e) := .cons h .nil

end Chronicle

/-- What comes of a call for the chronicle of a world: nothing if the call fails, and else what
the calls nested in it have told, and then the call with its own event. Other calls are nested
in a packet that is received and in no other call. -/
inductive World.Entry (cfg : Config) (w : World) (origin : Origin) (s : Submission) :
    Outcome → Chronicle → Prop
  | failed (fault : Fault) : w.Entry cfg origin s (.error fault) w.chronicle
  | told {call : Call} {nested : Chronicle} {e : Event} (hcall : s.call? cfg = some call)
      (htells : e.TellsOf origin call) (hpaired : nested.Paired)
      (hnested : nested = .empty ∨ ∃ p, call = .receive p) :
      w.Entry cfg origin s (.ok ())
        ((w.chronicle.append nested).append (.single ⟨w.ledger.height, origin, call⟩ e))

section

variable {cfg : Config} {w mid after : World} {origin : Origin} {call : Call} {l : Ledger}
  {e : Event} {s : Submission}

theorem Effect.tellsOf (h : Effect cfg w origin call l e) : e.TellsOf origin call := by
  cases h with
  | openChannel => exact .openChannel _ _ _
  | confirmOpen => exact .confirmOpen _ _
  | startClose => exact .startClose _
  | confirmClose => exact .confirmClose _ _
  | @send who id chain counterparty agent payload _ counts =>
    exact .send who (Packet.draft cfg w.ledger.height counts id chain counterparty agent payload) _
  | acknowledge => exact .acknowledge _ _ _
  | timeOut => exact .timeOut _ _
  | addRelayer => exact .addRelayer _
  | removeRelayer => exact .removeRelayer _
  | mapAgent => exact .mapAgent _ _ _
  | unmapAgent => exact .unmapAgent _ _ _
  | prune => exact .prune _ _ _

theorem World.chronicle_book (w : World) (origin : Origin) (call : Call) (e : Event)
    {height : Height} (hl : l.height = height) (hheight : height ≠ 0) :
    (w.book origin call l e).chronicle =
      w.chronicle.append (.single ⟨height, origin, call⟩ e) := by
  subst hl
  rw [World.book, Chronicle.enroll, Chronicle.tell, if_neg hheight]
  rfl

/-- While calls are carried out, each that takes effect is told by one event. -/
theorem Proceeds.paired (h : Proceeds cfg w after) (hheight : w.ledger.height ≠ 0) :
    ∃ nested : Chronicle, nested.Paired ∧ after.chronicle = w.chronicle.append nested := by
  induction h with
  | refl => exact ⟨.empty, .nil, (Chronicle.append_empty _).symm⟩
  | host _ _ ih => exact ih hheight
  | deliver _ _ ih => exact ih hheight
  | @call w mid origin call l e h heffect ih =>
    obtain ⟨nested, hnested, hmid⟩ := ih hheight
    have hl : l.height = w.ledger.height := heffect.height_eq.trans h.height_eq
    refine ⟨nested.append (.single ⟨w.ledger.height, origin, call⟩ e),
      hnested.append (.single _ heffect.tellsOf), ?_⟩
    rw [mid.chronicle_book origin call e hl hheight, hmid, Chronicle.append_assoc]
  | @receive w mid late who p _ agent ack h _ hlate ih ihlate =>
    obtain ⟨first, hfirst, hmid⟩ := ih hheight
    obtain ⟨nested, hnested, hlast⟩ := ihlate (by rwa [h.height_eq])
    have hl : (receipted late.ledger mid.ledger.height p ack).height = w.ledger.height :=
      hlate.height_eq.trans h.height_eq
    refine ⟨(first.append nested).append
        (.single ⟨w.ledger.height, .signed who, .receive p⟩ (news who p agent ack)),
      (hfirst.append hnested).append (.single _ (.receive who p agent ack)), ?_⟩
    rw [late.chronicle_book _ _ _ hl hheight, hlast, hmid, Chronicle.append_assoc,
      Chronicle.append_assoc, Chronicle.append_assoc]

theorem handlerAt_proceeds (cfg : Config) (layers : Nat) (d : Delivery) (w : World) :
    Proceeds cfg w (handlerAt cfg layers d w).2 := by
  cases layers with
  | zero => exact .refl w
  | succ layers => exact Application.handler_proceeds (dispatch_proceeds cfg layers) d w

/-- Whatever call is carried out, with however many layers, it tells of itself once if it takes
effect, and leaves the chronicle if not. -/
theorem dispatch_entry (cfg : Config) (layers : Nat) (origin : Origin) (s : Submission)
    {w : World} (hheight : w.ledger.height ≠ 0) :
    w.Entry cfg origin s ((dispatch cfg layers origin s).run w).1
      ((dispatch cfg layers origin s).run w).2.chronicle := by
  cases layers with
  | zero => exact .failed _
  | succ layers =>
    rw [dispatch_succ]
    rcases hrun : (enter cfg (handlerAt cfg layers) origin s).run w with ⟨fault | _, after⟩
    · obtain ⟨host, rfl⟩ := enter_error hrun
      exact .failed fault
    · obtain ⟨call, mid, hcall, hperform, rfl⟩ := enter_ok_iff.mp hrun
      by_cases hreceive : ∃ p, call = .receive p
      · obtain ⟨p, rfl⟩ := hreceive
        obtain ⟨who, channel, agent, ack, late, rfl, -, hanswered, rfl⟩ := receive_ok hperform
        have hproceeds := hanswered.proceeds (handlerAt_proceeds cfg layers)
        obtain ⟨nested, hpaired, hlate⟩ := hproceeds.paired hheight
        have hl : (receipted late.ledger w.ledger.height p ack).height = w.ledger.height :=
          hproceeds.height_eq
        have hbook := late.chronicle_book (.signed who) (.receive p) (news who p agent ack) hl
          hheight
        rw [hlate] at hbook
        have hentry : w.Entry cfg _ s _ _ :=
          .told hcall (.receive who p agent ack) hpaired (.inr ⟨p, rfl⟩)
        rwa [← hbook] at hentry
      · have hother : ∀ p, call ≠ .receive p := fun p hp => hreceive ⟨p, hp⟩
        obtain ⟨l, e, lines, heffect, rfl⟩ := Inversion.caused_of_ok hother hperform
        have hbook := w.chronicle_book origin call e heffect.height_eq hheight
        have hentry : w.Entry cfg _ s _ _ := .told hcall heffect.tellsOf .empty (.inl rfl)
        rwa [Chronicle.append_empty, ← hbook] at hentry

/-- A replica that follows the event of a call keeps up with the ledger that the call leaves. -/
theorem Effect.mirrored (h : Effect cfg w origin call l e) {r : Replica}
    (hr : r.Mirrors w.ledger) : (r.record e).Mirrors l := by
  cases h with
  | openChannel => exact hr.opened _ _
  | confirmOpen _ _ hchannel hstate | startClose _ _ hchannel hstate
  | confirmClose _ _ hchannel hstate => exact hr.enter hchannel hstate _
  | send | timeOut | prune => exact hr.modifyLane rfl
  | acknowledge =>
    apply hr.modifyLane
    rw [Lane.retain_eq]
    rfl
  | @addRelayer _ relayer => exact hr.withRelayers fun known => known ++ [relayer]
  | @removeRelayer _ relayer => exact hr.withRelayers fun known => known.erase relayer
  | mapAgent => exact hr.assign _ _ _ _
  | unmapAgent => exact hr.assign _ _ _ _

end

/-- The events of a world tell all that a replica knows, and each belongs to one of the calls
that took effect. -/
structure World.Journaled (known : List Account) (w : World) : Prop where
  mirrored : (Replica.follow known w.chronicle.events).Mirrors w.ledger
  paired : w.chronicle.Paired

theorem kept_journaled (cfg : Config) (known : List Account) :
    Kept cfg (· ≠ 0) (World.Journaled known) where
  host _ h := ⟨h.mirrored, h.paired⟩
  height _ h := ⟨⟨h.mirrored.counter, h.mirrored.channels, h.mirrored.listed, h.mirrored.relayers,
    h.mirrored.agents⟩, h.paired⟩
  deliver _ h := ⟨⟨h.mirrored.counter, h.mirrored.channels, h.mirrored.listed,
    h.mirrored.relayers, h.mirrored.agents⟩, h.paired⟩
  call {w origin call l e} hheight h heffect := by
    have hbook := w.chronicle_book origin call e heffect.height_eq hheight
    constructor
    · rw [hbook]
      change (Replica.follow known (w.chronicle.events ++ [e])).Mirrors l
      rw [Replica.follow_concat]
      exact heffect.mirrored h.mirrored
    · rw [hbook]
      exact h.paired.append (.single _ heffect.tellsOf)
  receive {w} who p agent ack hheight h := by
    have hl : (receipted w.ledger w.ledger.height p ack).height = w.ledger.height := rfl
    have hbook := w.chronicle_book (.signed who) (.receive p) (news who p agent ack) hl hheight
    constructor
    · rw [hbook]
      change (Replica.follow known (w.chronicle.events ++ [news who p agent ack])).Mirrors
        (receipted w.ledger w.ledger.height p ack)
      rw [Replica.follow_concat]
      exact h.mirrored.modifyLane rfl
    · rw [hbook]
      exact h.paired.append (.single _ (.receive who p agent ack))

/-- The events are a complete journal of what a ledger controls. In a run that makes no call
before the first block, at every position and within every step, one who knows the first
relayers and has followed the events knows the channels, their chains and states, the relayers
and the mapped agents, and how many channels were opened, as long as the numbers last. Each call
that is carried out, by itself or nested, tells one event of its own if it takes effect, after
those of the calls nested in it, and none if it fails. -/
theorem events_tell_control_state {cfg : Config} {relayers : List Account} {host : Host}
    {first : World} {steps : List Step}
    (hgenesis : World.genesis? cfg relayers host = some first)
    (h : Follows cfg Step.Dated first steps) :
    (∀ i w, Within cfg first steps i w →
      (Replica.follow first.ledger.relayers w.chronicle.events).Mirrors w.ledger ∧
        w.chronicle.Paired) ∧
    ∀ i caller outer layers origin s w, steps[i]? = some (.call caller outer) →
      Carried cfg caller outer (first.stage cfg steps i) layers origin s w →
      w.Entry cfg origin s ((dispatch cfg layers origin s).run w).1
        ((dispatch cfg layers origin s).run w).2.chronicle := by
  obtain ⟨known, rfl⟩ := World.genesis_ok hgenesis
  constructor
  · intro i w hw
    have hstart : World.Journaled known ⟨{ Ledger.initial with relayers := known }, .empty, host⟩ :=
      ⟨.start known, .empty⟩
    have hjournaled : w.Journaled known :=
      (kept_journaled cfg known).throughout (fun _ _ _ hdated => hdated) h (Nat.zero_le i)
        hstart hw
    exact ⟨hjournaled.mirrored, hjournaled.paired⟩
  · intro i caller outer layers origin s w hi hcarried
    have hdated : ((World.mk { Ledger.initial with relayers := known } .empty host).stage cfg
        steps i).ledger.height ≠ 0 := h.may_at hi
    exact dispatch_entry cfg layers origin s (by rwa [hcarried.proceeds.height_eq])

namespace Small

/-- An application rejects a packet after it has opened a channel and taken in a relayer, and
accepts one after taking in a relayer; then agents are mapped, a relayer goes and the channel is
closing. -/
def busy : List Step :=
  opening ++
    [.install .raw (.once [(.root, .value (.openChannel [1] [3])),
        (.root, .value (.addRelayer 12))] false),
      .call (.signed 10) (.value (.receive (packet 70))),
      .install .raw (.once [(.root, .value (.addRelayer 11)),
        (.root, .value (.removeRelayer 12))] true),
      .call (.signed 10) (.value (.receive { packet 70 with sequence := 2 })),
      .call .root (.value (.mapAgent [1] [5] 20)), .call .root (.value (.mapAgent [1] [6] 30)),
      .call .root (.value (.unmapAgent [1] [5])), .call .root (.value (.removeRelayer 10)),
      .call .root (.value (.startClose channel))]

theorem busy_follows : Follows cfg Step.Dated first busy := by
  have hone : (1 : Height) ≠ 0 := by decide
  exact ⟨trivial, hone, hone, trivial, hone, trivial, hone, hone, hone, hone, hone, hone, trivial⟩

theorem busy_told :
    Follows cfg Step.Dated first busy ∧
      (first.stage cfg busy 12).chronicle.events.length = 10 ∧
      (first.stage cfg busy 12).ledger.relayers = [11] ∧
      (first.stage cfg busy 12).ledger.counter.toNat = 1 ∧
      ((first.stage cfg busy 12).ledger.lane channel).channel.map Channel.standing =
        some ⟨[1], [2], .closing⟩ ∧
      (first.stage cfg busy 12).ledger.agentOf [1] [5] = none ∧
      (first.stage cfg busy 12).ledger.agentOf [1] [6] = some 30 := by
  obtain ⟨hjournal, -⟩ := events_tell_control_state genesis_eq busy_follows
  obtain ⟨hmirrors, -⟩ := hjournal 12 _ (.inl rfl)
  refine ⟨busy_follows, by decide +kernel, ?_, ?_, ?_, ?_, ?_⟩
  · rw [← hmirrors.relayers]
    decide +kernel
  · rw [hmirrors.counter]
    decide +kernel
  · rw [← hmirrors.channels]
    decide +kernel
  · rw [← hmirrors.agents]
    decide +kernel
  · rw [← hmirrors.agents]
    decide +kernel

end Small

end RelayLedger
