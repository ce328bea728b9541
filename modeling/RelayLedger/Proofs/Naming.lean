import RelayLedger.Genesis
import RelayLedger.Proofs.Fulfilment
import RelayLedger.Proofs.Roster

/-!
The identifiers of new channels. A sound configuration has room for every number written out, and
a number that was given out is below the counter as long as the counter still moves. So a new
channel meets an old one in one place only, at the last number, where the counter stands still.
-/
namespace RelayLedger

open Reception

/-- Where the numbers end, the counter of channels stands still. -/
def Channel.lastNumber : UInt64 := 18446744073709551615

theorem Channel.length_idOf_le (number : UInt64) : (idOf number).length ≤ 28 := by
  have hdigits : (Nat.toDigits 10 number.toNat).length ≤ 20 := by
    rw [Nat.length_toDigits_le_iff (by decide) (by decide)]
    exact Nat.lt_trans number.toNat_lt (by decide)
  have htext : (Bytes.ofAscii "channel-").length = 8 := by decide
  rw [idOf, List.length_append, htext, Bytes.decimal, List.length_map]
  omega

/-- What a configuration has to have to be sound. -/
theorem Config.unsound?_eq_none_iff {cfg : Config} : cfg.unsound? = none ↔
    cfg.timeoutBlocks ≠ 0 ∧ cfg.pendingLimit ≠ 0 ∧ cfg.relayerLimit ≠ 0 ∧ cfg.pruneLimit ≠ 0 ∧
      28 ≤ cfg.channelIdLimit := by
  rw [← UInt32.not_lt]
  simp only [unsound?, ite_eq_iff, reduceCtorEq, and_false, false_or, and_true, ne_eq]

/-- A sound configuration has room for the identifier of every channel. -/
theorem Config.fits_idOf {cfg : Config} (hsound : cfg.unsound? = none) (number : UInt64) :
    (Channel.idOf number).fits cfg.channelIdLimit = true := by
  obtain ⟨-, -, -, -, hlimit⟩ := unsound?_eq_none_iff.mp hsound
  have hfits : 28 ≤ cfg.channelIdLimit.toNat := UInt32.le_iff_toNat_le.mp hlimit
  exact decide_eq_true (Nat.le_trans (Channel.length_idOf_le number) hfits)

theorem Lane.founded_eq_none_iff {l : Lane} : l.founded = none ↔ l.channel = none :=
  Option.map_eq_none_iff

/-- The channels of a ledger have numbers that were given out, and each of them is listed once
under its chain. -/
structure Ledger.Charted (l : Ledger) : Prop where
  numbered : ∀ id, (l.lane id).founded ≠ none →
    ∃ n, id = Channel.idOf n ∧ (n < l.counter ∨ l.counter = Channel.lastNumber)
  listed : ∀ chain id, id ∈ (l.peer chain).channels ↔
    ∃ c, (l.lane id).founded = some c ∧ c.chain = chain
  once : ∀ chain, (l.peer chain).channels.Nodup

/-- The channels towards a chain, in whatever state they are. -/
def Ledger.channelsTowards (l : Ledger) (chain : Bytes) : List Bytes :=
  l.lanes.keys.filter fun id => (l.lane id).channel.map Channel.chain = some chain

namespace Ledger.Charted

variable {l : Ledger} {id chain : Bytes}

theorem initial (relayers : List Account) : Charted { Ledger.initial with relayers } where
  numbered id h := by
    have hlane : Ledger.lane { Ledger.initial with relayers } id = .empty := Table.get_empty id
    rw [hlane] at h
    exact absurd rfl h
  listed chain id := by
    have hlane : Ledger.lane { Ledger.initial with relayers } id = .empty := Table.get_empty id
    have hpeer : Ledger.peer { Ledger.initial with relayers } chain = .empty :=
      Table.get_empty chain
    rw [hlane, hpeer]
    simp [Peer.empty, Lane.empty, Lane.founded]
  once chain := by
    have hpeer : Ledger.peer { Ledger.initial with relayers } chain = .empty :=
      Table.get_empty chain
    rw [hpeer]
    exact .nil

/-- Only the counter, the channels as they were created, and their lists matter. -/
theorem congr {l' : Ledger} (h : Charted l) (hcounter : l'.counter = l.counter)
    (hfounded : ∀ id, (l'.lane id).founded = (l.lane id).founded)
    (hpeer : ∀ chain, (l'.peer chain).channels = (l.peer chain).channels) : Charted l' where
  numbered id := by
    rw [hfounded, hcounter]
    exact h.numbered id
  listed chain id := by
    rw [hfounded, hpeer]
    exact h.listed chain id
  once chain := by
    rw [hpeer]
    exact h.once chain

theorem modifyLane (h : Charted l) {f : Lane → Lane}
    (hfounded : (f (l.lane id)).founded = (l.lane id).founded) :
    Charted (l.modifyLane id f) := by
  have hcounter : (l.modifyLane id f).counter = l.counter := rfl
  refine h.congr hcounter (fun other => ?_) fun _ => rfl
  rw [lane_modifyLane]
  split
  · next hother => rw [hfounded, hother]
  · rfl

/-- The channels towards a chain are the ones that are listed under it. -/
theorem length_channelsTowards (h : Charted l) (chain : Bytes) :
    (l.channelsTowards chain).length = (l.peer chain).channels.length := by
  have hnodup : (l.channelsTowards chain).Nodup := l.lanes.nodup_keys.filter _
  apply List.Perm.length_eq
  rw [List.perm_ext_iff_of_nodup hnodup (h.once chain)]
  intro id
  rw [h.listed, channelsTowards, List.mem_filter, Table.mem_keys, decide_eq_true_eq]
  unfold Lane.founded
  constructor
  · rintro ⟨-, hchain⟩
    obtain ⟨c, hc, rfl⟩ := Option.map_eq_some_iff.mp hchain
    exact ⟨c.asCreated, by rw [hc]; rfl, rfl⟩
  · rintro ⟨_, hfounded, rfl⟩
    obtain ⟨c, hc, rfl⟩ := Option.map_eq_some_iff.mp hfounded
    refine ⟨fun hblank => ?_, by rw [hc]; rfl⟩
    have hempty : l.lane id = .empty := hblank
    rw [hempty] at hc
    cases hc

/-- The identifier of the next number is new, unless the numbers have come to their end. -/
theorem next_free (h : Charted l) (hcounter : l.counter ≠ Channel.lastNumber) :
    (l.lane (Channel.idOf l.counter)).channel = none := by
  by_contra hused
  obtain ⟨n, hid, hn | hlast⟩ := h.numbered _ (Lane.founded_eq_none_iff.not.mpr hused)
  · rw [← Channel.idOf_injective hid] at hn
    exact UInt64.lt_irrefl _ hn
  · exact hcounter hlast

/-- What is the identifier of no channel is not listed anywhere. -/
theorem not_listed (h : Charted l) (hfree : (l.lane id).channel = none) (chain : Bytes) :
    id ∉ (l.peer chain).channels := by
  rw [h.listed]
  rintro ⟨c, hc, -⟩
  rw [Lane.founded_eq_none_iff.mpr hfree] at hc
  cases hc

/-- The counter moves past a number, or has come to its end. -/
theorem next_counter {n counter : UInt64} (h : n ≤ counter ∨ counter = Channel.lastNumber) :
    n < Sequence.next counter ∨ Sequence.next counter = Channel.lastNumber := by
  have hnext := Sequence.toNat_next counter
  have hlast : Channel.lastNumber.toNat = 18446744073709551615 := rfl
  rw [UInt64.le_iff_toNat_le, ← UInt64.toNat_inj] at h
  rw [UInt64.lt_iff_toNat_lt, ← UInt64.toNat_inj]
  omega

/-- A new channel takes the next number and is listed last under its chain. -/
theorem opened (h : Charted l) (hfree : (l.lane (Channel.idOf l.counter)).channel = none)
    (counterparty : Bytes) : Charted (l.opened chain counterparty) := by
  have hcounter : (l.opened chain counterparty).counter = Sequence.next l.counter := rfl
  constructor
  case numbered =>
    intro id hid
    rw [hcounter]
    rw [lane_opened] at hid
    split at hid
    · next heq => exact ⟨l.counter, heq, next_counter (.inl (UInt64.le_refl _))⟩
    · obtain ⟨n, hidOf, hn⟩ := h.numbered id hid
      exact ⟨n, hidOf, next_counter (hn.imp_left UInt64.le_of_lt)⟩
  case listed =>
    intro other id
    have hnew := h.not_listed hfree other
    rw [lane_opened, peer_opened]
    by_cases hid : id = Channel.idOf l.counter
    · subst hid
      rw [if_pos rfl]
      by_cases hother : other = chain
      · subst hother
        rw [if_pos rfl]
        exact iff_of_true (by simp) ⟨_, rfl, rfl⟩
      · rw [if_neg hother]
        refine iff_of_false hnew ?_
        rintro ⟨c, hc, hchain⟩
        cases hc
        exact hother hchain.symm
    · rw [if_neg hid, ← h.listed]
      split
      · next hother =>
        subst hother
        simp [hid]
      · rfl
  case once =>
    intro other
    rw [peer_opened]
    split
    · next hother =>
      subst hother
      have honce := (h.once other).concat (h.not_listed hfree other)
      rwa [List.concat_eq_append] at honce
    · exact h.once other

end Ledger.Charted

section

variable {cfg : Config} {w : World} {origin : Origin} {call : Call} {l : Ledger} {e : Event}

theorem Effect.charted (h : Effect cfg w origin call l e) (hcharted : w.ledger.Charted) :
    l.Charted := by
  cases h with
  | openChannel _ _ _ _ hfree => exact hcharted.opened hfree _
  | confirmOpen _ _ hchannel | startClose _ _ hchannel | confirmClose _ _ hchannel =>
    apply hcharted.modifyLane
    rw [Lane.founded, Lane.founded, hchannel, Option.map_some, Option.map_some,
      Channel.asCreated_enter]
  | acknowledge =>
    apply hcharted.modifyLane
    rw [Lane.retain_eq]
    rfl
  | send | timeOut | prune => exact hcharted.modifyLane rfl
  | addRelayer | removeRelayer => exact ⟨hcharted.numbered, hcharted.listed, hcharted.once⟩
  | @mapAgent _ chain | @unmapAgent _ chain =>
    refine hcharted.congr rfl (fun _ => rfl) fun other => ?_
    rw [Ledger.peer_modifyPeer]
    split
    · next hother => rw [hother]
    · rfl

theorem kept_charted (cfg : Config) : Kept cfg (fun _ => True) fun w => w.ledger.Charted where
  host _ h := h
  height _ h := ⟨h.numbered, h.listed, h.once⟩
  deliver _ h := ⟨h.numbered, h.listed, h.once⟩
  call _ h heffect := heffect.charted h
  receive _ _ _ _ _ h := h.modifyLane rfl

theorem Reached.charted {may : World → Step → Prop} (h : Reached cfg may w) :
    w.ledger.Charted :=
  (kept_charted cfg).reached (fun known _ => .initial known) (fun _ _ _ _ => trivial) h

theorem Made.charted {may : World → Step → Prop} {layers : Nat} {s : Submission}
    (h : Made cfg may layers origin s w) : w.ledger.Charted :=
  (kept_charted cfg).made (fun known _ => .initial known) (fun _ _ _ _ => trivial) h

/-- The counter of channels counts the openings, as far as its numbers go. -/
theorem kept_counter (cfg : Config) : Kept cfg (fun _ => True) fun w =>
    w.ledger.counter.toNat = min w.chronicle.openings.length Channel.lastNumber.toNat where
  host _ h := h
  height _ h := h
  deliver _ h := h
  call {w origin call l e} _ h heffect := by
    rw [World.openings_book, List.length_append]
    change l.counter.toNat = _
    cases heffect with
    | openChannel =>
      change (Sequence.next w.ledger.counter).toNat = min (w.chronicle.openings.length + 1) _
      have hlast : Channel.lastNumber.toNat = 18446744073709551615 := rfl
      rw [Sequence.toNat_next, h, hlast]
      omega
    | confirmOpen | startClose | confirmClose | send | acknowledge | timeOut | addRelayer
    | removeRelayer | mapAgent | unmapAgent | prune => exact h
  receive who p agent ack _ h := by
    have hother : ∀ chain counterparty, Call.receive p ≠ .openChannel chain counterparty := by
      intro chain counterparty heq
      cases heq
    rw [World.openings_book_of_other _ _ hother]
    exact h

/-- As long as the counter moves, the channels of a ledger are those that were opened. -/
theorem Reached.tabled_of_counter {may : World → Step → Prop} (h : Reached cfg may w)
    (hcounter : w.ledger.counter ≠ Channel.lastNumber) :
    w.ledger.Tabled cfg w.chronicle.openings := by
  have hcounted := (kept_counter cfg).reached (fun _ _ => rfl) (fun _ _ _ _ => trivial) h
  have hlast : Channel.lastNumber.toNat = 18446744073709551615 := rfl
  rw [ne_eq, ← UInt64.toNat_inj, hcounted, hlast] at hcounter
  exact h.tabled (by omega)

end

/-- What it depends on whether a manager can open a channel. -/
structure World.NextChannel (cfg : Config) (w : World) : Prop where
  /-- The identifier of the next channel is new as long as the numbers last. -/
  free : w.ledger.counter ≠ Channel.lastNumber →
    (w.ledger.lane (Channel.idOf w.ledger.counter)).channel = none
  opens_iff : ∀ layers origin s chain counterparty, cfg.isManager origin = true →
    s.call? cfg = some (.openChannel chain counterparty) →
    (((dispatch cfg (layers + 1) origin s).run w).1 = .ok () ↔
      chain.fits cfg.chainIdLimit = true ∧ counterparty.fits cfg.channelIdLimit = true ∧
      (w.ledger.channelsTowards chain).length < cfg.channelLimit.toNat ∧
      (w.ledger.lane (Channel.idOf w.ledger.counter)).channel = none)
  /-- Where the identifier is in use the call fails and changes nothing. -/
  collides : ∀ layers origin s chain counterparty, cfg.isManager origin = true →
    s.call? cfg = some (.openChannel chain counterparty) →
    chain.fits cfg.chainIdLimit = true → counterparty.fits cfg.channelIdLimit = true →
    (w.ledger.lane (Channel.idOf w.ledger.counter)).channel ≠ none →
    (dispatch cfg (layers + 1) origin s).run w = (.error (.refused .channelAlreadyExists), w)

section

variable {cfg : Config} {w : World} {origin : Origin} {chain counterparty : Bytes}

theorem run_openChannel_of_used (handle : Handler) (hmanager : cfg.isManager origin = true)
    (hchain : chain.fits cfg.chainIdLimit = true)
    (hcounterparty : counterparty.fits cfg.channelIdLimit = true)
    (hid : (Channel.idOf w.ledger.counter).fits cfg.channelIdLimit = true)
    (hused : (w.ledger.lane (Channel.idOf w.ledger.counter)).channel ≠ none) :
    (Call.perform cfg handle origin (.openChannel chain counterparty)).run w =
      (.error (.refused .channelAlreadyExists), w) := by
  have hsome : (w.ledger.lane (Channel.idOf w.ledger.counter)).channel.isNone = false := by
    simpa [Option.isSome_iff_ne_none] using hused
  have hopen : (Lifecycle.openChannel cfg chain counterparty).run w =
      (.error (.refused .channelAlreadyExists), w) := by
    simp only [Lifecycle.openChannel, Relay.run_ledger_bind, Relay.run_require_bind, hid, hsome,
      if_true]
    rfl
  rw [Call.perform, Fulfilment.run_bind_of_ok (Fulfilment.run_guardOrigin hmanager),
    Fulfilment.run_bind_of_ok (Fulfilment.run_guardChain hchain),
    Fulfilment.run_bind_of_ok (Fulfilment.run_guardChannel hcounterparty), Relay.run_discard,
    hopen]
  rfl

theorem Ledger.Charted.nextChannel (h : w.ledger.Charted) (hsound : cfg.unsound? = none) :
    w.NextChannel cfg := by
  have hid := Config.fits_idOf hsound w.ledger.counter
  constructor
  case free => exact h.next_free
  case opens_iff =>
    intro layers origin s chain counterparty hmanager hcall
    rw [h.length_channelsTowards]
    constructor
    · intro hok
      obtain ⟨l, e, lines, heffect, -⟩ := effect_of_dispatch (Prod.ext hok rfl) hcall nofun
      cases heffect with
      | openChannel _ hchain hcounterparty _ hfree _ hroom =>
        exact ⟨hchain, hcounterparty, hroom, hfree⟩
    · rintro ⟨hchain, hcounterparty, hroom, hfree⟩
      have hnew := h.not_listed hfree chain
      have heffect : Effect cfg w origin (.openChannel chain counterparty) _ _ :=
        .openChannel hmanager hchain hcounterparty hid hfree hnew hroom
      obtain ⟨lines, hrun⟩ := heffect.dispatch_eq hcall layers
      rw [hrun]
  case collides =>
    intro layers origin s chain counterparty hmanager hcall hchain hcounterparty hused
    rw [dispatch_succ, run_enter_of_some hcall,
      run_openChannel_of_used _ hmanager hchain hcounterparty hid hused]

end

end RelayLedger
