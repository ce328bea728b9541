import Mathlib.Data.List.Nodup
import RelayLedger.Proofs.Lifetime
import RelayLedger.Proofs.Receipts

/-!
Which channels there are. The channels of a ledger are numbered in turn, and a number is told
from its decimal digits, so a new channel never meets an old one as long as the numbers last.
Each channel is listed under its chain, and nothing is kept under an identifier that is not the
one of a channel.
-/
namespace RelayLedger

open Reception

/-- The digits of a number are read back from its bytes. -/
theorem Bytes.digits_of_decimal (n : Nat) :
    (Bytes.decimal n).map (fun b => Char.ofNat b.toNat) = Nat.toDigits 10 n := by
  have hback : ∀ c ∈ Nat.toDigits 10 n, Char.ofNat c.toNat.toUInt8.toNat = c := by
    intro c hc
    have hdigit := Nat.isDigit_of_mem_toDigits (by decide) (by decide) hc
    have hlt : c.toNat < 256 := by
      simp only [Char.isDigit, Bool.and_eq_true, decide_eq_true_eq,
        UInt32.le_iff_toNat_le] at hdigit
      have hle : c.toNat ≤ 57 := hdigit.2
      omega
    simp [Nat.mod_eq_of_lt hlt]
  rw [decimal, List.map_map]
  exact (List.map_congr_left hback).trans (List.map_id' _)

theorem Bytes.decimal_injective : Function.Injective Bytes.decimal := by
  intro m n h
  calc
    m = Nat.ofDigitChars 10 (Nat.toDigits 10 m) 0 := Nat.ofDigitChars_ten_toDigits.symm
    _ = Nat.ofDigitChars 10 (Nat.toDigits 10 n) 0 := by
      rw [← digits_of_decimal, ← digits_of_decimal, h]
    _ = n := Nat.ofDigitChars_ten_toDigits

theorem Channel.idOf_injective : Function.Injective Channel.idOf := by
  intro m n h
  have hdecimal := List.append_cancel_left h
  exact UInt64.toNat_inj.mp (Bytes.decimal_injective hdecimal)

theorem getElem?_concat_of_ne {α : Type} {xs : List α} {x : α} {k : Nat} (h : k ≠ xs.length) :
    (xs ++ [x])[k]? = xs[k]? := by
  rcases Nat.lt_or_gt_of_ne h with hlt | hgt
  · exact List.getElem?_append_left hlt
  · rw [List.getElem?_append_right (by omega), List.getElem?_eq_none (by simp; omega),
      List.getElem?_eq_none (by omega)]

/-- What a channel was opened for, and in which block. -/
structure Opening where
  height : Height
  chain : Bytes
  counterparty : Bytes
  deriving DecidableEq

namespace Opening

/-- The channel that an opening creates under a number. -/
def channel (o : Opening) (number : UInt64) : Channel :=
  .created (Channel.idOf number) o.chain o.counterparty o.height

/-- The channels towards a chain are listed by number, each once, and no others. -/
def Listed (openings : List Opening) (chain : Bytes) (ids : List Bytes) : Prop :=
  ∃ numbers : List UInt64, ids = numbers.map Channel.idOf ∧ numbers.Pairwise (· < ·) ∧
    ∀ n, n ∈ numbers ↔ ∃ o, openings[n.toNat]? = some o ∧ o.chain = chain

theorem Listed.none (chain : Bytes) : Listed [] chain [] :=
  ⟨[], rfl, .nil, by simp⟩

section

variable {openings : List Opening} {o : Opening} {chain : Bytes} {ids : List Bytes}

/-- An opening towards another chain is not listed. -/
theorem Listed.other (h : Listed openings chain ids) (hother : o.chain ≠ chain) :
    Listed (openings ++ [o]) chain ids := by
  obtain ⟨numbers, hids, hordered, hmem⟩ := h
  refine ⟨numbers, hids, hordered, fun n => ?_⟩
  rw [hmem]
  by_cases hlast : n.toNat = openings.length
  · have hnone : openings[n.toNat]? = Option.none := List.getElem?_eq_none (by omega)
    simp [hlast, hother]
  · rw [getElem?_concat_of_ne hlast]

/-- An opening is listed last under its chain. -/
theorem Listed.concat (h : Listed openings o.chain ids) {number : UInt64}
    (hnumber : number.toNat = openings.length) :
    Listed (openings ++ [o]) o.chain (ids ++ [Channel.idOf number]) := by
  obtain ⟨numbers, rfl, hordered, hmem⟩ := h
  refine ⟨numbers ++ [number], by simp, ?_, fun n => ?_⟩
  · rw [List.pairwise_append]
    refine ⟨hordered, List.pairwise_singleton _ _, ?_⟩
    intro m hm n hn
    obtain ⟨_, hsome, -⟩ := (hmem m).mp hm
    obtain ⟨hlt, -⟩ := List.getElem?_eq_some_iff.mp hsome
    rw [List.mem_singleton.mp hn, UInt64.lt_iff_toNat_lt, hnumber]
    exact hlt
  · rw [List.mem_append, List.mem_singleton, hmem]
    by_cases hlast : n = number
    · subst hlast
      simp [hnumber]
    · have hne : n.toNat ≠ openings.length := by
        intro heq
        exact hlast (UInt64.toNat_inj.mp (heq.trans hnumber.symm))
      simp [hlast, getElem?_concat_of_ne hne]

end

end Opening

def Deed.opening? : Deed → Option Opening
  | ⟨height, _, .openChannel chain counterparty⟩ => some ⟨height, chain, counterparty⟩
  | _ => none

/-- The openings that took effect, oldest first. -/
def Chronicle.openings (c : Chronicle) : List Opening := c.deeds.filterMap Deed.opening?

theorem World.openings_book (w : World) (origin : Origin) (call : Call) (l : Ledger) (e : Event) :
    (w.book origin call l e).chronicle.openings =
      w.chronicle.openings ++ (Deed.opening? ⟨l.height, origin, call⟩).toList := by
  rw [Chronicle.openings, World.deeds_book, List.filterMap_append, Chronicle.openings]
  cases h : Deed.opening? ⟨l.height, origin, call⟩ <;> simp [h]

theorem World.openings_book_of_other (w : World) (origin : Origin) {call : Call}
    (hcall : ∀ chain counterparty, call ≠ .openChannel chain counterparty) (l : Ledger)
    (e : Event) : (w.book origin call l e).chronicle.openings = w.chronicle.openings := by
  rw [openings_book]
  cases call with
  | openChannel chain counterparty => exact absurd rfl (hcall chain counterparty)
  | _ => exact List.append_nil _

/-- After some openings the channels of a ledger are the ones that these have created. -/
structure Ledger.Tabled (cfg : Config) (openings : List Opening) (l : Ledger) : Prop where
  counter : l.counter.toNat = openings.length
  opened : ∀ (n : UInt64) (o : Opening), openings[n.toNat]? = some o →
    (l.lane (Channel.idOf n)).founded = some (o.channel n)
  unopened : ∀ id, (∀ n, n < l.counter → id ≠ Channel.idOf n) → l.lane id = .empty
  counted : ∀ id, (l.lane id).sequences.isSome = (l.lane id).channel.isSome
  listed : ∀ chain, Opening.Listed openings chain (l.peer chain).channels
  room : ∀ chain, (l.peer chain).channels.length ≤ cfg.channelLimit.toNat

namespace Ledger.Tabled

variable {cfg : Config} {openings : List Opening} {l : Ledger} {id chain : Bytes}

theorem initial (cfg : Config) (relayers : List Account) :
    Tabled cfg [] { Ledger.initial with relayers } := by
  have hlane (id : Bytes) : Ledger.lane { Ledger.initial with relayers } id = .empty :=
    Table.get_empty id
  have hpeer (chain : Bytes) : Ledger.peer { Ledger.initial with relayers } chain = .empty :=
    Table.get_empty chain
  constructor
  case counter => rfl
  case opened =>
    intro n o h
    simp at h
  case unopened =>
    intro id _
    exact hlane id
  case counted =>
    intro id
    rw [hlane]
    rfl
  case listed =>
    intro chain
    rw [hpeer]
    exact .none chain
  case room =>
    intro chain
    rw [hpeer]
    exact Nat.zero_le _

/-- Only the lanes, the channels listed and their count matter. -/
theorem congr {l' : Ledger} (h : Tabled cfg openings l) (hcounter : l'.counter = l.counter)
    (hlane : ∀ id, l'.lane id = l.lane id)
    (hpeer : ∀ chain, (l'.peer chain).channels = (l.peer chain).channels) :
    Tabled cfg openings l' where
  counter := by
    rw [hcounter]
    exact h.counter
  opened n o ho := by
    rw [hlane]
    exact h.opened n o ho
  unopened id hid := by
    rw [hlane]
    rw [hcounter] at hid
    exact h.unopened id hid
  counted id := by
    rw [hlane]
    exact h.counted id
  listed chain := by
    rw [hpeer]
    exact h.listed chain
  room chain := by
    rw [hpeer]
    exact h.room chain

/-- A lane may change as long as its channel stays what it was created as, and as long as it
stays empty if it is. -/
theorem modifyLane (h : Tabled cfg openings l) {f : Lane → Lane}
    (hfounded : (f (l.lane id)).founded = (l.lane id).founded)
    (hcounted : (f (l.lane id)).sequences.isSome = (l.lane id).sequences.isSome)
    (hempty : l.lane id = .empty → f (l.lane id) = .empty) :
    Tabled cfg openings (l.modifyLane id f) where
  counter := h.counter
  opened n o ho := by
    rw [lane_modifyLane]
    split
    · next hid =>
      rw [hfounded, ← hid]
      exact h.opened n o ho
    · exact h.opened n o ho
  unopened other hother := by
    rw [lane_modifyLane]
    split
    · next hid =>
      rw [hid] at hother
      exact hempty (h.unopened id hother)
    · exact h.unopened other hother
  counted other := by
    have hchannel : (f (l.lane id)).channel.isSome = (l.lane id).channel.isSome := by
      have hsome := congrArg Option.isSome hfounded
      rwa [Lane.founded, Lane.founded, Option.isSome_map, Option.isSome_map] at hsome
    rw [lane_modifyLane]
    split
    · rw [hcounted, hchannel]
      exact h.counted id
    · exact h.counted other
  listed := h.listed
  room := h.room

/-- The next number is new, and its channel is the one of the opening. -/
theorem grow (h : Tabled cfg openings l) (hlast : openings.length < 18446744073709551615)
    (hroom : (l.peer chain).channels.length < cfg.channelLimit.toNat) (counterparty : Bytes) :
    Tabled cfg (openings ++ [⟨l.height, chain, counterparty⟩]) (l.opened chain counterparty) := by
  have hnumber := h.counter
  have hcounter : (l.opened chain counterparty).counter.toNat = openings.length + 1 := by
    change (Sequence.next l.counter).toNat = _
    rw [Sequence.toNat_next]
    omega
  constructor
  case counter => simpa using hcounter
  case opened =>
    intro n o ho
    rw [lane_opened]
    by_cases hn : n = l.counter
    · subst hn
      rw [hnumber, List.getElem?_concat_length, Option.some.injEq] at ho
      subst ho
      rw [if_pos rfl]
      rfl
    · have hne : n.toNat ≠ openings.length := by
        intro heq
        exact hn (UInt64.toNat_inj.mp (heq.trans hnumber.symm))
      rw [getElem?_concat_of_ne hne] at ho
      rw [if_neg fun hid => hn (Channel.idOf_injective hid)]
      exact h.opened n o ho
  case unopened =>
    intro id hid
    have hlt : ∀ n, n.toNat ≤ l.counter.toNat → id ≠ Channel.idOf n := by
      intro n hle
      apply hid
      rw [UInt64.lt_iff_toNat_lt]
      omega
    rw [lane_opened, if_neg (hlt l.counter (Nat.le_refl _))]
    apply h.unopened
    intro n hn
    exact hlt n (Nat.le_of_lt (UInt64.lt_iff_toNat_lt.mp hn))
  case counted =>
    intro id
    rw [lane_opened]
    split
    · rfl
    · exact h.counted id
  case listed =>
    intro other
    rw [peer_opened]
    split
    · next hother =>
      subst hother
      exact (h.listed other).concat hnumber
    · next hother => exact (h.listed other).other (Ne.symm hother)
  case room =>
    intro other
    rw [peer_opened]
    split
    · rw [List.length_append, List.length_singleton]
      omega
    · exact h.room other

end Ledger.Tabled

section

variable {cfg : Config} {w after : World} {origin : Origin} {call : Call} {l : Ledger} {e : Event}

/-- A call that opens no channel leaves the channels that there are. -/
theorem Effect.tabled_of_other (h : Effect cfg w origin call l e)
    (hcall : ∀ chain counterparty, call ≠ .openChannel chain counterparty)
    {openings : List Opening} (htabled : w.ledger.Tabled cfg openings) :
    l.Tabled cfg openings := by
  cases h with
  | openChannel => exact absurd rfl (hcall _ _)
  | confirmOpen _ _ hchannel | startClose _ _ hchannel | confirmClose _ _ hchannel =>
    apply htabled.modifyLane
    · rw [Lane.founded, Lane.founded, hchannel, Option.map_some, Option.map_some,
        Channel.asCreated_enter]
    · rfl
    · intro hempty
      rw [hempty] at hchannel
      cases hchannel
  | send _ _ _ _ hchannel _ _ _ _ _ hcounts =>
    apply htabled.modifyLane
    · rfl
    · rw [hcounts]
      rfl
    · intro hempty
      rw [hempty] at hchannel
      cases hchannel
  | acknowledge _ _ hcommitment =>
    apply htabled.modifyLane
    · rw [Lane.retain_eq]
      rfl
    · rw [Lane.retain_eq]
      exact Option.isSome_map
    · intro hempty
      rw [hempty, Lane.empty, Table.get_empty] at hcommitment
      cases hcommitment
  | timeOut _ hcommitment =>
    apply htabled.modifyLane
    · rfl
    · rfl
    · intro hempty
      rw [hempty, Lane.empty, Table.get_empty] at hcommitment
      cases hcommitment
  | @prune _ _ listed _ hstale =>
    apply htabled.modifyLane
    · rfl
    · rfl
    · intro hempty
      rw [hempty] at hstale ⊢
      cases listed with
      | nil => rfl
      | cons s rest =>
        obtain ⟨r, hr, -⟩ := Inbound.checkStale_ok_iff.mp hstale s List.mem_cons_self
        rw [Lane.empty, Table.get_empty] at hr
        cases hr
  | addRelayer | removeRelayer =>
    exact htabled.congr rfl (fun _ => rfl) fun _ => rfl
  | mapAgent | unmapAgent =>
    refine htabled.congr rfl (fun _ => rfl) fun chain => ?_
    rw [Ledger.peer_modifyPeer]
    split
    · next hchain => rw [hchain]
    · rfl

/-- Each call leaves the channels that the openings have created, its own among them. -/
theorem Effect.tabled (h : Effect cfg w origin call l e)
    (htabled : w.ledger.Tabled cfg w.chronicle.openings)
    (hlast : w.chronicle.openings.length < 18446744073709551615) :
    l.Tabled cfg (w.book origin call l e).chronicle.openings := by
  by_cases hcall : ∃ chain counterparty, call = .openChannel chain counterparty
  · obtain ⟨chain, counterparty, rfl⟩ := hcall
    rw [World.openings_book]
    cases h with
    | openChannel _ _ _ _ _ _ hroom => exact htabled.grow hlast hroom counterparty
  · have hother : ∀ chain counterparty, call ≠ .openChannel chain counterparty := by
      intro chain counterparty heq
      exact hcall ⟨chain, counterparty, heq⟩
    rw [World.openings_book_of_other w origin hother]
    exact h.tabled_of_other hother htabled

/-- A packet that comes in on a channel leaves the channels as they are. -/
theorem Ledger.Tabled.receipted {openings : List Opening} (h : l.Tabled cfg openings)
    {p : Packet} {c : Channel} (hfounded : (l.lane p.target).founded = some c) (now : Height)
    (ack : Acknowledgement) : (Reception.receipted l now p ack).Tabled cfg openings := by
  apply h.modifyLane
  · rfl
  · exact Option.isSome_map
  · intro hempty
    rw [hempty] at hfounded
    cases hfounded

/-- As long as the numbers last, the channels of a ledger are those that were opened. -/
def World.Tabled (cfg : Config) (w : World) : Prop :=
  w.chronicle.openings.length < 18446744073709551615 → w.ledger.Tabled cfg w.chronicle.openings

theorem Proceeds.tabled (h : Proceeds cfg w after) (htabled : w.Tabled cfg) :
    after.Tabled cfg := by
  induction h with
  | refl => exact htabled
  | host _ _ ih => exact ih htabled
  | deliver _ _ ih =>
    intro hfew
    exact (ih htabled hfew).congr rfl (fun _ => rfl) fun _ => rfl
  | call _ heffect ih =>
    intro hfew
    have hbefore := hfew
    rw [World.openings_book, List.length_append] at hbefore
    exact heffect.tabled (ih htabled (by omega)) (by omega)
  | @receive _ mid late who p channel agent ack _ hadmitted hnested ih ihnested =>
    -- the channel on which the packet was admitted is still there when its receipt is written
    have hfounded : (late.ledger.lane p.target).founded = some channel.asCreated := by
      refine (kept_founded cfg p.target channel.asCreated).proceeds hnested trivial ?_
      rw [Lane.founded, hadmitted.channel_eq, Option.map_some]
    have hother : ∀ chain counterparty, Call.receive p ≠ .openChannel chain counterparty := by
      intro chain counterparty heq
      cases heq
    intro hfew
    rw [World.openings_book_of_other _ _ hother] at hfew ⊢
    exact (ihnested (ih htabled) hfew).receipted hfounded _ _

theorem Reached.tabled {may : World → Step → Prop} (h : Reached cfg may w) : w.Tabled cfg := by
  refine h.induct (P := World.Tabled cfg) ?_ ?_
  · intro relayers host first hfirst
    obtain ⟨known, rfl⟩ := World.genesis_ok hfirst
    exact fun _ => .initial cfg known
  · intro w step htabled _
    cases step with
    | reach height => exact fun hfew => (htabled hfew).congr rfl (fun _ => rfl) fun _ => rfl
    | setRegistry registry => exact htabled
    | install topic app => exact htabled
    | call origin s => exact (take_call_proceeds w origin s).tabled htabled

/-- The tables of a ledger agree on which channels there are. -/
structure Ledger.Consistent (cfg : Config) (openings : List Opening) (l : Ledger) : Prop where
  counter : l.counter.toNat = openings.length
  /-- The channels are those with the numbers given out so far. -/
  numbered : ∀ id, (l.lane id).channel ≠ none ↔ ∃ n, n < l.counter ∧ id = Channel.idOf n
  /-- The channel with a number is the one that the opening with this number created. -/
  created : ∀ (n : UInt64) (o : Opening), openings[n.toNat]? = some o →
    ∃ c, (l.lane (Channel.idOf n)).channel = some c ∧ c.chain = o.chain ∧
      c.counterparty = o.counterparty ∧ c.createdAt = o.height
  counted : ∀ id, (l.lane id).sequences ≠ none ↔ (l.lane id).channel ≠ none
  named : ∀ id c, (l.lane id).channel = some c → c.id = id
  listed_once : ∀ id c, (l.lane id).channel = some c → ∀ chain,
    (l.peer chain).channels.count id = if chain = c.chain then 1 else 0
  listed_known : ∀ chain, ∀ id ∈ (l.peer chain).channels, (l.lane id).channel ≠ none
  listed_in_order : ∀ chain, ∃ numbers : List UInt64,
    (l.peer chain).channels = numbers.map Channel.idOf ∧ numbers.Pairwise (· < ·)
  room : ∀ chain, (l.peer chain).channels.length ≤ cfg.channelLimit.toNat
  /-- Nothing is kept under an identifier that is not the one of a channel. -/
  nothing_else : ∀ id, (l.lane id).channel = none →
    (l.lane id).pending = 0 ∧ (l.lane id).commitments = .empty ∧
      (l.lane id).receipts = .empty ∧ (l.lane id).acks = .empty ∧ (l.lane id).retained = []

namespace Ledger.Tabled

variable {openings : List Opening} {id chain : Bytes} {n : UInt64} {c : Channel}

theorem exists_opening (h : l.Tabled cfg openings) (hn : n < l.counter) :
    ∃ o, openings[n.toNat]? = some o ∧
      (l.lane (Channel.idOf n)).founded = some (o.channel n) := by
  have hlt : n.toNat < openings.length := by
    rw [← h.counter]
    exact UInt64.lt_iff_toNat_lt.mp hn
  obtain ⟨o, ho⟩ : ∃ o, openings[n.toNat]? = some o := ⟨_, List.getElem?_eq_getElem hlt⟩
  exact ⟨o, ho, h.opened n o ho⟩

/-- A channel has a number, and is what the opening with this number created. -/
theorem exists_number (h : l.Tabled cfg openings) (hc : (l.lane id).channel = some c) :
    ∃ n o, n < l.counter ∧ id = Channel.idOf n ∧ openings[n.toNat]? = some o ∧
      c.asCreated = o.channel n := by
  by_cases hknown : ∃ n, n < l.counter ∧ id = Channel.idOf n
  · obtain ⟨n, hn, rfl⟩ := hknown
    obtain ⟨o, ho, hfounded⟩ := h.exists_opening hn
    rw [Lane.founded, hc, Option.map_some, Option.some.injEq] at hfounded
    exact ⟨n, o, hn, rfl, ho, hfounded⟩
  · have hempty : l.lane id = .empty := by
      apply h.unopened
      intro n hn hid
      exact hknown ⟨n, hn, hid⟩
    rw [hempty] at hc
    cases hc

theorem channel_ne_none_iff (h : l.Tabled cfg openings) :
    (l.lane id).channel ≠ none ↔ ∃ n, n < l.counter ∧ id = Channel.idOf n := by
  constructor
  · intro hchannel
    obtain ⟨c, hc⟩ := Option.ne_none_iff_exists'.mp hchannel
    obtain ⟨n, _, hn, hid, -⟩ := h.exists_number hc
    exact ⟨n, hn, hid⟩
  · rintro ⟨n, hn, rfl⟩ hnone
    obtain ⟨o, -, hfounded⟩ := h.exists_opening hn
    rw [Lane.founded, hnone] at hfounded
    cases hfounded

theorem eq_empty (h : l.Tabled cfg openings) (hnone : (l.lane id).channel = none) :
    l.lane id = .empty := by
  apply h.unopened
  intro n hn hid
  exact h.channel_ne_none_iff.mpr ⟨n, hn, hid⟩ hnone

/-- A channel is listed once under its chain, and nowhere else. -/
theorem count_listed (h : l.Tabled cfg openings) (hc : (l.lane id).channel = some c)
    (chain : Bytes) :
    (l.peer chain).channels.count id = if chain = c.chain then 1 else 0 := by
  obtain ⟨n, o, -, rfl, ho, hcreated⟩ := h.exists_number hc
  obtain ⟨numbers, hids, hordered, hmem⟩ := h.listed chain
  have hchain : c.chain = o.chain := congrArg Channel.chain hcreated
  have hnodup : (numbers.map Channel.idOf).Nodup := by
    have hnumbers : numbers.Nodup := hordered.imp fun hlt => UInt64.ne_of_lt hlt
    exact hnumbers.map Channel.idOf_injective
  have hlisted : Channel.idOf n ∈ numbers.map Channel.idOf ↔ chain = c.chain := by
    rw [List.mem_map_of_injective Channel.idOf_injective, hmem, ho, hchain]
    simp [eq_comm]
  rw [hids, hnodup.count]
  simp only [hlisted]

theorem listed_known (h : l.Tabled cfg openings) (hid : id ∈ (l.peer chain).channels) :
    (l.lane id).channel ≠ none := by
  obtain ⟨numbers, hids, -, hmem⟩ := h.listed chain
  rw [hids, List.mem_map] at hid
  obtain ⟨n, hn, rfl⟩ := hid
  obtain ⟨o, ho, -⟩ := (hmem n).mp hn
  have hfounded := h.opened n o ho
  intro hnone
  rw [Lane.founded, hnone] at hfounded
  cases hfounded

theorem consistent (h : l.Tabled cfg openings) : l.Consistent cfg openings := by
  constructor
  case counter => exact h.counter
  case numbered => exact fun _ => h.channel_ne_none_iff
  case created =>
    intro n o ho
    obtain ⟨c, hc, hcreated⟩ := Option.map_eq_some_iff.mp (h.opened n o ho)
    exact ⟨c, hc, congrArg Channel.chain hcreated, congrArg Channel.counterparty hcreated,
      congrArg Channel.createdAt hcreated⟩
  case counted =>
    intro id
    rw [← Option.isSome_iff_ne_none, ← Option.isSome_iff_ne_none, h.counted]
  case named =>
    intro id c hc
    obtain ⟨n, o, -, rfl, -, hcreated⟩ := h.exists_number hc
    exact congrArg Channel.id hcreated
  case listed_once => exact fun _ _ hc => h.count_listed hc
  case listed_known => exact fun _ _ hid => h.listed_known hid
  case listed_in_order =>
    intro chain
    obtain ⟨numbers, hids, hordered, -⟩ := h.listed chain
    exact ⟨numbers, hids, hordered⟩
  case room => exact h.room
  case nothing_else =>
    intro id hnone
    rw [h.eq_empty hnone]
    exact ⟨rfl, rfl, rfl, rfl, rfl⟩

end Ledger.Tabled

end

/-- In every world of a run, and in every world in which a call is made, nested or not, all
tables of the ledger agree on which channels there are, as long as the numbers last. -/
theorem channel_tables_consistent (cfg : Config) :
    (∀ w, Reached cfg (fun _ _ => True) w →
      w.chronicle.openings.length < 18446744073709551615 →
      w.ledger.Consistent cfg w.chronicle.openings) ∧
    ∀ layers origin s w, Made cfg (fun _ _ => True) layers origin s w →
      w.chronicle.openings.length < 18446744073709551615 →
      w.ledger.Consistent cfg w.chronicle.openings := by
  constructor
  · intro w hreached hfew
    exact (hreached.tabled hfew).consistent
  · intro layers origin s w hmade hfew
    obtain ⟨start, _, _, hreached, -, hproceeds⟩ := hmade.proceeds
    exact (hproceeds.tabled hreached.tabled hfew).consistent

namespace Small

/-- Three channels towards two chains, one of which takes no more. -/
def crossroads : World :=
  first.after cfg (opening ++ [.call .root (.value (.openChannel [3] [4])),
    .call .root (.value (.openChannel [1] [5])), .call .root (.value (.openChannel [1] [6]))])

theorem crossroads_consistent :
    crossroads.chronicle.openings = [⟨1, [1], [2]⟩, ⟨1, [3], [4]⟩, ⟨1, [1], [5]⟩] ∧
      crossroads.ledger.Consistent cfg crossroads.chronicle.openings ∧
      -- `channel-2` and `channel-3`
      (crossroads.ledger.peer [1]).channels.count
        [99, 104, 97, 110, 110, 101, 108, 45, 50] = 1 ∧
      (crossroads.ledger.lane [99, 104, 97, 110, 110, 101, 108, 45, 51]).channel = none := by
  have hopenings : crossroads.chronicle.openings =
      [⟨1, [1], [2]⟩, ⟨1, [3], [4]⟩, ⟨1, [1], [5]⟩] := rfl
  have hfew : crossroads.chronicle.openings.length < 18446744073709551615 := by
    rw [hopenings]
    decide
  have hconsistent := (channel_tables_consistent cfg).1 crossroads (reached _) hfew
  obtain ⟨c, hc, hchain, -⟩ := hconsistent.created 2 ⟨1, [1], [5]⟩ rfl
  have hnamed : Channel.idOf 2 = [99, 104, 97, 110, 110, 101, 108, 45, 50] := by decide
  have hnext : Channel.idOf 3 = [99, 104, 97, 110, 110, 101, 108, 45, 51] := by decide
  refine ⟨hopenings, hconsistent, ?_, ?_⟩
  · rw [← hnamed, hconsistent.listed_once _ c hc, if_pos hchain.symm]
  · rw [← hnext]
    by_contra hknown
    obtain ⟨n, hn, hid⟩ := (hconsistent.numbered _).mp hknown
    have hcounter := hconsistent.counter
    rw [← Channel.idOf_injective hid, UInt64.lt_iff_toNat_lt, hcounter, hopenings] at hn
    exact absurd hn (by decide)

end Small

end RelayLedger
