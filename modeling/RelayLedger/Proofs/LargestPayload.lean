import RelayLedger.Proofs.Trials

/-!
The largest raw payload. The length in front of the data takes one, two, four or five bytes, so the
size of a raw payload jumps where it comes to take more of them, and there are limits which no raw
payload uses up. The search for the largest one goes down from the limit, one byte at a time, and
ends at the first length that fits; a send lets its payload through, and no raw payload with more
data.
-/
namespace RelayLedger

namespace Benchmark

/-- How many bytes of data there may be in a raw payload of at most `limit` bytes. The tag and the
length take two, three, five or six bytes besides, and up to the last case there is only so much
data whose length takes so many. -/
def roomFor (limit : Nat) : Nat :=
  if limit < 67 then min (limit - 2) 63
  else if limit < 16389 then min (limit - 3) 16383
  else if limit < 1073741830 then min (limit - 5) 1073741823
  else limit - 6

/-- The sizes that no raw payload has, of those that are not too small for any. -/
def skippedSizes : List Nat := [66, 16387, 16388, 1073741829]

theorem roomFor_le (limit : Nat) : roomFor limit ≤ limit := by
  unfold roomFor
  split_ifs <;> omega

theorem roomFor_of_lt {limit : Nat} (hlimit : limit < 2) : roomFor limit = 0 := by
  unfold roomFor
  rw [if_pos (by omega)]
  omega

/-- Where any data fit at all, those fit for which there is room. -/
theorem fits_iff_le_roomFor {limit n : Nat} (h : n ≠ 0 ∨ 2 ≤ limit) :
    1 + Layout.lengthSize n + n ≤ limit ↔ n ≤ roomFor limit := by
  unfold Layout.lengthSize roomFor
  split_ifs <;> omega

/-- Data for which there is just room use the limit up, unless nothing does. -/
theorem size_roomFor {limit : Nat} (hlimit : 2 ≤ limit) :
    1 + Layout.lengthSize (roomFor limit) + roomFor limit = limit ↔ limit ∉ skippedSizes := by
  simp only [skippedSizes, List.mem_cons, List.not_mem_nil, or_false, not_or]
  unfold Layout.lengthSize roomFor
  split_ifs <;> omega

theorem size_not_skipped (n : Nat) : 1 + Layout.lengthSize n + n ∉ skippedSizes := by
  simp only [skippedSizes, List.mem_cons, List.not_mem_nil, or_false, not_or]
  unfold Layout.lengthSize
  split_ifs <;> omega

theorem longestRaw_eq (limit n : Nat) : longestRaw limit n = min n (roomFor limit) := by
  induction n with
  | zero => exact (Nat.zero_min _).symm
  | succ n ih =>
    have hfits : 1 + Layout.lengthSize (n + 1) + (n + 1) ≤ limit ↔ n + 1 ≤ roomFor limit :=
      fits_iff_le_roomFor (.inl (Nat.succ_ne_zero n))
    unfold longestRaw
    split
    · next h => exact (Nat.min_eq_left (hfits.mp h)).symm
    · next h =>
      have hmore : ¬n + 1 ≤ roomFor limit := fun hle => h (hfits.mpr hle)
      rw [ih]
      omega

theorem largestRaw_eq (cfg : Config) :
    largestRaw cfg = .raw (List.replicate (roomFor cfg.payloadLimit.toNat) 165) := by
  rw [largestRaw, longestRaw_eq, Nat.min_eq_right (roomFor_le _)]

/-! The search, round by round. -/

/-- The payload with which a length is tried; data past the limit are cut off. -/
def tried (cfg : Config) (length : Nat) : Payload :=
  .raw ((List.replicate length 165).take cfg.payloadLimit.toNat)

/-- The search goes no further than this length. -/
def Stops (cfg : Config) (length : Nat) : Prop :=
  (tried cfg length).size cfg ≤ cfg.payloadLimit.toNat ∨ length = 0

/-- A search that begins with a length and comes to an end: how many rounds it takes, and the
payload that it finds. -/
inductive Search (cfg : Config) : Nat → Nat → Payload → Prop
  | stop {length : Nat} (h : Stops cfg length) : Search cfg length 1 (tried cfg length)
  | shorten {length rounds : Nat} {p : Payload} (h : ¬Stops cfg length)
      (hrest : Search cfg (length - 1) rounds p) : Search cfg length (rounds + 1) p

section

variable {cfg : Config} {length : Nat}

theorem tried_eq (hlength : length ≤ cfg.payloadLimit.toNat) :
    tried cfg length = .raw (List.replicate length 165) := by
  rw [tried, List.take_of_length_le (by rwa [List.length_replicate])]

theorem stops_iff (hlength : length ≤ cfg.payloadLimit.toNat) :
    Stops cfg length ↔ length ≤ roomFor cfg.payloadLimit.toNat := by
  rw [Stops, tried_eq hlength, Payload.size_raw, List.length_replicate]
  by_cases hzero : length = 0
  · simp [hzero]
  · rw [fits_iff_le_roomFor (.inl hzero)]
    simp [hzero]

/-- A search that does not begin past the limit comes to an end. -/
theorem exists_search (hlength : length ≤ cfg.payloadLimit.toNat) :
    ∃ rounds p, Search cfg length rounds p := by
  induction length with
  | zero => exact ⟨1, _, .stop (.inr rfl)⟩
  | succ length ih =>
    by_cases hstops : Stops cfg (length + 1)
    · exact ⟨1, _, .stop hstops⟩
    · obtain ⟨rounds, p, hrest⟩ := ih (Nat.le_of_succ_le hlength)
      exact ⟨rounds + 1, p, .shorten hstops hrest⟩

/-- Where a search ends: with as much data as there is room for, one round for each byte less. -/
theorem Search.found {rounds : Nat} {p : Payload} (h : Search cfg length rounds p)
    (hlength : length ≤ cfg.payloadLimit.toNat) :
    rounds = length - roomFor cfg.payloadLimit.toNat + 1 ∧
      p = .raw (List.replicate (min length (roomFor cfg.payloadLimit.toNat)) 165) := by
  induction h with
  | @stop length hstops =>
    have hroom := (stops_iff hlength).mp hstops
    rw [Nat.min_eq_left hroom]
    exact ⟨by omega, tried_eq hlength⟩
  | @shorten length rounds p hstops _ ih =>
    have hroom : ¬length ≤ roomFor cfg.payloadLimit.toNat := fun hle =>
      hstops ((stops_iff hlength).mpr hle)
    obtain ⟨hrounds, hp⟩ := ih (by omega)
    refine ⟨by omega, ?_⟩
    rw [hp]
    congr 2
    omega

/-- The search from the limit ends, and the largest raw payload is what it finds. -/
theorem search_iff {rounds : Nat} {p : Payload} :
    Search cfg cfg.payloadLimit.toNat rounds p ↔
      rounds = cfg.payloadLimit.toNat - roomFor cfg.payloadLimit.toNat + 1 ∧
        p = largestRaw cfg := by
  have hlargest : largestRaw cfg = .raw (List.replicate
      (min cfg.payloadLimit.toNat (roomFor cfg.payloadLimit.toNat)) 165) := by
    rw [largestRaw_eq, Nat.min_eq_right (roomFor_le _)]
  constructor
  · intro h
    rw [hlargest]
    exact h.found (Nat.le_refl _)
  · rintro ⟨rfl, rfl⟩
    obtain ⟨rounds, p, h⟩ : ∃ rounds p, Search cfg cfg.payloadLimit.toNat rounds p :=
      exists_search (Nat.le_refl _)
    obtain ⟨rfl, rfl⟩ := h.found (Nat.le_refl _)
    rwa [hlargest]

end

end Benchmark

open Relay in
/-- A send is refused for the size of its payload if and only if it comes to that check and the
payload is above the limit. -/
theorem Outbound.send_tooLong_iff {cfg : Config} {w : World} {who : Account}
    {id chain counterparty : Bytes} {agent : Option Bytes} {payload : Payload} :
    ((Outbound.send cfg who id chain counterparty agent payload).run w).1 =
        .error (.refused .payloadTooLong) ↔
      (∃ channel, (w.ledger.lane id).channel = some channel ∧ channel.state = .opened ∧
        channel.chain = chain ∧ channel.counterparty = counterparty) ∧
      payload.isAck = false ∧ cfg.payloadLimit.toNat < payload.size cfg := by
  simp only [send, run_lane_bind, run_now_bind, run_demand_bind]
  cases (w.ledger.lane id).channel with
  | none => simp
  | some channel =>
    simp only [run_require_bind, run_expect_bind, ChannelState.isOpen, decide_eq_true_eq,
      Bool.and_eq_true, Bool.not_eq_true', Option.some.injEq, exists_eq_left']
    split_ifs with hopened hroute hsent hsize
    · -- past the check nothing is refused for it
      refine iff_of_false ?_ fun h => absurd h.2.2 (Nat.not_lt.mpr hsize)
      cases Capacity.increment? cfg.pendingLimit (w.ledger.lane id).pending with
      | none => simp
      | some pending =>
        cases (w.ledger.lane id).sequences with
        | none => simp
        | some counts => simp [Except.map]
    · exact iff_of_true rfl ⟨⟨hopened, hroute⟩, hsent, Nat.not_le.mp hsize⟩
    · exact iff_of_false (by simp) fun h => hsent h.2.1
    · exact iff_of_false (by simp) fun h => hroute h.1.2
    · exact iff_of_false (by simp) fun h => hopened h.1.1

namespace Benchmark

/-- Data with which a raw payload keeps to its limit, where none with more data does. -/
structure Greatest (cfg : Config) (data : Bytes) : Prop where
  fits : (Payload.raw data).size cfg ≤ cfg.payloadLimit.toNat
  longer_exceed : ∀ longer : Bytes, data.length < longer.length →
    cfg.payloadLimit.toNat < (Payload.raw longer).size cfg
  used_up : (Payload.raw data).size cfg = cfg.payloadLimit.toNat ↔
    cfg.payloadLimit.toNat ∉ skippedSizes
  skipped : cfg.payloadLimit.toNat ∈ skippedSizes →
    ∀ other : Bytes, (Payload.raw other).size cfg ≠ cfg.payloadLimit.toNat
  /-- A send is never refused for the size of the payload. -/
  sent : ∀ w who id chain counterparty agent,
    ((Outbound.send cfg who id chain counterparty agent (.raw data)).run w).1 ≠
      .error (.refused .payloadTooLong)
  /-- With more data a send that comes to the check is refused there. -/
  longer_refused : ∀ longer : Bytes, data.length < longer.length →
    ∀ w who id agent channel, (w.ledger.lane id).channel = some channel →
      channel.state = .opened →
      ((Outbound.send cfg who id channel.chain channel.counterparty agent (.raw longer)).run w).1 =
        .error (.refused .payloadTooLong)

variable {cfg : Config}

theorem greatest_of_length_eq (hlimit : 2 ≤ cfg.payloadLimit.toNat) {data : Bytes}
    (hdata : data.length = roomFor cfg.payloadLimit.toNat) : Greatest cfg data := by
  have hfits : (Payload.raw data).size cfg ≤ cfg.payloadLimit.toNat := by
    rw [Payload.size_raw, fits_iff_le_roomFor (.inr hlimit), hdata]
  have hlonger (longer : Bytes) (h : data.length < longer.length) :
      cfg.payloadLimit.toNat < (Payload.raw longer).size cfg := by
    rw [Payload.size_raw, ← Nat.not_le, fits_iff_le_roomFor (.inr hlimit), ← hdata]
    exact Nat.not_le.mpr h
  constructor
  case fits => exact hfits
  case longer_exceed => exact hlonger
  case used_up => rw [Payload.size_raw, hdata, size_roomFor hlimit]
  case skipped =>
    intro hskipped other hsize
    rw [← hsize, Payload.size_raw] at hskipped
    exact size_not_skipped _ hskipped
  case sent =>
    intro w who id chain counterparty agent hrefused
    obtain ⟨-, -, hexceeds⟩ := Outbound.send_tooLong_iff.mp hrefused
    exact absurd hfits (Nat.not_le.mpr hexceeds)
  case longer_refused =>
    intro longer h w who id agent channel hchannel hopened
    exact Outbound.send_tooLong_iff.mpr
      ⟨⟨channel, hchannel, hopened, rfl, rfl⟩, rfl, hlonger longer h⟩

/-- Whatever the limit is, the search for the largest raw payload ends and finds filler data, as
much as there is room for behind the tag and the length. From two bytes on that is the greatest raw
payload that keeps to the limit, and below it is the empty one. -/
theorem largest_raw_found (cfg : Config) :
    (∀ rounds p, Search cfg cfg.payloadLimit.toNat rounds p ↔
      rounds = cfg.payloadLimit.toNat - roomFor cfg.payloadLimit.toNat + 1 ∧
        p = largestRaw cfg) ∧
      (∀ data, (Payload.layout cfg).write (.raw data) =
        0 :: (Layout.length.write data.length ++ data)) ∧
      largestRaw cfg = .raw (List.replicate (roomFor cfg.payloadLimit.toNat) 165) ∧
      (2 ≤ cfg.payloadLimit.toNat →
        Greatest cfg (List.replicate (roomFor cfg.payloadLimit.toNat) 165)) ∧
      (cfg.payloadLimit.toNat < 2 → largestRaw cfg = .raw []) := by
  refine ⟨fun _ _ => search_iff, fun _ => rfl, largestRaw_eq cfg, fun hlimit => ?_,
    fun hlimit => ?_⟩
  · exact greatest_of_length_eq hlimit List.length_replicate
  · rw [largestRaw_eq, roomFor_of_lt hlimit]
    rfl

end Benchmark

namespace Small

open Benchmark

/-- A limit just above the sizes of payloads whose length takes two bytes. -/
def snug : Config := { cfg with payloadLimit := 16388 }

/-- Two bytes of the limit are left over, and no payload has just that size. -/
theorem snug_largest :
    2 ≤ snug.payloadLimit.toNat ∧ Search snug 16388 6 (.raw (List.replicate 16383 165)) ∧
      Greatest snug (List.replicate 16383 165) ∧
      ∀ other : Bytes, (Payload.raw other).size snug ≠ 16388 := by
  have hlimit : 2 ≤ snug.payloadLimit.toNat := by decide
  have hroom : roomFor snug.payloadLimit.toNat = 16383 := by decide
  obtain ⟨hsearch, -, hlargest, hgreatest, -⟩ := largest_raw_found snug
  rw [hroom] at hsearch hlargest hgreatest
  refine ⟨hlimit, ?_, hgreatest hlimit, (hgreatest hlimit).skipped (by decide)⟩
  exact (hsearch 6 _).mpr ⟨rfl, hlargest.symm⟩

end Small

end RelayLedger
