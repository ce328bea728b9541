import RelayLedger.Basic

/-!
Stores of limited size. Every function here looks at the limit and makes the change in one go,
so that no store can outgrow its limit between a check and a write.
-/
namespace RelayLedger.Capacity

/-- Why a value was not taken into a set. -/
inductive Rejection
  | duplicate
  | full
  deriving DecidableEq

variable {α : Type}

/-- The list with `x` at its end, if there is room for it. -/
def push? (limit : UInt32) (xs : List α) (x : α) : Option (List α) :=
  if xs.length < limit.toNat then some (xs ++ [x]) else none

/-- A set, kept as a list in order of insertion, with one more member. -/
def insertNew [DecidableEq α] (limit : UInt32) (xs : List α) (x : α) :
    Except Rejection (List α) :=
  if x ∈ xs then .error .duplicate
  else
    match push? limit xs x with
    | some ys => .ok ys
    | none => .error .full

/-- A set without one of its members. -/
def remove? [DecidableEq α] (xs : List α) (x : α) : Option (List α) :=
  if x ∈ xs then some (xs.erase x) else none

/-- A count that is one higher, if it was below the limit. -/
def increment? (limit count : UInt32) : Option UInt32 :=
  if limit ≤ count then none else some (count + 1)

/-- A count that is one lower, or zero as before. -/
def decrement (count : UInt32) : UInt32 :=
  if count = 0 then 0 else count - 1

/-- A queue with `x` at its end, and the value that had to leave it: the oldest one of a full
queue, and `x` itself where there is no room at all. -/
def pushEvicting (limit : UInt32) (queue : List α) (x : α) : Option α × List α :=
  if limit = 0 then (some x, queue)
  else
    let (evicted, rest) :=
      if limit.toNat ≤ queue.length then (queue.head?, queue.tail) else (none, queue)
    match push? limit rest x with
    | some ys => (evicted, ys)
    | none => (some x, rest)

/-! What the functions do to lengths, members and counts. -/

/-- A limit that something is below leaves room at all. -/
theorem ne_zero_of_lt {limit : UInt32} {n : Nat} (h : n < limit.toNat) : limit ≠ 0 := by
  rintro rfl
  exact absurd h (Nat.not_lt_zero n)

theorem toNat_pos {limit : UInt32} (h : limit ≠ 0) : 0 < limit.toNat :=
  Nat.pos_of_ne_zero fun hzero => h (UInt32.toNat_inj.mp hzero)

theorem push?_eq_some_iff {limit : UInt32} {xs ys : List α} {x : α} :
    push? limit xs x = some ys ↔ xs.length < limit.toNat ∧ ys = xs ++ [x] := by
  unfold push?
  split
  · next h => simp [h, eq_comm]
  · next h => simp [h]

theorem insertNew_eq_ok_iff [DecidableEq α] {limit : UInt32} {xs ys : List α} {x : α} :
    insertNew limit xs x = .ok ys ↔ x ∉ xs ∧ xs.length < limit.toNat ∧ ys = xs ++ [x] := by
  unfold insertNew push?
  split
  · next h => simp [h]
  · next h =>
    by_cases hlen : xs.length < limit.toNat
    · simp [h, hlen, eq_comm]
    · simp [hlen]

theorem insertNew_eq_duplicate_iff [DecidableEq α] {limit : UInt32} {xs : List α} {x : α} :
    insertNew limit xs x = .error .duplicate ↔ x ∈ xs := by
  unfold insertNew push?
  split
  · next h => simp [h]
  · next h =>
    by_cases hlen : xs.length < limit.toNat
    · simp [h, hlen]
    · simp [h, hlen]

theorem insertNew_eq_full_iff [DecidableEq α] {limit : UInt32} {xs : List α} {x : α} :
    insertNew limit xs x = .error .full ↔ x ∉ xs ∧ limit.toNat ≤ xs.length := by
  unfold insertNew push?
  split
  · next h => simp [h]
  · next h =>
    by_cases hlen : xs.length < limit.toNat
    · simp [hlen]
    · simp [h, hlen, Nat.not_lt.mp hlen]

theorem remove?_eq_some_iff [DecidableEq α] {xs ys : List α} {x : α} :
    remove? xs x = some ys ↔ x ∈ xs ∧ ys = xs.erase x := by
  unfold remove?
  split
  · next h => simp [h, eq_comm]
  · next h => simp [h]

theorem increment?_eq_none_iff {limit count : UInt32} :
    increment? limit count = none ↔ limit ≤ count := by
  unfold increment?
  split <;> simp [*]

theorem increment?_eq_some_iff {limit count higher : UInt32} :
    increment? limit count = some higher ↔
      count < limit ∧ higher.toNat = count.toNat + 1 := by
  have hlimit := limit.toNat_lt
  unfold increment?
  split
  · next h =>
    simp only [reduceCtorEq, false_iff, not_and]
    exact fun hlt => absurd hlt (UInt32.not_lt.mpr h)
  · next h =>
    have hlt := UInt32.not_le.mp h
    have hsum : (count + 1).toNat = count.toNat + 1 := by
      rw [UInt32.toNat_add]
      have := UInt32.lt_iff_toNat_lt.mp hlt
      change (count.toNat + 1) % 4294967296 = _
      omega
    rw [Option.some.injEq, ← UInt32.toNat_inj, hsum]
    exact ⟨fun heq => ⟨hlt, heq.symm⟩, fun heq => heq.2.symm⟩

@[simp] theorem toNat_decrement (count : UInt32) :
    (decrement count).toNat = count.toNat - 1 := by
  unfold decrement
  split
  · next h => simp [h]
  · next h =>
    have hpos := toNat_pos h
    rw [UInt32.toNat_sub_of_le _ _ (UInt32.le_iff_toNat_le.mpr (by
      change 1 ≤ count.toNat
      omega))]
    rfl

/-- A queue that keeps to its limit takes a value in; where it is full the oldest one leaves. -/
theorem pushEvicting_of_length_le {limit : UInt32} {queue : List α} (x : α)
    (h : queue.length ≤ limit.toNat) :
    pushEvicting limit queue x =
      if limit = 0 then (some x, queue)
      else if queue.length < limit.toNat then (none, queue ++ [x])
      else (queue.head?, queue.tail ++ [x]) := by
  unfold pushEvicting push?
  split
  · rfl
  · next hzero =>
    have hpos := toNat_pos hzero
    by_cases hroom : queue.length < limit.toNat
    · simp [hroom, Nat.not_le.mpr hroom]
    · have htail : queue.length - 1 < limit.toNat := by omega
      simp [hroom, Nat.not_lt.mp hroom, htail]

end RelayLedger.Capacity
