import Mathlib.Data.List.DropRight
import Mathlib.Data.List.ReduceOption
import RelayLedger.Capacity

/-!
Values that go through a queue of limited size. A push neither loses a value nor changes the
order of those that are there: what leaves the queue, followed by what it keeps, is what it held
with the new value behind. So after any number of pushes the queue holds the end of all that was
ever in it, and the pushes gave back the rest, oldest first.
-/
namespace RelayLedger.Capacity

variable {α : Type}

/-- Makes room in a queue for one more value: what has to leave it, and what is left of it. -/
def makeRoom (limit : UInt32) (queue : List α) : Option α × List α :=
  if limit.toNat ≤ queue.length then (queue.head?, queue.tail) else (none, queue)

/-- Values that are pushed one after another: what each push gave back, and the queue that they
leave. -/
def pushAll (limit : UInt32) : List α → List α → List (Option α) × List α
  | queue, [] => ([], queue)
  | queue, x :: xs =>
    let (gone, next) := pushEvicting limit queue x
    let (others, last) := pushAll limit next xs
    (gone :: others, last)

section

variable {limit : UInt32} {queue : List α}

theorem makeRoom_append (limit : UInt32) (queue : List α) :
    (makeRoom limit queue).1.toList ++ (makeRoom limit queue).2 = queue := by
  unfold makeRoom
  split
  · cases queue with
    | nil => rfl
    | cons oldest rest => rfl
  · rfl

theorem length_makeRoom (hlimit : limit ≠ 0) (h : queue.length ≤ limit.toNat) :
    (makeRoom limit queue).2.length + 1 = min limit.toNat (queue.length + 1) := by
  have hpos := toNat_pos hlimit
  unfold makeRoom
  split
  · rw [List.length_tail]
    omega
  · change queue.length + 1 = _
    omega

/-- Where there is room at all, the push finds the slot that was made free. -/
theorem push?_makeRoom (hlimit : limit ≠ 0) (h : queue.length ≤ limit.toNat) (x : α) :
    push? limit (makeRoom limit queue).2 x = some ((makeRoom limit queue).2 ++ [x]) := by
  have hlength := length_makeRoom hlimit h
  have hfree : (makeRoom limit queue).2.length < limit.toNat := by omega
  exact push?_eq_some_iff.mpr ⟨hfree, rfl⟩

/-- A push, with the step that makes room for it taken apart. -/
theorem pushEvicting_eq (limit : UInt32) (queue : List α) (x : α) :
    pushEvicting limit queue x =
      if limit = 0 then (some x, queue)
      else
        match push? limit (makeRoom limit queue).2 x with
        | some ys => ((makeRoom limit queue).1, ys)
        | none => (some x, (makeRoom limit queue).2) := rfl

theorem pushEvicting_of_room (hlimit : limit ≠ 0) (h : queue.length ≤ limit.toNat) (x : α) :
    pushEvicting limit queue x =
      ((makeRoom limit queue).1, (makeRoom limit queue).2 ++ [x]) := by
  rw [pushEvicting_eq, if_neg hlimit, push?_makeRoom hlimit h x]

theorem eq_nil_of_length_le_zero (h : queue.length ≤ (0 : UInt32).toNat) : queue = [] :=
  List.length_eq_zero_iff.mp (Nat.le_zero.mp h)

/-- What a push gives back and what it leaves are what was there and the new value, in order. -/
theorem pushEvicting_append (h : queue.length ≤ limit.toNat) (x : α) :
    (pushEvicting limit queue x).1.toList ++ (pushEvicting limit queue x).2 = queue ++ [x] := by
  by_cases hlimit : limit = 0
  · subst hlimit
    rw [eq_nil_of_length_le_zero h]
    rfl
  · rw [pushEvicting_of_room hlimit h x, ← List.append_assoc, makeRoom_append]

theorem length_pushEvicting (h : queue.length ≤ limit.toNat) (x : α) :
    (pushEvicting limit queue x).2.length = min limit.toNat (queue.length + 1) := by
  by_cases hlimit : limit = 0
  · subst hlimit
    rw [eq_nil_of_length_le_zero h]
    rfl
  · rw [pushEvicting_of_room hlimit h x, List.length_append]
    exact length_makeRoom hlimit h

theorem length_fst_pushAll (limit : UInt32) (queue values : List α) :
    (pushAll limit queue values).1.length = values.length := by
  induction values generalizing queue with
  | nil => rfl
  | cons x xs ih => exact congrArg (· + 1) (ih _)

theorem length_pushAll (h : queue.length ≤ limit.toNat) (values : List α) :
    (pushAll limit queue values).2.length = min limit.toNat (queue.length + values.length) := by
  -- on the values that are left, with the queue that the push before leaves
  induction values generalizing queue with
  | nil => exact (Nat.min_eq_right h).symm
  | cons x xs ih =>
    have hlength := length_pushEvicting h x
    have hnext : (pushEvicting limit queue x).2.length ≤ limit.toNat := by omega
    change (pushAll limit (pushEvicting limit queue x).2 xs).2.length = _
    rw [ih hnext, List.length_cons]
    omega

theorem reduceOption_cons (gone : Option α) (others : List (Option α)) :
    (gone :: others).reduceOption = gone.toList ++ others.reduceOption := by
  cases gone with
  | none => rfl
  | some x => rfl

/-- What all pushes give back and what they leave are what was there and the values, in order. -/
theorem pushAll_append (h : queue.length ≤ limit.toNat) (values : List α) :
    (pushAll limit queue values).1.reduceOption ++ (pushAll limit queue values).2 =
      queue ++ values := by
  induction values generalizing queue with
  | nil => exact (List.append_nil queue).symm
  | cons x xs ih =>
    have hlength := length_pushEvicting h x
    have hnext : (pushEvicting limit queue x).2.length ≤ limit.toNat := by omega
    calc (pushAll limit queue (x :: xs)).1.reduceOption ++ (pushAll limit queue (x :: xs)).2
        = ((pushEvicting limit queue x).1 ::
              (pushAll limit (pushEvicting limit queue x).2 xs).1).reduceOption ++
            (pushAll limit (pushEvicting limit queue x).2 xs).2 := rfl
      _ = (pushEvicting limit queue x).1.toList ++ ((pushEvicting limit queue x).2 ++ xs) := by
        rw [reduceOption_cons, List.append_assoc, ih hnext]
      _ = queue ++ x :: xs := by
        rw [← List.append_assoc, pushEvicting_append h x, List.append_assoc]
        rfl

/-- A queue of limited size is a window on all that is pushed. It keeps the last values, as many
as there is room for; the pushes give back the others, each of them once and in order; and where
there is room at all, a push finds a free slot whatever was pushed before it. -/
theorem pushAll_slides (h : queue.length ≤ limit.toNat) (values : List α) :
    (pushAll limit queue values).2 =
        (queue ++ values).rtake (min limit.toNat (queue ++ values).length) ∧
      (pushAll limit queue values).1.length = values.length ∧
      (pushAll limit queue values).1.reduceOption =
        (queue ++ values).rdrop (min limit.toNat (queue ++ values).length) ∧
      (pushAll limit queue values).1.reduceOption ++ (pushAll limit queue values).2 =
        queue ++ values ∧
      (limit ≠ 0 → ∀ before x, ∃ ys,
        push? limit (makeRoom limit (pushAll limit queue before).2).2 x = some ys ∧
          pushEvicting limit (pushAll limit queue before).2 x =
            ((makeRoom limit (pushAll limit queue before).2).1, ys)) := by
  have hwhole := pushAll_append h values
  have hkept : (pushAll limit queue values).2.length =
      min limit.toNat (queue ++ values).length := by
    rw [length_pushAll h, List.length_append]
  refine ⟨?_, length_fst_pushAll limit queue values, ?_, hwhole, ?_⟩
  · rw [← hkept, ← hwhole, List.rtake, List.length_append, Nat.add_sub_cancel, List.drop_left]
  · rw [← hkept, ← hwhole, List.rdrop, List.length_append, Nat.add_sub_cancel, List.take_left]
  · intro hlimit before x
    have hlength := length_pushAll h before
    have hbefore : (pushAll limit queue before).2.length ≤ limit.toNat := by omega
    exact ⟨_, push?_makeRoom hlimit hbefore x, pushEvicting_of_room hlimit hbefore x⟩

end

end RelayLedger.Capacity

namespace RelayLedger.Small

open Capacity

/-- Two places, one of them taken, and three values. -/
theorem narrow_slides :
    ([1] : List Sequence).length ≤ (2 : UInt32).toNat ∧
      (pushAll 2 [1] [2, 3, 4]).2 = ([3, 4] : List Sequence) ∧
      (pushAll 2 [1] [2, 3, 4]).1.reduceOption = ([1, 2] : List Sequence) ∧
      ∃ ys, push? 2 (makeRoom 2 (pushAll 2 [1] [2, 3]).2).2 (4 : Sequence) = some ys ∧
        pushEvicting 2 (pushAll 2 [1] [2, 3]).2 4 =
          ((makeRoom 2 (pushAll 2 [1] [2, 3]).2).1, ys) := by
  have hfits : ([1] : List Sequence).length ≤ (2 : UInt32).toNat := by decide
  obtain ⟨hkept, -, hgone, -, hfound⟩ := pushAll_slides hfits [2, 3, 4]
  exact ⟨hfits, hkept, hgone, hfound (by decide) [2, 3] 4⟩

end RelayLedger.Small
