import RelayLedger.Proofs.Runs

/-!
Two ledgers side by side. Their steps come in any order, and nothing ties their block numbers
together. What each side went through is a run of its own, the projection of the common history
to its steps; positions in the common history are translated into positions of these runs.
-/
namespace RelayLedger

/-- One of two ledgers. -/
inductive Side
  | near
  | far
  deriving DecidableEq

/-- A step that one of two ledgers takes. -/
structure Move where
  side : Side
  step : Step

namespace Side

variable (side : Side) {moves : List Move}

/-- The steps of one side, in their order. -/
def steps (moves : List Move) : List Step :=
  moves.filterMap fun m => if m.side = side then some m.step else none

/-- How many of the first moves are steps of one side. -/
def clock (moves : List Move) (i : Nat) : Nat := (side.steps (moves.take i)).length

variable {side}

theorem steps_append (xs ys : List Move) :
    side.steps (xs ++ ys) = side.steps xs ++ side.steps ys := List.filterMap_append

theorem steps_cons_self (step : Step) (rest : List Move) :
    side.steps (⟨side, step⟩ :: rest) = step :: side.steps rest :=
  List.filterMap_cons_some (if_pos rfl)

theorem steps_take (moves : List Move) (i : Nat) :
    side.steps (moves.take i) = (side.steps moves).take (side.clock moves i) := by
  have hsplit : side.steps moves = side.steps (moves.take i) ++ side.steps (moves.drop i) := by
    rw [← steps_append, List.take_append_drop]
  rw [hsplit, clock, List.take_left]

theorem clock_mono {i j : Nat} (hij : i ≤ j) : side.clock moves i ≤ side.clock moves j := by
  obtain ⟨more, rfl⟩ := Nat.exists_eq_add_of_le hij
  rw [clock, clock, List.take_add, steps_append, List.length_append]
  exact Nat.le_add_right _ _

theorem clock_succ {i : Nat} {step : Step} (h : moves[i]? = some ⟨side, step⟩) :
    side.clock moves (i + 1) = side.clock moves i + 1 := by
  rw [clock, List.take_add_one, h, Option.toList_some, steps_append, steps_cons_self,
    List.length_append]
  rfl

/-- The move at a position is the step of its side that is next there. -/
theorem step_at {i : Nat} {step : Step} (h : moves[i]? = some ⟨side, step⟩) :
    (side.steps moves)[side.clock moves i]? = some step := by
  have hsplit : moves = moves.take i ++ ⟨side, step⟩ :: moves.drop (i + 1) := by
    obtain ⟨hi, hget⟩ := List.getElem?_eq_some_iff.mp h
    rw [← hget, ← List.drop_eq_getElem_cons hi, List.take_append_drop]
  have hsteps := congrArg side.steps hsplit
  rw [steps_append, steps_cons_self] at hsteps
  rw [hsteps, clock, List.getElem?_append_right (Nat.le_refl _), Nat.sub_self,
    List.getElem?_cons_zero]

theorem clock_lt {i j : Nat} {step : Step} (h : moves[i]? = some ⟨side, step⟩) (hij : i < j) :
    side.clock moves i < side.clock moves j := by
  have hle : side.clock moves (i + 1) ≤ side.clock moves j := clock_mono hij
  rw [clock_succ h] at hle
  exact hle

theorem lt_of_clock_lt {i j : Nat} (h : side.clock moves i < side.clock moves j) : i < j :=
  Nat.lt_of_not_le fun hji => absurd h (Nat.not_lt.mpr (clock_mono hji))

/-- Every step of a side is one of the moves. -/
theorem exists_move {k : Nat} {step : Step} (h : (side.steps moves)[k]? = some step) :
    ∃ i, moves[i]? = some ⟨side, step⟩ ∧ side.clock moves i = k := by
  induction moves generalizing k with
  | nil => simp [steps] at h
  | cons move rest ih =>
    obtain ⟨other, first⟩ := move
    by_cases hside : other = side
    · subst hside
      rw [steps_cons_self] at h
      cases k with
      | zero =>
        obtain rfl : first = step := by simpa using h
        exact ⟨0, rfl, rfl⟩
      | succ k =>
        obtain ⟨i, hi, hclock⟩ := ih (by simpa using h)
        refine ⟨i + 1, by simpa using hi, ?_⟩
        rw [clock, List.take_succ_cons, steps_cons_self, List.length_cons]
        exact congrArg (· + 1) hclock
    · have hskip (moves : List Move) : side.steps (⟨other, first⟩ :: moves) = side.steps moves :=
        List.filterMap_cons_none (if_neg hside)
      rw [hskip] at h
      obtain ⟨i, hi, hclock⟩ := ih h
      refine ⟨i + 1, by simpa using hi, ?_⟩
      rw [clock, List.take_succ_cons, hskip]
      exact hclock

end Side

/-- Two ledgers at their beginning, each with a configuration and a host of its own. -/
structure LedgerPair where
  cfg : Side → Config
  first : Side → World
  begun : ∀ side, ∃ relayers host, World.genesis? (cfg side) relayers host = some (first side)

namespace LedgerPair

variable (pair : LedgerPair) (moves : List Move)

/-- The world of one side when so many moves are made. -/
def stage (i : Nat) (side : Side) : World :=
  (pair.first side).after (pair.cfg side) (side.steps (moves.take i))

/-- Each side takes only steps that it may take in the world where it takes them. -/
def Follows (may : World → Step → Prop) : Prop :=
  ∀ side, RelayLedger.Follows (pair.cfg side) may (pair.first side) (side.steps moves)

/-- With a move of a side, by itself or nested in it, a call is carried out in a world. -/
def Carries (i : Nat) (side : Side) (origin : Origin) (call : Call) (mid : World)
    (outcome : Outcome) : Prop :=
  ∃ step, moves[i]? = some ⟨side, step⟩ ∧
    (pair.stage moves i side).Carries (pair.cfg side) step origin call mid outcome

/-- The call takes effect with a move of a side. -/
def Effective (i : Nat) (side : Side) (call : Call) : Prop :=
  ∃ origin s, moves[i]? = some ⟨side, .call origin s⟩ ∧ s.call? (pair.cfg side) = some call ∧
    ((pair.stage moves i side).take (pair.cfg side) (.call origin s)).1 = .ok ()

variable {pair moves} {may : World → Step → Prop} {i j : Nat} {side : Side} {call : Call}

/-- A world of a side is one of its own run. -/
theorem stage_eq (i : Nat) (side : Side) : pair.stage moves i side =
    (pair.first side).stage (pair.cfg side) (side.steps moves) (side.clock moves i) := by
  rw [stage, Side.steps_take, World.stage]

theorem stage_succ {step : Step} (h : moves[i]? = some ⟨side, step⟩) :
    pair.stage moves (i + 1) side =
      ((pair.stage moves i side).take (pair.cfg side) step).2 := by
  rw [stage_eq, Side.clock_succ h, World.stage_succ, Side.step_at h, stage_eq]

/-- A later world of a side comes of an earlier one. -/
theorem exists_stage_after (pair : LedgerPair) (moves : List Move) (side : Side) (hij : i ≤ j) :
    ∃ steps, pair.stage moves j side =
      (pair.stage moves i side).after (pair.cfg side) steps := by
  obtain ⟨more, rfl⟩ := Nat.exists_eq_add_of_le hij
  refine ⟨side.steps ((moves.drop i).take more), ?_⟩
  rw [stage, List.take_add, Side.steps_append, World.after_append, stage]

theorem Follows.mono {may' : World → Step → Prop} (h : pair.Follows moves may)
    (hmay : ∀ w step, may w step → may' w step) : pair.Follows moves may' :=
  fun side => (h side).mono hmay

theorem Follows.reached (h : pair.Follows moves may) (i : Nat) (side : Side) :
    Reached (pair.cfg side) may (pair.stage moves i side) := by
  obtain ⟨relayers, host, hfirst⟩ := pair.begun side
  have hfollows := h side
  rw [← List.take_append_drop i moves, Side.steps_append, RelayLedger.Follows.append] at hfollows
  exact ⟨relayers, host, _, _, hfirst, hfollows.1, rfl⟩

/-- While no block number falls, that of each side is no lower later than earlier. -/
theorem Follows.height_mono (h : pair.Follows moves Step.Onward) (side : Side) (hij : i ≤ j) :
    (pair.stage moves i side).ledger.height ≤ (pair.stage moves j side).ledger.height := by
  rw [stage_eq, stage_eq]
  exact stage_height_mono (h side) (Side.clock_mono hij)

theorem Effective.of_pair (h : pair.Effective moves i side call) :
    RelayLedger.Effective (pair.cfg side) (pair.first side) (side.steps moves)
      (side.clock moves i) call := by
  obtain ⟨origin, s, hi, hcall, hok⟩ := h
  rw [stage_eq] at hok
  exact ⟨origin, s, Side.step_at hi, hcall, hok⟩

/-- A call that takes effect in the run of a side does so with a move. -/
theorem exists_effective {k : Nat} (h : RelayLedger.Effective (pair.cfg side) (pair.first side)
      (side.steps moves) k call) :
    ∃ i, pair.Effective moves i side call ∧ side.clock moves i = k := by
  obtain ⟨origin, s, hk, hcall, hok⟩ := h
  obtain ⟨i, hi, rfl⟩ := Side.exists_move hk
  rw [← stage_eq] at hok
  exact ⟨i, ⟨origin, s, hi, hcall, hok⟩, rfl⟩

end LedgerPair

namespace Small

/-- Two ledgers of the same kind, each with a channel towards that of the other. -/
def twins : LedgerPair where
  cfg _ := cfg
  first _ := first
  begun _ := ⟨[10], host, genesis_eq⟩

/-- Both ledgers come to their first block and open their channels to each other, and the near
one sends a packet. -/
def meeting : List Move :=
  [Side.near, Side.far].flatMap (fun side =>
    [⟨side, .reach 1⟩, ⟨side, .call .root (.value (.openChannel [1] channel))⟩,
      ⟨side, .call (.signed 10) (.value (.confirmOpen channel))⟩]) ++
    [⟨.near, .call (.signed 1) (.value (.send channel [1] channel none (.raw [7])))⟩]

/-- The packet that the near ledger sends. -/
def crossing : Packet where
  sequence := 1
  source := channel
  chain := [1]
  target := channel
  agent := none
  payload := .raw [7]
  timeout := 101

end Small

end RelayLedger
