import RelayLedger.World

/-!
Steps on the world. A step can be refused, and what it did before the refusal stays, unless it
is carried out as a transaction: then the ledger, its chronicle and the registry are as they were
before, while the log and what was seen of the applications are kept. The lemmas say how each
kind of step runs, alone or in front of another one.
-/
namespace RelayLedger

/-- A step on the world that can fail. -/
abbrev Relay := ExceptT Fault (StateM World)

namespace Relay

variable {α β : Type}

def run (act : Relay α) (w : World) : Except Fault α × World :=
  StateT.run (ExceptT.run act) w

def refuse (why : Refusal) : Relay α := throw (.refused why)

def require (condition : Bool) (why : Refusal) : Relay Unit :=
  if condition then pure () else refuse why

/-- The value of an option that must not be empty. -/
def demand (x : Option α) (why : Refusal) : Relay α :=
  match x with
  | some a => pure a
  | none => refuse why

def log (line : LogLine) : Relay Unit :=
  modify fun w => { w with host.log := w.host.log ++ [line] }

/-- A refusal that is logged. -/
def reject (line : LogLine) (why : Refusal) : Relay α := do
  log line
  refuse why

/-- The value of a result that must not be a refusal. -/
def settle (x : Except Refusal α) : Relay α :=
  match x with
  | .ok a => pure a
  | .error why => refuse why

/-- Like `demand`, with a line in the log where the option is empty. -/
def expect (x : Option α) (line : LogLine) (why : Refusal) : Relay α :=
  match x with
  | some a => pure a
  | none => reject line why

/-- Like `require`, with a line in the log where the condition fails. -/
def ensure (condition : Bool) (line : LogLine) (why : Refusal) : Relay Unit :=
  if condition then pure () else reject line why

def ledger : Relay Ledger := return (← get).ledger

def update (f : Ledger → Ledger) : Relay Unit :=
  modify fun w => { w with ledger := f w.ledger }

def lane (id : Bytes) : Relay Lane := return (← ledger).lane id

def updateLane (id : Bytes) (f : Lane → Lane) : Relay Unit :=
  update fun l => l.modifyLane id f

def now : Relay Height := return (← ledger).height

def emit (e : Event) : Relay Unit :=
  modify fun w => { w with chronicle := w.chronicle.tell w.ledger.height e }

/-- Notes down that a call took effect. -/
def enroll (origin : Origin) (call : Call) : Relay Unit :=
  modify fun w => { w with chronicle := w.chronicle.enroll ⟨w.ledger.height, origin, call⟩ }

/-- Carries out a step so that its failure leaves the ledger and its chronicle as they were. -/
def transaction (act : Relay α) : Relay α :=
  ExceptT.mk fun w =>
    match act.run w with
    | (.ok a, after) => (.ok a, after)
    | (.error e, after) => (.error e, after.rollback w)

/-! How steps run. -/

@[simp] theorem run_pure (a : α) (w : World) : (pure a : Relay α).run w = (.ok a, w) := (rfl)

theorem run_bind (x : Relay α) (f : α → Relay β) (w : World) :
    (x >>= f).run w =
      match x.run w with
      | (.ok a, after) => (f a).run after
      | (.error e, after) => (.error e, after) := by
  change StateT.run (ExceptT.run (x >>= f)) w = _
  simp only [ExceptT.run_bind, StateT.run_bind, Relay.run]
  rcases StateT.run (ExceptT.run x) w with ⟨_ | _, after⟩ <;> rfl

@[simp] theorem run_map (x : Relay α) (f : α → β) (w : World) :
    (f <$> x).run w = ((x.run w).1.map f, (x.run w).2) := by
  rw [← bind_pure_comp, run_bind]
  rcases x.run w with ⟨_ | _, after⟩ <;> rfl

@[simp] theorem run_throw (e : Fault) (w : World) :
    (throw e : Relay α).run w = (.error e, w) := (rfl)

@[simp] theorem run_refuse (why : Refusal) (w : World) :
    (refuse why : Relay α).run w = (.error (.refused why), w) := (rfl)

@[simp] theorem run_reject (line : LogLine) (why : Refusal) (w : World) :
    (reject line why : Relay α).run w =
      (.error (.refused why), { w with host.log := w.host.log ++ [line] }) := (rfl)

@[simp] theorem run_emit (e : Event) (w : World) :
    (emit e).run w =
      (.ok (), { w with chronicle := w.chronicle.tell w.ledger.height e }) := (rfl)

@[simp] theorem run_enroll (origin : Origin) (call : Call) (w : World) :
    (enroll origin call).run w =
      (.ok (), { w with
        chronicle := w.chronicle.enroll ⟨w.ledger.height, origin, call⟩ }) := (rfl)

@[simp] theorem run_updateLane (id : Bytes) (f : Lane → Lane) (w : World) :
    (updateLane id f).run w = (.ok (), { w with ledger := w.ledger.modifyLane id f }) := (rfl)

@[simp] theorem run_require_bind (c : Bool) (why : Refusal) (f : Unit → Relay β) (w : World) :
    (require c why >>= f).run w = if c then (f ()).run w else (.error (.refused why), w) := by
  cases c <;> rfl

@[simp] theorem run_ensure_bind (c : Bool) (line : LogLine) (why : Refusal)
    (f : Unit → Relay β) (w : World) :
    (ensure c line why >>= f).run w =
      if c then (f ()).run w
      else (.error (.refused why), { w with host.log := w.host.log ++ [line] }) := by
  cases c <;> rfl

@[simp] theorem run_demand_bind (x : Option α) (why : Refusal) (f : α → Relay β) (w : World) :
    (demand x why >>= f).run w =
      match x with
      | some a => (f a).run w
      | none => (.error (.refused why), w) := by
  cases x <;> rfl

@[simp] theorem run_expect_bind (x : Option α) (line : LogLine) (why : Refusal)
    (f : α → Relay β) (w : World) :
    (expect x line why >>= f).run w =
      match x with
      | some a => (f a).run w
      | none => (.error (.refused why), { w with host.log := w.host.log ++ [line] }) := by
  cases x <;> rfl

@[simp] theorem run_settle_bind (x : Except Refusal α) (f : α → Relay β) (w : World) :
    (settle x >>= f).run w =
      match x with
      | .ok a => (f a).run w
      | .error why => (.error (.refused why), w) := by
  cases x <;> rfl

@[simp] theorem run_throw_bind (e : Fault) (f : α → Relay β) (w : World) :
    ((throw e : Relay α) >>= f).run w = (.error e, w) := (rfl)

@[simp] theorem run_get_bind (f : World → Relay β) (w : World) :
    ((get : Relay World) >>= f).run w = (f w).run w := (rfl)

@[simp] theorem run_ledger_bind (f : Ledger → Relay β) (w : World) :
    (ledger >>= f).run w = (f w.ledger).run w := (rfl)

@[simp] theorem run_lane_bind (id : Bytes) (f : Lane → Relay β) (w : World) :
    (lane id >>= f).run w = (f (w.ledger.lane id)).run w := (rfl)

@[simp] theorem run_now_bind (f : Height → Relay β) (w : World) :
    (now >>= f).run w = (f w.ledger.height).run w := (rfl)

@[simp] theorem run_log_bind (line : LogLine) (f : Unit → Relay β) (w : World) :
    (log line >>= f).run w = (f ()).run { w with host.log := w.host.log ++ [line] } := (rfl)

@[simp] theorem run_update_bind (g : Ledger → Ledger) (f : Unit → Relay β) (w : World) :
    (update g >>= f).run w = (f ()).run { w with ledger := g w.ledger } := (rfl)

@[simp] theorem run_updateLane_bind (id : Bytes) (g : Lane → Lane) (f : Unit → Relay β)
    (w : World) :
    (updateLane id g >>= f).run w =
      (f ()).run { w with ledger := w.ledger.modifyLane id g } := (rfl)

@[simp] theorem run_emit_bind (e : Event) (f : Unit → Relay β) (w : World) :
    (emit e >>= f).run w =
      (f ()).run { w with chronicle := w.chronicle.tell w.ledger.height e } := (rfl)

theorem run_transaction (act : Relay α) (w : World) :
    (transaction act).run w =
      match act.run w with
      | (.ok a, after) => (.ok a, after)
      | (.error e, after) => (.error e, after.rollback w) := (rfl)

end Relay

end RelayLedger
