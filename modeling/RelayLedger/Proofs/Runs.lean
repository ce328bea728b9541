import RelayLedger.Proofs.Carried

/-!
Runs of a ledger. A run is a list of steps from outside, and what may happen in it is said
step by step, in the world where the step is taken. What holds at the beginning and is kept by
every step that may be taken holds wherever a run comes to.
-/
namespace RelayLedger

open Reception

namespace World

variable (cfg : Config) (w : World)

/-- The world that steps lead to. -/
def after (steps : List Step) : World := (w.takeAll cfg steps).2

theorem after_nil : w.after cfg [] = w := rfl

theorem after_cons (step : Step) (rest : List Step) :
    w.after cfg (step :: rest) = (w.take cfg step).2.after cfg rest := rfl

theorem after_append (xs ys : List Step) :
    w.after cfg (xs ++ ys) = (w.after cfg xs).after cfg ys := by
  induction xs generalizing w with
  | nil => rfl
  | cons step rest ih => exact ih (w.take cfg step).2

/-- The world in which the step at a position of a run is taken. -/
def stage (steps : List Step) (i : Nat) : World := w.after cfg (steps.take i)

theorem stage_succ (steps : List Step) (i : Nat) :
    w.stage cfg steps (i + 1) =
      match steps[i]? with
      | some step => ((w.stage cfg steps i).take cfg step).2
      | none => w.stage cfg steps i := by
  unfold stage
  rw [List.take_add_one, after_append]
  cases steps[i]? <;> rfl

end World

/-- Each step is one that may be taken in the world where it is taken. -/
def Follows (cfg : Config) (may : World → Step → Prop) : World → List Step → Prop
  | _, [] => True
  | w, step :: rest => may w step ∧ Follows cfg may (w.take cfg step).2 rest

/-- A world that a ledger comes to from its beginning by steps that may be taken. -/
def Reached (cfg : Config) (may : World → Step → Prop) (w : World) : Prop :=
  ∃ relayers host first steps, World.genesis? cfg relayers host = some first ∧
    Follows cfg may first steps ∧ first.after cfg steps = w

/-- The call that takes effect with the step at a position of a run. -/
def Effective (cfg : Config) (first : World) (steps : List Step) (i : Nat) (call : Call) : Prop :=
  ∃ origin s, steps[i]? = some (.call origin s) ∧ s.call? cfg = some call ∧
    ((first.stage cfg steps i).take cfg (.call origin s)).1 = .ok ()

namespace Step

/-- The block number never falls. -/
def Onward (w : World) : Step → Prop
  | .reach height => w.ledger.height ≤ height
  | _ => True

/-- No call is made before the first block. -/
def Dated (w : World) : Step → Prop
  | .call _ _ => w.ledger.height ≠ 0
  | _ => True

/-- No call is made while an application might hand in calls of its own. -/
def Quiet (w : World) : Step → Prop
  | .call _ _ => w.host.Quiet
  | _ => True

end Step

section Following

variable {cfg : Config} {may : World → Step → Prop} {first w : World} {steps : List Step}

theorem Follows.append {xs ys : List Step} :
    Follows cfg may w (xs ++ ys) ↔ Follows cfg may w xs ∧ Follows cfg may (w.after cfg xs) ys := by
  induction xs generalizing w with
  | nil => simp [Follows, World.after_nil]
  | cons step rest ih => simp only [List.cons_append, Follows, World.after_cons, ih, and_assoc]

theorem Follows.mono {may' : World → Step → Prop} (h : Follows cfg may w steps)
    (hmay : ∀ w step, may w step → may' w step) : Follows cfg may' w steps := by
  induction steps generalizing w with
  | nil => trivial
  | cons step rest ih => exact ⟨hmay w step h.1, ih h.2⟩

theorem follows_of_forall (h : ∀ w step, may w step) : Follows cfg may w steps := by
  induction steps generalizing w with
  | nil => trivial
  | cons step rest ih => exact ⟨h w step, ih⟩

theorem Follows.may_at {i : Nat} {step : Step} (h : Follows cfg may first steps)
    (hi : steps[i]? = some step) : may (first.stage cfg steps i) step := by
  induction steps generalizing first i with
  | nil => simp at hi
  | cons head rest ih =>
    cases i with
    | zero =>
      obtain rfl : head = step := by simpa using hi
      exact h.1
    | succ i => exact ih h.2 (by simpa using hi)

theorem Follows.reached {relayers : List Account} {host : Host}
    (hgenesis : World.genesis? cfg relayers host = some first)
    (h : Follows cfg may first steps) (i : Nat) : Reached cfg may (first.stage cfg steps i) := by
  rw [← List.take_append_drop i steps, Follows.append] at h
  exact ⟨relayers, host, first, steps.take i, hgenesis, h.1, rfl⟩

/-- A run can go on with any step that may be taken. -/
theorem Reached.step {step : Step} (h : Reached cfg may w) (hmay : may w step) :
    Reached cfg may (w.take cfg step).2 := by
  obtain ⟨relayers, host, first, steps, hgenesis, hfollows, rfl⟩ := h
  refine ⟨relayers, host, first, steps ++ [step], hgenesis, ?_, World.after_append ..⟩
  exact Follows.append.mpr ⟨hfollows, hmay, trivial⟩

/-- What holds at the beginning and is kept by every step that may be taken holds wherever a
run comes to. -/
theorem Reached.induct {P : World → Prop} (h : Reached cfg may w)
    (hgenesis : ∀ relayers host first, World.genesis? cfg relayers host = some first → P first)
    (hstep : ∀ w step, P w → may w step → P (w.take cfg step).2) : P w := by
  obtain ⟨relayers, host, first, steps, hfirst, hfollows, rfl⟩ := h
  have hP : P first := hgenesis relayers host first hfirst
  clear hfirst
  induction steps generalizing first with
  | nil => exact hP
  | cons step rest ih =>
    exact ih _ hfollows.2 (hstep first step hP hfollows.1)

theorem take_call_ok_iff {origin : Origin} {sub : Submission} {after : World} :
    w.take cfg (.call origin sub) = (.ok (), after) ↔
      ∃ call mid, sub.call? cfg = some call ∧
        (call.perform cfg (handlerAt cfg 254) origin).run w = (.ok (), mid) ∧
        after = { mid with
          chronicle := mid.chronicle.enroll ⟨mid.ledger.height, origin, call⟩ } := by
  change (submit cfg origin sub).run w = _ ↔ _
  rw [submit_eq, enter_ok_iff]

/-- A call from outside that fails leaves nothing but what the host saw. -/
theorem take_call_error {origin : Origin} {sub : Submission} {fault : Fault} {after : World}
    (h : w.take cfg (.call origin sub) = (.error fault, after)) :
    ∃ host, after = { w with host := host } := by
  change (submit cfg origin sub).run w = _ at h
  rw [submit_eq] at h
  exact enter_error h

/-- With every call the world proceeds. -/
theorem take_call_proceeds (w : World) (origin : Origin) (s : Submission) :
    Proceeds cfg w (w.take cfg (.call origin s)).2 :=
  dispatch_proceeds cfg layerLimit origin s w

/-- While the block number never falls, it is no lower later than earlier. -/
theorem stage_height_mono (h : Follows cfg Step.Onward first steps) {i j : Nat} (hij : i ≤ j) :
    (first.stage cfg steps i).ledger.height ≤ (first.stage cfg steps j).ledger.height := by
  induction hij with
  | refl => exact UInt32.le_refl _
  | @step j _ ih =>
    refine UInt32.le_trans ih ?_
    rw [World.stage_succ]
    cases hj : steps[j]? with
    | none => exact UInt32.le_refl _
    | some step =>
      have hmay := h.may_at hj
      cases step with
      | reach height => exact hmay
      | setRegistry registry => exact UInt32.le_refl _
      | install topic app => exact UInt32.le_refl _
      | call origin s => exact UInt32.le_of_eq (take_call_proceeds _ origin s).height_eq.symm

/-- What holds at a position of a run, and did not at its beginning, came with a step in
between. -/
theorem exists_step_of_stage {P : World → Prop} (hfirst : ¬P first) {i : Nat}
    (h : P (first.stage cfg steps i)) :
    ∃ k step, k < i ∧ steps[k]? = some step ∧ ¬P (first.stage cfg steps k) ∧
      P ((first.stage cfg steps k).take cfg step).2 := by
  induction i with
  | zero => exact absurd h hfirst
  | succ i ih =>
    by_cases hbefore : P (first.stage cfg steps i)
    · obtain ⟨k, step, hk, hstep⟩ := ih hbefore
      exact ⟨k, step, Nat.lt_succ_of_lt hk, hstep⟩
    · rw [World.stage_succ] at h
      cases hi : steps[i]? with
      | none =>
        rw [hi] at h
        exact absurd h hbefore
      | some step =>
        rw [hi] at h
        exact ⟨i, step, Nat.lt_succ_self i, hi, hbefore, h⟩

theorem World.genesis_ok {relayers : List Account} {host : Host}
    (h : World.genesis? cfg relayers host = some first) :
    ∃ known, first = ⟨{ Ledger.initial with relayers := known }, .empty, host⟩ := by
  unfold World.genesis? Genesis.ledger? at h
  cases hknown : Genesis.distinct? cfg.relayerLimit [] relayers with
  | none => simp [hknown] at h
  | some known =>
    rw [hknown] at h
    cases h
    exact ⟨known, rfl⟩

end Following

/-- A submission that is carried out in some run with so many layers left: it comes from
outside, or it is handed in by an application that was given the packet of another one. -/
inductive Made (cfg : Config) (may : World → Step → Prop) :
    Nat → Origin → Submission → World → Prop
  | outside {origin : Origin} {s : Submission} {w : World} (hreached : Reached cfg may w)
      (hmay : may w (.call origin s)) : Made cfg may layerLimit origin s w
  | nested {layers : Nat} {who : Account} {origin : Origin} {s t : Submission} {w mid : World}
      {p : Packet} {channel : Channel} {content : Content} {agent : Option AgentId}
      {applications : Topic → Application} (h : Made cfg may (layers + 2) (.signed who) s w)
      (hcall : s.call? cfg = some (.receive p)) (hadmitted : Admitted w who p channel)
      (hassign : Inbound.assign w.ledger w.host.registry channel p = .ok (content, agent))
      (happlications : w.host.applications = some applications)
      (hhands : Application.Hands (dispatch cfg layers)
        (Application.scriptFor applications (delivery p content))
        (Application.begin applications (delivery p content) w) origin t mid) :
      Made cfg may layers origin t mid

/-- What is carried out in some run is carried out while a step of it is taken. -/
theorem Made.exists_carried {cfg : Config} {may : World → Step → Prop} {layers : Nat}
    {origin : Origin} {s : Submission} {w : World} (h : Made cfg may layers origin s w) :
    ∃ start caller outer, Reached cfg may start ∧ may start (.call caller outer) ∧
      Carried cfg caller outer start layers origin s w := by
  induction h with
  | outside hreached hmay => exact ⟨_, _, _, hreached, hmay, .outside⟩
  | nested _ hcall hadmitted hassign happlications hhands ih =>
    obtain ⟨start, caller, outer, hreached, hmay, hcarried⟩ := ih
    exact ⟨start, caller, outer, hreached, hmay,
      .nested hcarried hcall hadmitted hassign happlications hhands⟩

theorem Made.proceeds {cfg : Config} {may : World → Step → Prop} {layers : Nat} {origin : Origin}
    {s : Submission} {w : World} (h : Made cfg may layers origin s w) :
    ∃ start outer t, Reached cfg may start ∧ may start (.call outer t) ∧ Proceeds cfg start w := by
  obtain ⟨start, caller, outer, hreached, hmay, hcarried⟩ := h.exists_carried
  exact ⟨start, caller, outer, hreached, hmay, hcarried.proceeds⟩

/-- Whatever is carried out from a block height that is fine, and whenever blocks pass, `P`
stays true. -/
structure Kept (cfg : Config) (fine : Height → Prop) (P : World → Prop) : Prop where
  host : ∀ {w : World} (host : Host), P w → P { w with host := host }
  height : ∀ {w : World} (height : Height), P w → P { w with ledger.height := height }
  deliver : ∀ {w : World} (d : Delivery), P w → P { w with ledger := w.ledger.deliver d }
  call : ∀ {w : World} {origin : Origin} {call : Call} {l : Ledger} {e : Event},
    fine w.ledger.height → P w → Effect cfg w origin call l e → P (w.book origin call l e)
  receive : ∀ {w : World} (who : Account) (p : Packet) (agent : Option AgentId)
    (ack : Acknowledgement), fine w.ledger.height → P w →
    P (w.book (.signed who) (.receive p) (receipted w.ledger w.ledger.height p ack)
      (news who p agent ack))

namespace Kept

variable {cfg : Config} {fine : Height → Prop} {P : World → Prop} {w after : World}

theorem proceeds (hkept : Kept cfg fine P) (h : Proceeds cfg w after)
    (hfine : fine w.ledger.height) (hP : P w) : P after := by
  induction h with
  | refl => exact hP
  | host host _ ih => exact hkept.host host (ih hfine hP)
  | deliver d _ ih => exact hkept.deliver d (ih hfine hP)
  | call h heffect ih =>
    rw [← h.height_eq] at hfine
    exact hkept.call hfine (ih (by rwa [← h.height_eq]) hP) heffect
  | @receive _ _ _ who p _ agent ack h _ hnested ih ihnested =>
    rw [← h.height_eq] at hfine
    have hlate := ihnested hfine (ih (by rwa [← h.height_eq]) hP)
    have hreceived := hkept.receive who p agent ack (by rwa [hnested.height_eq]) hlate
    rwa [hnested.height_eq] at hreceived

theorem take {step : Step} (hkept : Kept cfg fine P)
    (hfine : ∀ origin s, step = .call origin s → fine w.ledger.height) (hP : P w) :
    P (w.take cfg step).2 := by
  cases step with
  | reach height => exact hkept.height height hP
  | setRegistry registry => exact hkept.host { w.host with registry := registry } hP
  | install topic app => exact hkept.host (w.host.install topic app) hP
  | call origin s => exact hkept.proceeds (take_call_proceeds w origin s) (hfine _ _ rfl) hP

variable {may : World → Step → Prop}
  (hgenesis : ∀ known host, P ⟨{ Ledger.initial with relayers := known }, .empty, host⟩)
  (hfine : ∀ w origin s, may w (.call origin s) → fine w.ledger.height)
include hgenesis hfine

theorem reached (hkept : Kept cfg fine P) (h : Reached cfg may w) : P w := by
  refine h.induct ?_ ?_
  · intro relayers host first hfirst
    obtain ⟨known, rfl⟩ := World.genesis_ok hfirst
    exact hgenesis known host
  · intro w step hP hmay
    exact hkept.take (fun origin s hstep => hfine w origin s (hstep ▸ hmay)) hP

theorem made {layers : Nat} {origin : Origin} {s : Submission} (hkept : Kept cfg fine P)
    (h : Made cfg may layers origin s w) : P w := by
  obtain ⟨start, outer, t, hreached, hmay, hproceeds⟩ := h.proceeds
  exact hkept.proceeds hproceeds (hfine _ _ _ hmay) (hkept.reached hgenesis hfine hreached)

end Kept

/-- What is said of a world with regard to its block height holds wherever a run comes to in
which the block number never falls, if the calls of each block keep it and it holds at any later
height too. -/
theorem Reached.onward {cfg : Config} {w : World} {P : Height → World → Prop}
    (h : Reached cfg Step.Onward w)
    (hgenesis : ∀ known host, P 0 ⟨{ Ledger.initial with relayers := known }, .empty, host⟩)
    (hkept : ∀ height, Kept cfg (· = height) (P height))
    (hlater : ∀ {w height later}, P height w → height ≤ later → P later w) :
    P w.ledger.height w := by
  refine h.induct (P := fun w => P w.ledger.height w) ?_ ?_
  · intro relayers host first hfirst
    obtain ⟨known, rfl⟩ := World.genesis_ok hfirst
    exact hgenesis known host
  · intro w step hP honward
    cases step with
    | reach height => exact (hkept height).height height (hlater hP honward)
    | setRegistry registry => exact (hkept _).host { w.host with registry := registry } hP
    | install topic app => exact (hkept _).host (w.host.install topic app) hP
    | call origin s =>
      have hproceeds : Proceeds cfg w (w.take cfg (.call origin s)).2 :=
        take_call_proceeds w origin s
      rw [hproceeds.height_eq]
      exact (hkept w.ledger.height).proceeds hproceeds rfl hP

/-! A ledger with small limits, for runs that are followed step by step. -/

namespace Small

def cfg : Config where
  relayerLimit := 3
  channelLimit := 2
  channelIdLimit := 32
  chainIdLimit := 16
  agentIdLimit := 16
  payloadLimit := 64
  pendingLimit := 3
  timeoutBlocks := 100
  retentionBlocks := 50
  pruneLimit := 4
  mappingLimit := 2
  managers := ([] : List Account)
  mappingAdmins := ([] : List Account)

def host : Host := .opening (.ofRanges [(1, 100)] [99]) true

/-- The world in which the ledger begins. -/
def first : World := ⟨{ Ledger.initial with relayers := [10] }, .empty, host⟩

theorem genesis_eq : World.genesis? cfg [10] host = some first := (rfl)

theorem reached (steps : List Step) : Reached cfg (fun _ _ => True) (first.after cfg steps) :=
  ⟨[10], host, first, steps, genesis_eq, follows_of_forall fun _ _ => trivial, rfl⟩

/-- The one channel of the ledger. -/
def channel : Bytes := Channel.idOf 0

/-- The ledger comes to its first block and has its channel opened. -/
def opening : List Step :=
  [.reach 1, .call .root (.value (.openChannel [1] [2])),
    .call (.signed 10) (.value (.confirmOpen channel))]

/-- Sends a packet on the channel. -/
def sending : Submission := .value (.send channel [1] [2] none (.raw [7]))

/-- A packet for the channel. -/
def packet (timeout : Height) : Packet where
  sequence := 1
  source := [2]
  chain := [1]
  target := channel
  agent := none
  payload := .raw [7]
  timeout := timeout

end Small

end RelayLedger
