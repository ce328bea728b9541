import RelayLedger.Proofs.Lifetime

/-!
The calls that a ledger notes down as done. Each of them was carried out while a step of the run
was taken, by itself or nested in another call, and it succeeded in the world in which it was
carried out. What was taken back is not noted down, and nothing that is noted down is struck.
-/
namespace RelayLedger

open Reception

namespace World

/-- From a world to a later one nothing was struck from the calls that took effect, and each one
that is new has a property. -/
def Adds (P : Deed → Prop) (w after : World) : Prop :=
  ∃ since, after.chronicle.deeds = w.chronicle.deeds ++ since ∧ ∀ d ∈ since, P d

namespace Adds

variable {P Q : Deed → Prop} {w mid after : World}

theorem of_same (h : after.chronicle.deeds = w.chronicle.deeds) : w.Adds P after :=
  ⟨[], by rw [h, List.append_nil], List.forall_mem_nil _⟩

theorem trans (h : w.Adds P mid) (hnext : mid.Adds P after) : w.Adds P after := by
  obtain ⟨first, hmid, hfirst⟩ := h
  obtain ⟨next, hafter, hlast⟩ := hnext
  refine ⟨first ++ next, by rw [hafter, hmid, List.append_assoc], ?_⟩
  exact List.forall_mem_append.mpr ⟨hfirst, hlast⟩

theorem mono (h : w.Adds P after) (hPQ : ∀ d, P d → Q d) : w.Adds Q after := by
  obtain ⟨since, hafter, hsince⟩ := h
  exact ⟨since, hafter, fun d hd => hPQ d (hsince d hd)⟩

theorem mem (h : w.Adds P after) {d : Deed} (hd : d ∈ after.chronicle.deeds) :
    d ∈ w.chronicle.deeds ∨ P d := by
  obtain ⟨since, hafter, hsince⟩ := h
  rw [hafter, List.mem_append] at hd
  exact hd.imp_right (hsince d)

theorem book (origin : Origin) (call : Call) (l : Ledger) (e : Event)
    (h : P ⟨l.height, origin, call⟩) : w.Adds P (w.book origin call l e) :=
  ⟨_, World.deeds_book .., List.forall_mem_singleton.mpr h⟩

end Adds

end World

section

variable {P : Deed → Prop} {submit : Origin → Submission → Relay Unit}

/-- A script adds what the calls add that it hands in. -/
theorem follow_adds (script : Script) (w : World)
    (h : ∀ origin s mid, Application.Hands submit script w origin s mid →
      mid.Adds P ((submit origin s).run mid).2) :
    w.Adds P (Application.follow submit script w).2 := by
  induction script generalizing w with
  | finish accepts => exact .of_same rfl
  | submit origin s next ih =>
    rw [Application.follow_submit]
    have hfirst := h origin s w .now
    exact hfirst.trans ((World.Adds.of_same rfl).trans
      (ih _ _ fun other t mid hhands => h other t mid (.later hhands)))

/-- So it is at each call that it hands in. -/
theorem Application.Hands.adds {script : Script} {w mid : World} {origin : Origin} {s : Submission}
    (hhands : Application.Hands submit script w origin s mid)
    (h : ∀ origin s mid, Application.Hands submit script w origin s mid →
      mid.Adds P ((submit origin s).run mid).2) : w.Adds P mid := by
  induction hhands with
  | now => exact .of_same rfl
  | later _ ih =>
    have hfirst := h _ _ _ .now
    exact hfirst.trans ((World.Adds.of_same rfl).trans
      (ih fun other t mid hlater => h other t mid (.later hlater)))

end

/-- A call that was carried out with a step, by itself or nested, and succeeded. -/
def World.Did (cfg : Config) (w : World) (step : Step) (d : Deed) : Prop :=
  ∃ mid, w.Carries cfg step d.origin d.call mid (.ok ())

section

variable {cfg : Config} {handle : Handler} {P : Deed → Prop} {caller origin : Origin}
  {outer s : Submission} {w start : World} {layers : Nat}

/-- A submission that takes effect adds itself, after what its application adds. -/
theorem enter_adds
    (hself : ∀ call height, s.call? cfg = some call →
      ((enter cfg handle origin s).run w).1 = .ok () → P ⟨height, origin, call⟩)
    (hnested : ∀ who p channel content agent mid, origin = .signed who →
      s.call? cfg = some (.receive p) → Admitted w who p channel →
      Inbound.assign w.ledger w.host.registry channel p = .ok (content, agent) →
      handle (delivery p content) w = (.accepted, mid) → w.Adds P mid) :
    w.Adds P ((enter cfg handle origin s).run w).2 := by
  rcases hrun : (enter cfg handle origin s).run w with ⟨fault | _, after⟩
  · obtain ⟨host, rfl⟩ := enter_error hrun
    exact .of_same rfl
  · obtain ⟨call, mid, hcall, hperform, rfl⟩ := enter_ok_iff.mp hrun
    have hP (height : Height) : P ⟨height, origin, call⟩ := hself call height hcall (by rw [hrun])
    by_cases hreceive : ∃ p, call = .receive p
    · obtain ⟨p, rfl⟩ := hreceive
      obtain ⟨who, channel, agent, ack, late, rfl, hadmitted, hanswered, rfl⟩ :=
        receive_ok hperform
      have hlate : w.Adds P late := by
        cases hanswered with
        | unassigned | rejected => exact .of_same rfl
        | accepted hassign haccepted =>
          exact hnested who p channel _ _ _ rfl hcall hadmitted hassign haccepted
      exact hlate.trans (.book _ _ (receipted late.ledger w.ledger.height p ack)
        (news who p agent ack) (hP _))
    · have hother : ∀ p, call ≠ .receive p := fun p hp => hreceive ⟨p, hp⟩
      obtain ⟨l, e, lines, -, rfl⟩ := Inversion.caused_of_ok hother hperform
      exact .book origin call l e (hP _)

/-- A submission that takes effect is noted down last. -/
theorem enter_noted {after : World} {call : Call} (hcall : s.call? cfg = some call)
    (hrun : (enter cfg handle origin s).run w = (.ok (), after)) :
    after.chronicle.deeds.getLast? = some ⟨after.ledger.height, origin, call⟩ := by
  obtain ⟨_, mid, hsame, -, rfl⟩ := enter_ok_iff.mp hrun
  obtain rfl := Option.some.inj (hcall.symm.trans hsame)
  exact List.getLast?_concat

/-- Whatever is carried out while a step is taken adds only calls that were done with it. -/
theorem Carried.adds : {layers : Nat} → {origin : Origin} → {s : Submission} → {w : World} →
    Carried cfg caller outer start layers origin s w →
    w.Adds (start.Did cfg (.call caller outer)) ((dispatch cfg layers origin s).run w).2
  | 0, _, _, _, _ => .of_same rfl
  | 1, origin, s, w, h => by
    apply enter_adds
    · intro call height hcall hok
      exact ⟨w, caller, outer, 1, s, rfl, h, hcall, hok⟩
    · intro who p channel content agent mid _ _ _ _ haccepted
      cases haccepted
  | layers + 2, origin, s, w, h => by
    apply enter_adds
    · intro call height hcall hok
      exact ⟨w, caller, outer, layers + 2, s, rfl, h, hcall, hok⟩
    · rintro who p channel content agent mid rfl hcall hadmitted hassign haccepted
      cases happlications : w.host.applications with
      | none =>
        rw [Application.handler_of_none _ happlications] at haccepted
        cases haccepted
        exact .of_same rfl
      | some applications =>
        rw [Application.handler_of_some _ happlications] at haccepted
        have hfollow := follow_adds (P := start.Did cfg (.call caller outer))
          (Application.scriptFor applications (delivery p content))
          (Application.begin applications (delivery p content) w)
          fun other t inner hhands =>
            (Carried.nested h hcall hadmitted hassign happlications hhands).adds
        rw [haccepted] at hfollow
        exact (World.Adds.of_same rfl).trans hfollow

/-- In a world in which a call is carried out, only such calls are new either. -/
theorem Carried.added (h : Carried cfg caller outer start layers origin s w) :
    start.Adds (start.Did cfg (.call caller outer)) w := by
  induction h with
  | outside => exact .of_same rfl
  | @nested _ _ _ _ _ before _ p _ content _ applications hcarried hcall hadmitted hassign
      happlications hhands ih =>
    have hbegin : before.Adds (start.Did cfg (.call caller outer))
        (Application.begin applications (delivery p content) before) := .of_same rfl
    exact (ih.trans hbegin).trans (hhands.adds fun other t inner hinner =>
      (Carried.nested hcarried hcall hadmitted hassign happlications hinner).adds)

theorem take_adds (cfg : Config) (w : World) (step : Step) :
    w.Adds (w.Did cfg step) (w.take cfg step).2 := by
  cases step with
  | call origin s => exact Carried.outside.adds
  | reach | setRegistry | install => exact .of_same rfl

end

section

variable {cfg : Config} {first w : World} {steps : List Step} {i j : Nat} {d : Deed}

/-- A call is done with one of the first steps of a run. -/
def DoneBy (cfg : Config) (first : World) (steps : List Step) (i : Nat) (d : Deed) : Prop :=
  ∃ k step, k ≤ i ∧ steps[k]? = some step ∧ (first.stage cfg steps k).Did cfg step d

theorem stage_adds (hij : i ≤ j) :
    (first.stage cfg steps i).Adds (DoneBy cfg first steps j) (first.stage cfg steps j) := by
  induction hij with
  | refl => exact .of_same rfl
  | @step j _ ih =>
    have hlater := ih.mono (Q := DoneBy cfg first steps (j + 1)) fun d hdone => by
      obtain ⟨k, step, hk, hstep, hdid⟩ := hdone
      exact ⟨k, step, Nat.le_succ_of_le hk, hstep, hdid⟩
    refine hlater.trans ?_
    rw [World.stage_succ]
    cases hstep : steps[j]? with
    | none => exact .of_same rfl
    | some step =>
      exact (take_adds cfg _ step).mono fun d hdid => ⟨j, step, Nat.le_succ j, hstep, hdid⟩

/-- The calls that are noted down at a position of a run and were not at an earlier one were done
with the steps of the run. -/
theorem Within.adds (hij : i ≤ j) (h : Within cfg first steps j w) :
    (first.stage cfg steps i).Adds (DoneBy cfg first steps j) w := by
  rcases h with rfl | ⟨step, _, _, _, hstep, caller, outer, _, _, rfl, hcarried, -⟩
  · exact stage_adds hij
  · exact (stage_adds hij).trans (hcarried.added.mono fun d hdid =>
      ⟨j, _, Nat.le_refl j, hstep, hdid⟩)

/-- Whatever a run has noted down was done with one of its steps. -/
theorem Within.done {relayers : List Account} {host : Host}
    (hgenesis : World.genesis? cfg relayers host = some first)
    (h : Within cfg first steps i w) (hd : d ∈ w.chronicle.deeds) :
    DoneBy cfg first steps i d := by
  obtain ⟨known, rfl⟩ := World.genesis_ok hgenesis
  rcases (h.adds (Nat.zero_le i)).mem hd with hnone | hdone
  · cases hnone
  · exact hdone

end

end RelayLedger
