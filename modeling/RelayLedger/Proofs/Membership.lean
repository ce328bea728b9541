import Mathlib.Data.Finset.Card
import RelayLedger.Proofs.Fulfilment
import RelayLedger.Proofs.Lifetime

/-!
The set of trusted relayers from its beginning on. It begins with the distinct accounts of a list
and never has an account twice, so the one entry that a removal takes out is all that there was of
an account. Who is trusted is told by the last call that added or removed it, and an account that
was removed carries nothing in until it is added again.
-/
namespace RelayLedger

open Reception

namespace Genesis

theorem nodup_eraseDups (xs : List Account) : xs.eraseDups.Nodup := by
  match xs with
  | [] => exact .nil
  | x :: xs =>
    rw [List.eraseDups_cons, List.nodup_cons, List.mem_eraseDups]
    exact ⟨by simp, nodup_eraseDups _⟩
termination_by xs.length
decreasing_by exact Nat.lt_succ_of_le (List.length_filter_le ..)

theorem length_eraseDups (xs : List Account) : xs.eraseDups.length = xs.toFinset.card := by
  rw [← List.toFinset_card_of_nodup (nodup_eraseDups xs)]
  congr 1
  ext x
  simp only [List.mem_toFinset, List.mem_eraseDups]

/-- The accounts that are new to a known set are taken in one after another, each where it occurs
first, as far as there is room. -/
theorem distinct?_eq {limit : UInt32} (known xs : List Account)
    (hroom : known.length ≤ limit.toNat) :
    distinct? limit known xs =
      if known.length + (xs.removeAll known).eraseDups.length ≤ limit.toNat then
        some (known ++ (xs.removeAll known).eraseDups)
      else none := by
  induction xs generalizing known with
  | nil => simp [distinct?, hroom]
  | cons x xs ih =>
    by_cases hknown : x ∈ known
    · have hinsert : Capacity.insertNew limit known x = .error .duplicate :=
        Capacity.insertNew_eq_duplicate_iff.mpr hknown
      have hskip : (x :: xs).removeAll known = xs.removeAll known := by
        simp [List.cons_removeAll, hknown]
      rw [hskip, ← ih known hroom, distinct?, hinsert]
    · have hnew : ((x :: xs).removeAll known).eraseDups =
          x :: (xs.removeAll (known ++ [x])).eraseDups := by
        rw [List.cons_removeAll, if_pos (by simpa using hknown), List.eraseDups_cons]
        simp [List.removeAll, List.filter_filter, Bool.and_comm, Bool.beq_eq_decide_eq]
      rw [hnew]
      by_cases hlt : known.length < limit.toNat
      · have hinsert := Capacity.insertNew_eq_ok_iff.mpr ⟨hknown, hlt, rfl⟩
        have hroom' : (known ++ [x]).length ≤ limit.toNat := by
          rw [List.length_append]
          exact hlt
        rw [distinct?, hinsert]
        simp only [ih _ hroom', List.length_append, List.length_cons, List.length_nil,
          List.append_assoc, List.cons_append, List.nil_append, Nat.zero_add, Nat.add_assoc,
          Nat.add_comm 1]
      · have hfull := Capacity.insertNew_eq_full_iff.mpr ⟨hknown, Nat.not_lt.mp hlt⟩
        rw [distinct?, hfull, if_neg]
        simp only [List.length_cons]
        omega

end Genesis

namespace Relayers

/-- What a call does to the relayers: it leaves them, adds a new one, or removes one of them. -/
inductive Turn (limit : UInt32) : List Account → Option (Account × Bool) → List Account → Prop
  | idle (members : List Account) : Turn limit members none members
  | added {members : List Account} {who : Account} (hnew : who ∉ members)
      (hroom : members.length < limit.toNat) :
      Turn limit members (some (who, true)) (members ++ [who])
  | removed {members : List Account} {who : Account} (hmember : who ∈ members) :
      Turn limit members (some (who, false)) (members.erase who)

/-- Whether an account was a relayer, one time after another, by who was one at first and by what
was done since. -/
def standings (founders : List Account) (who : Account) (past : List (Account × Bool)) :
    List Bool :=
  decide (who ∈ founders) ::
    past.filterMap fun (other, trusted) => if other = who then some trusted else none

/-- The relayers, as they are told by those at first and by what was done since. -/
structure Told (limit : UInt32) (founders members : List Account) (past : List (Account × Bool)) :
    Prop where
  nodup : members.Nodup
  room : members.length ≤ limit.toNat
  last : ∀ who, (standings founders who past).getLast? = some (decide (who ∈ members))

namespace Told

variable {limit : UInt32} {founders members after : List Account} {past : List (Account × Bool)}

/-- After one more turn with an account that account is as it was left, and so are all others. -/
theorem last_concat (h : Told limit founders members past) {who : Account} {trusted : Bool}
    (hwho : decide (who ∈ after) = trusted)
    (hothers : ∀ other, other ≠ who → (other ∈ after ↔ other ∈ members)) (other : Account) :
    (standings founders other (past ++ [(who, trusted)])).getLast? =
      some (decide (other ∈ after)) := by
  unfold standings
  rw [List.filterMap_append, ← List.cons_append]
  by_cases hother : other = who
  · subst hother
    rw [List.filterMap_cons_some (b := trusted) (by simp), List.filterMap_nil,
      List.getLast?_concat, hwho]
  · have hlast := h.last other
    unfold standings at hlast
    simp only [List.filterMap_cons, if_neg (Ne.symm hother), List.filterMap_nil, List.append_nil,
      hlast, hothers other hother]

/-- What was done to the relayers tells them after every turn. -/
theorem turn {step : Option (Account × Bool)} (h : Told limit founders members past)
    (hturn : Turn limit members step after) :
    Told limit founders after (past ++ step.toList) := by
  have hnodup := h.nodup
  have hroom := h.room
  cases hturn with
  | idle =>
    rw [Option.toList_none, List.append_nil]
    exact h
  | @added who hnew hlt =>
    constructor
    case nodup =>
      rw [← List.concat_eq_append]
      exact hnodup.concat hnew
    case room =>
      rw [List.length_append]
      exact hlt
    case last =>
      refine h.last_concat (by simp) fun other hother => ?_
      simp [hother]
  | @removed who hmember =>
    constructor
    case nodup => exact hnodup.erase who
    case room => exact (List.length_erase_le ..).trans hroom
    case last =>
      refine h.last_concat (by simp [hnodup.mem_erase_iff]) fun other hother => ?_
      exact List.mem_erase_of_ne hother

/-- An account that was removed, and not added since, is none of the relayers. -/
theorem not_mem_of_removed {before since : List (Account × Bool)} {who : Account}
    (h : Told limit founders members (before ++ (who, false) :: since))
    (hsince : (who, true) ∉ since) : who ∉ members := by
  have hlast := h.last who
  unfold standings at hlast
  rw [List.filterMap_append, ← List.cons_append, List.filterMap_cons_some (b := false) (by simp),
    List.getLast?_append_of_ne_nil _ (List.cons_ne_nil _ _)] at hlast
  rcases List.mem_cons.mp (List.mem_of_getLast? hlast) with hfalse | hmem
  · exact of_decide_eq_false hfalse
  · intro hmember
    rw [decide_eq_true hmember] at hmem
    exact hsince (by simpa using hmem)

end Told

/-- The relayers after one is to be added, or the first reason that speaks against it. -/
def admission (cfg : Config) (members : List Account) (who : Account) :
    Except Fault (List Account) :=
  if who ∈ members then .error (.refused .relayerAlreadyRegistered)
  else if members.length = cfg.relayerLimit.toNat then .error (.refused .tooManyRelayers)
  else .ok (members ++ [who])

end Relayers

namespace Call

/-- The account that a call makes a relayer or removes from them. -/
def membership : Call → Option (Account × Bool)
  | .addRelayer who => some (who, true)
  | .removeRelayer who => some (who, false)
  | _ => none

theorem eq_addRelayer {call : Call} {who : Account} (h : call.membership = some (who, true)) :
    call = .addRelayer who := by
  cases call with
  | addRelayer => simpa [membership] using h
  | _ => simp [membership] at h

/-- Only trusted relayers may make the call. -/
def isRelayed : Call → Bool
  | .confirmOpen _ | .confirmClose _ | .receive _ | .acknowledge .. => true
  | _ => false

end Call

/-- The accounts that were made relayers or removed from them, oldest first. -/
def Chronicle.memberships (c : Chronicle) : List (Account × Bool) :=
  c.deeds.filterMap fun d => d.call.membership

theorem World.memberships_book (w : World) (origin : Origin) (call : Call) (l : Ledger)
    (e : Event) :
    (w.book origin call l e).chronicle.memberships =
      w.chronicle.memberships ++ call.membership.toList := by
  rw [Chronicle.memberships, World.deeds_book, List.filterMap_append, Chronicle.memberships]
  cases h : call.membership <;> simp [h]

/-- The relayers are told by those at first and by the calls that took effect. -/
def World.RelayedBy (cfg : Config) (founders : List Account) (w : World) : Prop :=
  Relayers.Told cfg.relayerLimit founders w.ledger.relayers w.chronicle.memberships

section

variable {cfg : Config} {w : World} {origin : Origin} {call : Call} {l : Ledger} {e : Event}

theorem Effect.relayers_turn (h : Effect cfg w origin call l e) :
    Relayers.Turn cfg.relayerLimit w.ledger.relayers call.membership l.relayers := by
  cases h with
  | addRelayer _ hnew hroom => exact .added hnew hroom
  | removeRelayer _ hmember => exact .removed hmember
  | openChannel | confirmOpen | startClose | confirmClose | send | acknowledge | timeOut | mapAgent
  | unmapAgent | prune => exact .idle _

theorem kept_relayed (cfg : Config) (founders : List Account) :
    Kept cfg (fun _ => True) (World.RelayedBy cfg founders) where
  host _ h := h
  height _ h := h
  deliver _ h := h
  call _ h heffect := by
    unfold World.RelayedBy
    rw [World.memberships_book]
    exact h.turn heffect.relayers_turn
  receive {w} who p agent ack _ h := by
    unfold World.RelayedBy
    rw [World.memberships_book]
    exact h.turn (.idle _)

end

section

variable {cfg : Config} {relayers : List Account} {host : Host} {first : World}

theorem World.genesis?_eq (cfg : Config) (relayers : List Account) (host : Host) :
    World.genesis? cfg relayers host =
      if relayers.toFinset.card ≤ cfg.relayerLimit.toNat then
        some ⟨{ Ledger.initial with relayers := relayers.eraseDups }, .empty, host⟩
      else none := by
  rw [World.genesis?, Genesis.ledger?, Genesis.distinct?_eq [] _ (Nat.zero_le _),
    List.removeAll_nil, List.length_nil, Nat.zero_add, List.nil_append, Genesis.length_eraseDups]
  split <;> rfl

theorem World.relayedBy_genesis (h : World.genesis? cfg relayers host = some first) :
    first.RelayedBy cfg relayers := by
  rw [World.genesis?_eq, Option.ite_none_right_eq_some] at h
  obtain ⟨hroom, hfirst⟩ := h
  obtain rfl := Option.some.inj hfirst
  rw [← Genesis.length_eraseDups] at hroom
  constructor
  case nodup => exact Genesis.nodup_eraseDups relayers
  case room => exact hroom
  case last =>
    intro who
    simp only [List.mem_eraseDups]
    rfl

theorem Reached.relayed {may : World → Step → Prop} {w : World} (h : Reached cfg may w) :
    ∃ founders, w.RelayedBy cfg founders := by
  refine h.induct (P := fun w => ∃ founders, w.RelayedBy cfg founders) ?_ ?_
  · intro relayers host first hfirst
    exact ⟨relayers, World.relayedBy_genesis hfirst⟩
  · rintro w step ⟨founders, hrelayed⟩ -
    exact ⟨founders, (kept_relayed cfg founders).take (fun _ _ _ => trivial) hrelayed⟩

end

section

variable {cfg : Config} {w : World} {who : Account} {call : Call} {s : Submission}

namespace Fulfilment

open Relay

theorem run_bind_of_error {α β : Type} {x : Relay α} {fault : Fault} {mid : World}
    (h : x.run w = (.error fault, mid)) (f : α → Relay β) :
    (x >>= f).run w = (.error fault, mid) := by
  rw [run_bind, h]

theorem run_requireTrusted_error (h : w.ledger.isTrusted who = false) :
    (Inbound.requireTrusted who).run w = (.error (.refused .notTrustedRelayer),
      { w with host.log := w.host.log ++ [.notTrusted who] }) := by
  simp [Inbound.requireTrusted, Relay.ensure, h]

theorem run_trusted_error (h : w.ledger.isTrusted who = false) :
    (Call.trustedSigner (.signed who)).run w = (.error (.refused .notTrustedRelayer),
      { w with host.log := w.host.log ++ [.notTrusted who] }) := by
  rw [Call.trustedSigner, run_bind_of_ok (run_signer who w),
    run_bind_of_error (run_requireTrusted_error h)]

end Fulfilment

open Fulfilment Relay in
/-- What only trusted relayers may do fails for all others, nested or not, before anything else is
looked at. -/
theorem World.bars (h : w.ledger.isTrusted who = false) (hcall : s.call? cfg = some call)
    (hrelayed : call.isRelayed = true) (layers : Nat) :
    ((dispatch cfg (layers + 1) (.signed who) s).run w).1 =
      .error (.refused .notTrustedRelayer) := by
  have hperform : (call.perform cfg (handlerAt cfg layers) (.signed who)).run w =
      (.error (.refused .notTrustedRelayer),
        { w with host.log := w.host.log ++ [.notTrusted who] }) := by
    cases call with
    | confirmOpen | confirmClose => exact run_bind_of_error (run_trusted_error h) _
    | acknowledge =>
      refine run_bind_of_error ?_ _
      rw [run_discard, run_trusted_error h]
      rfl
    | receive p =>
      rw [Call.perform, run_bind_of_ok (run_signer who w), Inbound.receive]
      exact run_bind_of_error (run_requireTrusted_error h) _
    | _ => cases hrelayed
  rw [dispatch_succ, run_enter_of_some hcall, hperform]

end

/-- What is true of the relayers of a ledger that began with those of a list. -/
structure World.Membership (cfg : Config) (founders : List Account) (w : World) : Prop where
  nodup : w.ledger.relayers.Nodup
  room : w.ledger.relayers.length ≤ cfg.relayerLimit.toNat
  /-- An account is trusted if it was added last, and not if it was removed last. -/
  last : ∀ who, (Relayers.standings founders who w.chronicle.memberships).getLast? =
    some (w.ledger.isTrusted who)
  /-- A manager adds every account that is new while there is room. -/
  admission : ∀ layers origin s who, cfg.isManager origin = true →
    s.call? cfg = some (.addRelayer who) →
    (((dispatch cfg (layers + 1) origin s).run w).1.map fun _ =>
        ((dispatch cfg (layers + 1) origin s).run w).2.ledger.relayers) =
      Relayers.admission cfg w.ledger.relayers who
  /-- A manager removes every relayer, and none but that one. -/
  removal : ∀ layers origin s who, cfg.isManager origin = true →
    s.call? cfg = some (.removeRelayer who) → who ∈ w.ledger.relayers →
    ((dispatch cfg (layers + 1) origin s).run w).1 = .ok () ∧
      ((dispatch cfg (layers + 1) origin s).run w).2.ledger.relayers =
        w.ledger.relayers.filter (· != who)
  /-- An account that was removed, and not added since, carries nothing in. -/
  barred : ∀ before d since who, w.chronicle.deeds = before ++ d :: since →
    d.call = .removeRelayer who → (∀ later ∈ since, later.call ≠ .addRelayer who) →
    ∀ layers s call, s.call? cfg = some call → call.isRelayed = true →
      ((dispatch cfg (layers + 1) (.signed who) s).run w).1 =
        .error (.refused .notTrustedRelayer)

section

variable {cfg : Config} {founders : List Account} {w : World}

namespace World.RelayedBy

open Fulfilment Relay in
theorem admission (h : w.RelayedBy cfg founders) {origin : Origin} {s : Submission} {who : Account}
    (hmanager : cfg.isManager origin = true) (hcall : s.call? cfg = some (.addRelayer who))
    (layers : Nat) :
    (((dispatch cfg (layers + 1) origin s).run w).1.map fun _ =>
        ((dispatch cfg (layers + 1) origin s).run w).2.ledger.relayers) =
      Relayers.admission cfg w.ledger.relayers who := by
  have hroom := h.room
  unfold Relayers.admission
  by_cases hmember : who ∈ w.ledger.relayers
  · have hinsert : Capacity.insertNew cfg.relayerLimit w.ledger.relayers who =
        .error .duplicate := Capacity.insertNew_eq_duplicate_iff.mpr hmember
    rw [if_pos hmember, dispatch_succ, run_enter_of_some hcall, Call.perform,
      run_bind_of_ok (run_guardOrigin hmanager)]
    simp only [Relayers.add, run_ledger_bind, hinsert]
    rfl
  · rw [if_neg hmember]
    by_cases hfull : w.ledger.relayers.length = cfg.relayerLimit.toNat
    · have hinsert := Capacity.insertNew_eq_full_iff.mpr ⟨hmember, hfull.ge⟩
      rw [if_pos hfull, dispatch_succ, run_enter_of_some hcall, Call.perform,
        run_bind_of_ok (run_guardOrigin hmanager)]
      simp only [Relayers.add, run_ledger_bind, hinsert]
      rfl
    · have hlt : w.ledger.relayers.length < cfg.relayerLimit.toNat :=
        Nat.lt_of_le_of_ne hroom hfull
      have heffect : Effect cfg w origin (.addRelayer who) _ _ := .addRelayer hmanager hmember hlt
      obtain ⟨lines, hrun⟩ := heffect.dispatch_eq hcall layers
      rw [if_neg hfull, hrun]
      rfl

theorem removal (h : w.RelayedBy cfg founders) {origin : Origin} {s : Submission} {who : Account}
    (hmanager : cfg.isManager origin = true) (hcall : s.call? cfg = some (.removeRelayer who))
    (hmember : who ∈ w.ledger.relayers) (layers : Nat) :
    ((dispatch cfg (layers + 1) origin s).run w).1 = .ok () ∧
      ((dispatch cfg (layers + 1) origin s).run w).2.ledger.relayers =
        w.ledger.relayers.filter (· != who) := by
  have heffect : Effect cfg w origin (.removeRelayer who) _ _ := .removeRelayer hmanager hmember
  obtain ⟨lines, hrun⟩ := heffect.dispatch_eq hcall layers
  have hnodup : w.ledger.relayers.Nodup := h.nodup
  rw [hrun]
  refine ⟨rfl, ?_⟩
  change w.ledger.relayers.erase who = _
  exact hnodup.erase_eq_filter who

theorem untrusted (h : w.RelayedBy cfg founders) {before since : List Deed} {d : Deed}
    {who : Account} (hdeeds : w.chronicle.deeds = before ++ d :: since)
    (hremoved : d.call = .removeRelayer who)
    (hsince : ∀ later ∈ since, later.call ≠ .addRelayer who) :
    w.ledger.isTrusted who = false := by
  have hstep : d.call.membership = some (who, false) := by
    rw [hremoved]
    rfl
  unfold World.RelayedBy Chronicle.memberships at h
  rw [hdeeds, List.filterMap_append, List.filterMap_cons, hstep] at h
  refine decide_eq_false (h.not_mem_of_removed fun hadded => ?_)
  obtain ⟨later, hlater, hcall⟩ := List.mem_filterMap.mp hadded
  exact hsince later hlater (Call.eq_addRelayer hcall)

theorem membership (h : w.RelayedBy cfg founders) : w.Membership cfg founders := by
  constructor
  case nodup => exact h.nodup
  case room => exact h.room
  case last => exact h.last
  case admission =>
    intro layers origin s who hmanager hcall
    exact h.admission hmanager hcall layers
  case removal =>
    intro layers origin s who hmanager hcall hmember
    exact h.removal hmanager hcall hmember layers
  case barred =>
    intro before d since who hdeeds hremoved hsince layers s call hcall hrelayed
    exact World.bars (h.untrusted hdeeds hremoved hsince) hcall hrelayed layers

end World.RelayedBy

/-- A ledger begins unless its list has too many distinct accounts; otherwise these are its
relayers, in order of first occurrence, and throughout every run the set of relayers is exact. -/
theorem relayer_set_exact (cfg : Config) (relayers : List Account) (host : Host) :
    (World.genesis? cfg relayers host = none ↔
      cfg.relayerLimit.toNat < relayers.toFinset.card) ∧
    ∀ first, World.genesis? cfg relayers host = some first →
      first.ledger.relayers = relayers.eraseDups ∧
      ∀ steps i w, Within cfg first steps i w → w.Membership cfg relayers := by
  refine ⟨?_, ?_⟩
  · rw [World.genesis?_eq, ite_eq_right_iff]
    simp
  · intro first hgenesis
    have hfirst := World.relayedBy_genesis hgenesis
    refine ⟨?_, fun steps i w hw => ?_⟩
    · rw [World.genesis?_eq, Option.ite_none_right_eq_some] at hgenesis
      exact Option.some.inj hgenesis.2 ▸ rfl
    · exact ((kept_relayed cfg relayers).within (Nat.zero_le i) hfirst hw).membership

end

namespace Small

/-- As many accounts as may be relayers, some of them twice. -/
def crowd : List Account := [10, 11, 10, 12, 11]

def crowded : World := ⟨{ Ledger.initial with relayers := [10, 11, 12] }, .empty, host⟩

/-- One of them is removed. -/
def expulsion : List Step := [.call .root (.value (.removeRelayer 11))]

/-- What the relayers are after a call of the root. -/
def relayersAfter (call : Call) : Except Fault (List Account) :=
  (crowded.take cfg (.call .root (.value call))).1.map fun _ =>
    (crowded.take cfg (.call .root (.value call))).2.ledger.relayers

theorem crowd_told :
    World.genesis? cfg crowd host = some crowded ∧ World.genesis? cfg (crowd ++ [13]) host = none ∧
      crowded.ledger.relayers = crowd.eraseDups ∧
      relayersAfter (.addRelayer 13) = .error (.refused .tooManyRelayers) ∧
      relayersAfter (.addRelayer 12) = .error (.refused .relayerAlreadyRegistered) ∧
      ((crowded.stage cfg expulsion 1).take cfg
        (.call (.signed 11) (.value (.confirmOpen channel)))).1 =
          .error (.refused .notTrustedRelayer) := by
  have hgenesis : World.genesis? cfg crowd host = some crowded := rfl
  obtain ⟨hfirst, hruns⟩ := (relayer_set_exact cfg crowd host).2 crowded hgenesis
  have hoverfull := (relayer_set_exact cfg (crowd ++ [13]) host).1.mpr (by decide)
  have hstart := hruns expulsion 0 crowded (.inl rfl)
  have hadmission (who : Account) (hcall : Submission.call? cfg (.value (.addRelayer who)) =
      some (.addRelayer who)) := hstart.admission 254 .root _ who rfl hcall
  have hexpelled := hruns expulsion 1 _ (.inl rfl)
  exact ⟨hgenesis, hoverfull, hfirst, hadmission 13 rfl, hadmission 12 rfl,
    hexpelled.barred [] _ [] 11 rfl rfl (by simp) 254 _ _ rfl rfl⟩

end Small

end RelayLedger
