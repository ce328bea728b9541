import Mathlib.Data.List.Chain
import RelayLedger.Proofs.Deeds
import RelayLedger.Proofs.Fulfilment

/-!
The agents of other chains and the local agents that they stand for. How many of a chain are
mapped is kept next to the table of them, and the two agree. The table shows what was done last
with each remote agent, and no mapping gives way to another one before it is removed.
-/
namespace RelayLedger

open Reception

/-- What is noted down for a remote agent is what it stands for. -/
theorem Ledger.agentOf_modifyPeer (l : Ledger) (chain remote : Bytes) (mapped : UInt32)
    (agent : Option AgentId) :
    (l.modifyPeer chain fun p =>
      { p with mapped, agents := p.agents.set remote agent }).agentOf chain remote = agent := by
  rw [Ledger.agentOf, Ledger.peer_modifyPeer, if_pos rfl, Table.get_set_self]

namespace Peer

/-- What a call does to the mapped agents of a chain: it leaves them, maps a remote agent that
stands for none, or unmaps one that stands for another. -/
inductive Turn (limit : UInt32) : Peer → Option (Bytes × Option AgentId) → Peer → Prop
  | idle {before after : Peer} (hagents : after.agents = before.agents)
      (hmapped : after.mapped = before.mapped) : Turn limit before none after
  | mapped {p : Peer} {remote : Bytes} {agent : AgentId} {mapped : UInt32}
      (hfree : p.agents.get remote = none)
      (hroom : Capacity.increment? limit p.mapped = some mapped) :
      Turn limit p (some (remote, some agent))
        { p with mapped, agents := p.agents.set remote (some agent) }
  | unmapped {p : Peer} {remote : Bytes} {agent : AgentId}
      (hagent : p.agents.get remote = some agent) :
      Turn limit p (some (remote, none))
        { p with mapped := Capacity.decrement p.mapped, agents := p.agents.set remote none }

/-- A mapping ends only by being removed. -/
theorem Turn.stands {limit : UInt32} {p q : Peer} {step : Option (Bytes × Option AgentId)}
    (h : Turn limit p step q) {remote : Bytes} {agent : AgentId}
    (hagent : p.agents.get remote = some agent) :
    q.agents.get remote = some agent ∨ step = some (remote, none) := by
  cases h with
  | idle hagents => exact .inl (hagents ▸ hagent)
  | @mapped other _ _ hfree =>
    have hother : remote ≠ other := by
      rintro rfl
      rw [hagent] at hfree
      cases hfree
    exact .inl ((Table.get_set_of_ne _ _ hother).trans hagent)
  | @unmapped other =>
    by_cases hother : remote = other
    · exact .inr (by rw [hother])
    · exact .inl ((Table.get_set_of_ne _ _ hother).trans hagent)

/-- What a remote agent stood for, one after another, by what was done with the agents of its
chain. -/
def standings (remote : Bytes) (past : List (Bytes × Option AgentId)) : List (Option AgentId) :=
  none :: past.filterMap fun (other, agent) => if other = remote then some agent else none

theorem standings_concat (remote other : Bytes) (agent : Option AgentId)
    (past : List (Bytes × Option AgentId)) :
    standings remote (past ++ [(other, agent)]) =
      standings remote past ++ if other = remote then [agent] else [] := by
  unfold standings
  rw [List.filterMap_append, List.cons_append]
  split <;> simp [*]

theorem mem_of_standings {remote : Bytes} {agent : AgentId} {past : List (Bytes × Option AgentId)}
    (h : some agent ∈ standings remote past) : (remote, some agent) ∈ past := by
  simpa [standings] using h

/-- The mapped agents of a chain, as they are told by what was done with them. -/
structure Told (limit : UInt32) (p : Peer) (past : List (Bytes × Option AgentId)) : Prop where
  counted : p.mapped.toNat = p.agents.size
  room : p.agents.size ≤ limit.toNat
  /-- A remote agent stands for what it was mapped to last, and for none once it was unmapped. -/
  last : ∀ remote, (standings remote past).getLast? = some (p.agents.get remote)
  /-- It is unmapped before it is mapped again. -/
  alternating : ∀ remote, (standings remote past).IsChain fun x y => x.isSome ≠ y.isSome

namespace Told

variable {limit : UInt32} {p q : Peer} {past : List (Bytes × Option AgentId)}

/-- One more turn with a remote agent, which stands for one if it stood for none before, and the
other way round. -/
theorem concat (h : Told limit p past) {remote : Bytes} {agent : Option AgentId}
    (hturn : (p.agents.get remote).isSome ≠ agent.isSome)
    (hagents : q.agents = p.agents.set remote agent)
    (hcounted : q.mapped.toNat = q.agents.size) (hroom : q.agents.size ≤ limit.toNat) :
    Told limit q (past ++ [(remote, agent)]) where
  counted := hcounted
  room := hroom
  last other := by
    rw [standings_concat, hagents, Table.get_set]
    by_cases hother : other = remote
    · rw [if_pos hother, if_pos hother.symm, List.getLast?_concat]
    · rw [if_neg hother, if_neg (Ne.symm hother), List.append_nil, h.last other]
  alternating other := by
    rw [standings_concat]
    by_cases hother : remote = other
    · subst hother
      rw [if_pos rfl]
      refine (h.alternating remote).append (.singleton _) ?_
      intro x hx y hy
      obtain rfl := Option.some.inj ((h.last remote).symm.trans hx)
      obtain rfl : agent = y := by simpa using hy
      exact hturn
    · rw [if_neg hother, List.append_nil]
      exact h.alternating other

/-- What was done to a chain's agents tells them after every turn. -/
theorem turn {step : Option (Bytes × Option AgentId)} (h : Told limit p past)
    (hturn : Turn limit p step q) : Told limit q (past ++ step.toList) := by
  have hcounted := h.counted
  have hroom := h.room
  cases hturn with
  | idle hagents hmapped =>
    rw [Option.toList_none, List.append_nil]
    constructor
    case counted => rw [hmapped, hagents, h.counted]
    case room => rwa [hagents]
    case last =>
      rw [hagents]
      exact h.last
    case alternating => exact h.alternating
  | @mapped remote agent mapped hfree hincrement =>
    obtain ⟨hlt, hmapped⟩ := Capacity.increment?_eq_some_iff.mp hincrement
    have hlimit := UInt32.lt_iff_toNat_lt.mp hlt
    have hsize := p.agents.size_set remote (some agent)
    simp only [hfree, blank_option, if_true, reduceCtorEq, if_false, Nat.add_zero] at hsize
    refine h.concat ?_ rfl ?_ ?_
    · rw [hfree]
      exact Bool.false_ne_true
    · rw [hmapped, hsize, hcounted]
    · rw [hsize]
      omega
  | @unmapped remote agent hagent =>
    have hsize := p.agents.size_set remote none
    simp only [hagent, blank_option, if_true, reduceCtorEq, if_false, Nat.add_zero] at hsize
    refine h.concat ?_ rfl ?_ ?_
    · rw [hagent]
      exact Bool.false_ne_true.symm
    · change (Capacity.decrement p.mapped).toNat = (p.agents.set remote none).size
      rw [Capacity.toNat_decrement]
      omega
    · change (p.agents.set remote none).size ≤ limit.toNat
      omega

/-- Where some agent is mapped, taking one off the count takes one off it. -/
theorem decrement (h : Told limit p past) {remote : Bytes} {agent : AgentId}
    (hagent : p.agents.get remote = some agent) :
    (Capacity.decrement p.mapped).toNat + 1 = p.mapped.toNat := by
  have hcounted := h.counted
  have hsize := p.agents.size_set remote none
  simp only [hagent, blank_option, if_true, reduceCtorEq, if_false, Nat.add_zero] at hsize
  rw [Capacity.toNat_decrement]
  omega

end Told

end Peer

/-- What a call does with the mapped agents of a chain: the remote agent, and what it stands for
from then on. -/
def Call.mappingOn (chain : Bytes) : Call → Option (Bytes × Option AgentId)
  | .mapAgent other remote agent => if other = chain then some (remote, some agent) else none
  | .unmapAgent other remote => if other = chain then some (remote, none) else none
  | _ => none

namespace Call

variable {chain remote : Bytes} {call : Call}

theorem eq_map {agent : AgentId} (h : call.mappingOn chain = some (remote, some agent)) :
    call = .mapAgent chain remote agent := by
  cases call with
  | mapAgent => simpa [mappingOn] using h
  | _ => simp [mappingOn] at h

theorem eq_unmap (h : call.mappingOn chain = some (remote, none)) :
    call = .unmapAgent chain remote := by
  cases call with
  | unmapAgent => simpa [mappingOn] using h
  | _ => simp [mappingOn] at h

end Call

namespace Chronicle

/-- What was done with the mapped agents of a chain, oldest first. -/
def mappings (c : Chronicle) (chain : Bytes) : List (Bytes × Option AgentId) :=
  c.deeds.filterMap fun d => d.call.mappingOn chain

/-- What a remote agent stood for, one after another. -/
def standings (c : Chronicle) (chain remote : Bytes) : List (Option AgentId) :=
  Peer.standings remote (c.mappings chain)

end Chronicle

theorem World.mappings_book (w : World) (origin : Origin) (call : Call) (l : Ledger) (e : Event)
    (chain : Bytes) :
    (w.book origin call l e).chronicle.mappings chain =
      w.chronicle.mappings chain ++ (call.mappingOn chain).toList := by
  rw [Chronicle.mappings, World.deeds_book, List.filterMap_append, Chronicle.mappings]
  cases h : call.mappingOn chain <;> simp [h]

section

variable {cfg : Config} {w : World} {origin : Origin} {call : Call} {l : Ledger} {e : Event}

theorem Effect.peer_turn (h : Effect cfg w origin call l e) (chain : Bytes) :
    Peer.Turn cfg.mappingLimit (w.ledger.peer chain) (call.mappingOn chain) (l.peer chain) := by
  cases h with
  | @openChannel _ target =>
    rw [Ledger.peer_opened]
    split
    · next hchain =>
      rw [hchain]
      exact .idle rfl rfl
    · exact .idle rfl rfl
  | @mapAgent _ target remote agent mapped _ _ _ _ hfree hmapped =>
    rw [Ledger.peer_modifyPeer, Call.mappingOn]
    by_cases hchain : chain = target
    · subst hchain
      rw [if_pos rfl, if_pos rfl]
      exact .mapped hfree hmapped
    · rw [if_neg hchain, if_neg (Ne.symm hchain)]
      exact .idle rfl rfl
  | @unmapAgent _ target remote agent _ _ _ hagent =>
    rw [Ledger.peer_modifyPeer, Call.mappingOn]
    by_cases hchain : chain = target
    · subst hchain
      rw [if_pos rfl, if_pos rfl]
      exact .unmapped hagent
    · rw [if_neg hchain, if_neg (Ne.symm hchain)]
      exact .idle rfl rfl
  | confirmOpen | startClose | confirmClose | send | acknowledge | timeOut | addRelayer
  | removeRelayer | prune => exact .idle rfl rfl

/-- The mapped agents of a chain are told by the calls that took effect. -/
def World.MappedAs (cfg : Config) (chain : Bytes) (w : World) : Prop :=
  (w.ledger.peer chain).Told cfg.mappingLimit (w.chronicle.mappings chain)

theorem kept_mapped (cfg : Config) (chain : Bytes) :
    Kept cfg (fun _ => True) (World.MappedAs cfg chain) where
  host _ h := h
  height _ h := h
  deliver _ h := h
  call _ h heffect := by
    unfold World.MappedAs
    rw [World.mappings_book]
    exact h.turn (heffect.peer_turn chain)
  receive {w} who p agent ack _ h := by
    unfold World.MappedAs
    rw [World.mappings_book]
    exact h.turn (.idle rfl rfl)

theorem World.mappedAs_genesis (cfg : Config) (chain : Bytes) (known : List Account) (host : Host) :
    World.MappedAs cfg chain ⟨{ Ledger.initial with relayers := known }, .empty, host⟩ where
  counted := rfl
  room := Nat.zero_le _
  last _ := rfl
  alternating _ := .singleton _

theorem Reached.mappedAs {cfg : Config} {may : World → Step → Prop} {w : World}
    (h : Reached cfg may w) (chain : Bytes) : w.MappedAs cfg chain :=
  (kept_mapped cfg chain).reached (World.mappedAs_genesis cfg chain) (fun _ _ _ _ => trivial) h

/-- Since some calls have taken effect others have, and a remote agent stands for the same local
one unless it was unmapped. -/
def World.Stands (past : List Deed) (chain remote : Bytes) (agent : AgentId) (w : World) : Prop :=
  ∃ since, w.chronicle.deeds = past ++ since ∧
    (w.ledger.agentOf chain remote = some agent ∨ ∃ d ∈ since, d.call = .unmapAgent chain remote)

theorem World.Stands.book {past : List Deed} {chain remote : Bytes} {agent : AgentId}
    (h : w.Stands past chain remote agent) (origin : Origin) (e : Event)
    (hturn : w.ledger.agentOf chain remote = some agent →
      l.agentOf chain remote = some agent ∨ call = .unmapAgent chain remote) :
    (w.book origin call l e).Stands past chain remote agent := by
  obtain ⟨since, hdeeds, hstands⟩ := h
  refine ⟨since ++ [⟨l.height, origin, call⟩], ?_, ?_⟩
  · rw [World.deeds_book, hdeeds, List.append_assoc]
  · rcases hstands with hstands | ⟨d, hd, hcall⟩
    · refine (hturn hstands).imp_right fun hcall => ?_
      exact ⟨_, List.mem_append_right _ List.mem_cons_self, hcall⟩
    · exact .inr ⟨d, List.mem_append_left _ hd, hcall⟩

theorem kept_stands (cfg : Config) (past : List Deed) (chain remote : Bytes) (agent : AgentId) :
    Kept cfg (fun _ => True) (World.Stands past chain remote agent) where
  host _ h := h
  height _ h := h
  deliver _ h := h
  call _ h heffect := by
    refine h.book _ _ fun hagent => ?_
    exact ((heffect.peer_turn chain).stands hagent).imp_right Call.eq_unmap
  receive who p agent ack _ h := h.book _ _ .inl

end

/-- What comes of mapping a remote agent, where identifiers keep to their limits and the origin may
map agents. The first reason that holds is the one that is told. -/
def Agents.verdict (cfg : Config) (w : World) (chain remote : Bytes) (agent : AgentId) : Outcome :=
  if w.host.registry.knows agent = false then .error (.refused .agentNotFound)
  else if w.ledger.agentOf chain remote ≠ none then
    .error (.refused .crossChainAgentAlreadyMapped)
  else if (w.ledger.peer chain).agents.size = cfg.mappingLimit.toNat then
    .error (.refused .tooManyAgentMappings)
  else .ok ()

section

variable {cfg : Config} {w : World} {origin : Origin} {chain remote : Bytes} {agent : AgentId}
  {s : Submission}

open Fulfilment Relay in
/-- Where the count agrees with the table, mapping an agent comes to its verdict, nested or not. -/
theorem World.MappedAs.verdict (h : w.MappedAs cfg chain)
    (hadmin : cfg.isMappingAdmin origin = true) (hchain : chain.fits cfg.chainIdLimit = true)
    (hremote : remote.fits cfg.agentIdLimit = true)
    (hcall : s.call? cfg = some (.mapAgent chain remote agent)) (layers : Nat) :
    ((dispatch cfg (layers + 1) origin s).run w).1 = Agents.verdict cfg w chain remote agent := by
  rw [dispatch_succ, run_enter_of_some hcall, Call.perform, run_bind_of_ok (run_guardOrigin hadmin),
    run_bind_of_ok (run_guardChain hchain), run_bind_of_ok (run_guardAgent hremote)]
  simp only [Agents.map, run_get_bind, run_require_bind, run_demand_bind]
  unfold Agents.verdict
  cases hknown : w.host.registry.knows agent with
  | false => rfl
  | true =>
    cases hagent : w.ledger.agentOf chain remote with
    | some other => rfl
    | none =>
      have hcounted := h.counted
      have hroom := h.room
      cases hmapped : Capacity.increment? cfg.mappingLimit (w.ledger.peer chain).mapped with
      | some mapped =>
        obtain ⟨hlt, -⟩ := Capacity.increment?_eq_some_iff.mp hmapped
        have hne : (w.ledger.peer chain).agents.size ≠ cfg.mappingLimit.toNat := by
          have := UInt32.lt_iff_toNat_lt.mp hlt
          omega
        simp only [hne]
        rfl
      | none =>
        have hfull : (w.ledger.peer chain).agents.size = cfg.mappingLimit.toNat := by
          have := UInt32.le_iff_toNat_le.mp (Capacity.increment?_eq_none_iff.mp hmapped)
          omega
        simp only [hfull]
        rfl

/-- An agent that is mapped was known at that time. -/
theorem World.Carries.knows {step : Step} {mid : World}
    (h : w.Carries cfg step origin (.mapAgent chain remote agent) mid (.ok ())) :
    mid.host.registry.knows agent = true := by
  obtain ⟨l, e, heffect⟩ := h.effect (by simp)
  cases heffect with
  | mapAgent _ _ _ hknown => exact hknown

end

/-- What is true of the mapped agents of a chain. -/
structure World.Mapped (cfg : Config) (w : World) (chain : Bytes) : Prop where
  counted : (w.ledger.peer chain).mapped.toNat = (w.ledger.peer chain).agents.size
  room : (w.ledger.peer chain).mapped.toNat ≤ cfg.mappingLimit.toNat
  /-- The count is above zero whenever an agent can be unmapped. -/
  taken : ∀ remote agent, w.ledger.agentOf chain remote = some agent →
    (Capacity.decrement (w.ledger.peer chain).mapped).toNat + 1 =
      (w.ledger.peer chain).mapped.toNat
  /-- A remote agent stands for what it was mapped to last, and for none once it was unmapped. -/
  last : ∀ remote, (w.chronicle.standings chain remote).getLast? =
    some (w.ledger.agentOf chain remote)
  /-- It is unmapped before it is mapped again. -/
  alternating : ∀ remote,
    (w.chronicle.standings chain remote).IsChain fun x y => x.isSome ≠ y.isSome
  /-- What it stands for came by a call that took effect. -/
  registered : ∀ remote agent, w.ledger.agentOf chain remote = some agent →
    ∃ d ∈ w.chronicle.deeds, d.call = .mapAgent chain remote agent
  /-- Mapping one more comes to its verdict, and when that is good it stands for the new one. -/
  verdict : ∀ layers origin s remote agent, cfg.isMappingAdmin origin = true →
    chain.fits cfg.chainIdLimit = true → remote.fits cfg.agentIdLimit = true →
    s.call? cfg = some (.mapAgent chain remote agent) →
    ((dispatch cfg (layers + 1) origin s).run w).1 = Agents.verdict cfg w chain remote agent ∧
      (Agents.verdict cfg w chain remote agent = .ok () →
        ((dispatch cfg (layers + 1) origin s).run w).2.ledger.agentOf chain remote = some agent)

theorem World.MappedAs.mapped {cfg : Config} {w : World} {chain : Bytes}
    (h : w.MappedAs cfg chain) : w.Mapped cfg chain := by
  constructor
  case counted => exact h.counted
  case room => exact h.counted.trans_le h.room
  case taken =>
    intro remote agent hagent
    exact h.decrement hagent
  case last => exact h.last
  case alternating => exact h.alternating
  case registered =>
    intro remote agent hagent
    have hlast := h.last remote
    rw [show (w.ledger.peer chain).agents.get remote = some agent from hagent] at hlast
    have hmem := Peer.mem_of_standings (List.mem_of_getLast? hlast)
    obtain ⟨d, hd, hcall⟩ := List.mem_filterMap.mp hmem
    exact ⟨d, hd, Call.eq_map hcall⟩
  case verdict =>
    intro layers origin s remote agent hadmin hchain hremote hcall
    have hverdict := h.verdict hadmin hchain hremote hcall layers
    refine ⟨hverdict, fun hok => ?_⟩
    rw [hok] at hverdict
    obtain ⟨l, e, lines, heffect, hafter⟩ :=
      effect_of_dispatch (Prod.ext hverdict rfl) hcall (by simp)
    cases heffect
    refine (congrArg (fun after => after.ledger.agentOf chain remote) hafter).trans ?_
    exact Ledger.agentOf_modifyPeer ..

/-- Throughout a run, whatever becomes of the registry, the mapped agents of each chain are counted
exactly and never more than may be. Each stands for the local agent that it was mapped to last, is
not mapped again before it is unmapped, and what it was mapped to was known at that time. -/
theorem agent_mappings_exact {cfg : Config} {first : World} {steps : List Step}
    {relayers : List Account} {host : Host}
    (hgenesis : World.genesis? cfg relayers host = some first) :
    (∀ i w, Within cfg first steps i w →
      (∀ d ∈ w.chronicle.deeds, DoneBy cfg first steps i d) ∧ ∀ chain, w.Mapped cfg chain) ∧
    (∀ i j w chain remote agent, i ≤ j →
      (first.stage cfg steps i).ledger.agentOf chain remote = some agent →
      Within cfg first steps j w →
      w.Stands (first.stage cfg steps i).chronicle.deeds chain remote agent) ∧
    ∀ i step origin chain remote agent mid, steps[i]? = some step →
      (first.stage cfg steps i).Carries cfg step origin (.mapAgent chain remote agent) mid
        (.ok ()) →
      mid.host.registry.knows agent = true := by
  refine ⟨?_, ?_, ?_⟩
  · intro i w hw
    refine ⟨fun d => hw.done hgenesis, fun chain => ?_⟩
    obtain ⟨known, rfl⟩ := World.genesis_ok hgenesis
    have hfirst := World.mappedAs_genesis cfg chain known host
    exact ((kept_mapped cfg chain).within (Nat.zero_le i) hfirst hw).mapped
  · intro i j w chain remote agent hij hagent hw
    exact (kept_stands cfg _ chain remote agent).within hij
      ⟨[], (List.append_nil _).symm, .inl hagent⟩ hw
  · intro i step origin chain remote agent mid _ hcarries
    exact hcarries.knows

namespace Small

/-- A remote agent is mapped, unmapped and mapped to another local one, and then another one is
mapped; the chain has room for no third one. -/
def mapping : List Step :=
  [.call .root (.value (.mapAgent [1] [5] 7)), .call .root (.value (.unmapAgent [1] [5])),
    .call .root (.value (.mapAgent [1] [5] 8)), .setRegistry (.ofRanges [(20, 30)] []),
    .call .root (.value (.mapAgent [1] [6] 20))]

theorem mapping_told :
    World.genesis? cfg [10] host = some first ∧
      ((first.stage cfg mapping 5).chronicle.standings [1] [5]).getLast? = some (some 8) ∧
      ((first.stage cfg mapping 5).ledger.peer [1]).mapped.toNat = 2 ∧
      ((first.stage cfg mapping 5).take cfg (.call .root (.value (.mapAgent [1] [9] 21)))).1 =
        .error (.refused .tooManyAgentMappings) ∧
      ((first.stage cfg mapping 5).take cfg (.call .root (.value (.mapAgent [1] [5] 7)))).1 =
        .error (.refused .agentNotFound) := by
  obtain ⟨hexact, -, -⟩ := agent_mappings_exact genesis_eq
  have hmapped : (first.stage cfg mapping 5).Mapped cfg [1] := (hexact 5 _ (.inl rfl)).2 [1]
  have hagent : (first.stage cfg mapping 5).ledger.agentOf [1] [5] = some 8 := by decide +kernel
  refine ⟨genesis_eq, ?_, ?_, ?_, ?_⟩
  · rw [hmapped.last, hagent]
  · rw [hmapped.counted]
    decide +kernel
  · refine (hmapped.verdict 254 .root _ [9] 21 rfl rfl rfl rfl).1.trans ?_
    decide +kernel
  · refine (hmapped.verdict 254 .root _ [5] 7 rfl rfl rfl rfl).1.trans ?_
    decide +kernel

end Small

end RelayLedger
