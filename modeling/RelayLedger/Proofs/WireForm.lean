import Mathlib.Data.Set.Function
import RelayLedger.Encoding
import RelayLedger.Proofs.Runs

/-!
Calls as bytes. The calls whose parts keep to their limits are the ones that have a written form,
and each of them has one written form only: whatever else is handed in as bytes, such as a length
in a form longer than needed, a part over its limit, a written call that is cut short or has
something behind it, is no call.
-/
namespace RelayLedger

/-- A byte string that any call can hold: four bytes can tell its length. -/
def Bytes.Tellable (bs : Bytes) : Prop := bs.length < 4294967296

/-! What a configuration lets the typed parts of a call be. -/

def Acknowledgement.Bounded (cfg : Config) (a : Acknowledgement) : Prop :=
  a.data.length ≤ cfg.payloadLimit.toNat

def Payload.Bounded (cfg : Config) : Payload → Prop
  | .raw data => data.length ≤ cfg.payloadLimit.toNat
  | .task _ _ hint _ => ∀ remote ∈ hint, remote.length ≤ cfg.agentIdLimit.toNat
  | .reputation .. => True
  | .did subject proof =>
    subject.length ≤ cfg.payloadLimit.toNat ∧ proof.length ≤ cfg.payloadLimit.toNat
  | .ack answer => answer.Bounded cfg

structure Packet.Bounded (cfg : Config) (p : Packet) : Prop where
  source : p.source.length ≤ cfg.channelIdLimit.toNat
  chain : p.chain.length ≤ cfg.chainIdLimit.toNat
  target : p.target.length ≤ cfg.channelIdLimit.toNat
  agent : ∀ remote ∈ p.agent, remote.length ≤ cfg.agentIdLimit.toNat
  payload : p.payload.Bounded cfg

/-- The typed parts of a call keep to their limits, and its plain byte strings can be told. -/
def Call.Bounded (cfg : Config) : Call → Prop
  | .openChannel chain counterparty => chain.Tellable ∧ counterparty.Tellable
  | .confirmOpen channel | .startClose channel | .confirmClose channel => channel.Tellable
  | .send channel chain counterparty agent payload =>
    channel.Tellable ∧ chain.Tellable ∧ counterparty.Tellable ∧
      (∀ remote ∈ agent, remote.Tellable) ∧ payload.Bounded cfg
  | .receive packet => packet.Bounded cfg
  | .acknowledge channel _ ack => channel.Tellable ∧ ack.Bounded cfg
  | .timeOut channel _ => channel.Tellable
  | .addRelayer _ | .removeRelayer _ => True
  | .mapAgent chain remote _ | .unmapAgent chain remote => chain.Tellable ∧ remote.Tellable
  | .prune channel sequences =>
    channel.Tellable ∧ sequences.length ≤ cfg.pruneLimit.toNat

/-! What the layouts admit. -/

namespace Layout

theorem admits_bytes {limit : Nat} {bs : Bytes} :
    (bytes limit).admits bs = true ↔ bs.length ≤ limit := by
  simp [bytes]

theorem admits_anyBytes {bs : Bytes} : anyBytes.admits bs = true ↔ bs.Tellable := by
  rw [anyBytes, admits_bytes, Bytes.Tellable]
  omega

theorem admits_option {α : Type} {l : Layout α} {x : Option α} :
    l.option.admits x = true ↔ ∀ a ∈ x, l.admits a = true := by
  cases x <;> simp [option]

theorem admits_pair {α β : Type} {l : Layout α} {m : Layout β} {a : α} {b : β} {P Q : Prop}
    (hl : l.admits a = true ↔ P) (hm : m.admits b = true ↔ Q) :
    (l.pair m).admits (a, b) = true ↔ P ∧ Q := by
  rw [← hl, ← hm]
  exact Bool.and_eq_true_iff

theorem admits_words (limit : Nat) {ws : List UInt64} :
    (list limit word64).admits ws = true ↔ ws.length ≤ limit := by
  simp [list]

end Layout

open Layout

section

variable {cfg : Config}

theorem Acknowledgement.admits_iff {a : Acknowledgement} :
    (layout cfg).admits a = true ↔ a.Bounded cfg := by
  have hcode : word16.option.admits a.code = true := admits_option.mpr fun _ _ => admits_word16 _
  simp only [layout, via, pair, Bool.and_eq_true, hcode, true_and, Config.data, admits_bytes,
    Bounded]
  exact ⟨fun h => h.2, fun h => ⟨rfl, h⟩⟩

theorem Payload.admits_iff {p : Payload} : (layout cfg).admits p = true ↔ p.Bounded cfg := by
  cases p with
  | raw data => simp [layout, cases, oneOf, Case.of, Bounded, Config.data, admits_bytes]
  | task taskId requester hint hash =>
    simp [layout, cases, oneOf, Case.of, Bounded, pair, Digest.layout, Config.agentIds,
      admits_option, admits_bytes]
  | reputation subject delta hash =>
    simp [layout, cases, oneOf, Case.of, Bounded, pair, Digest.layout]
  | did subject proof =>
    simp [layout, cases, oneOf, Case.of, Bounded, pair, Config.data, admits_bytes]
  | ack answer =>
    simp [layout, cases, oneOf, Case.of, Bounded, Acknowledgement.admits_iff]

theorem Packet.admits_iff {p : Packet} : (layout cfg).admits p = true ↔ p.Bounded cfg := by
  simp only [layout, via, pair, Bool.and_eq_true, admits_word64, admits_word32,
    Config.channelIds, Config.chainIds, Config.agentIds, admits_option, admits_bytes,
    Payload.admits_iff, true_and, and_true]
  constructor
  · rintro ⟨hsource, hchain, htarget, hagent, hpayload⟩
    exact ⟨hsource, hchain, htarget, hagent, hpayload⟩
  · rintro ⟨hsource, hchain, htarget, hagent, hpayload⟩
    exact ⟨hsource, hchain, htarget, hagent, hpayload⟩

theorem Call.admits_iff {call : Call} : (layout cfg).admits call = true ↔ call.Bounded cfg := by
  -- only the case that a call belongs to has a body for it
  have hcase {α : Type} {l : Layout α} {body : α} {P : Prop} (h : l.admits body = true ↔ P) :
      (l.admits body || false) = true ↔ P := by rw [Bool.or_false, h]
  cases call with
  | openChannel chain counterparty =>
    exact hcase (l := anyBytes.pair anyBytes) (admits_pair admits_anyBytes admits_anyBytes)
  | confirmOpen channel | startClose channel | confirmClose channel =>
    exact hcase admits_anyBytes
  | send channel chain counterparty agent payload =>
    have hagent : anyBytes.option.admits agent = true ↔ ∀ remote ∈ agent, remote.Tellable := by
      simp only [admits_option, admits_anyBytes]
    exact hcase (admits_pair admits_anyBytes (admits_pair admits_anyBytes
      (admits_pair admits_anyBytes (admits_pair hagent Payload.admits_iff))))
  | receive packet => exact hcase Packet.admits_iff
  | acknowledge channel sequence ack =>
    have hanswer : (word64.pair (Acknowledgement.layout cfg)).admits (sequence, ack) = true ↔
        ack.Bounded cfg := by simp [pair, Acknowledgement.admits_iff]
    exact hcase (admits_pair admits_anyBytes hanswer)
  | timeOut channel sequence =>
    have hnumbered : (anyBytes.pair word64).admits (channel, sequence) = true ↔
        channel.Tellable := by simp [pair, admits_anyBytes]
    exact hcase hnumbered
  | addRelayer relayer | removeRelayer relayer =>
    exact hcase (iff_true_intro (admits_word64 relayer))
  | mapAgent chain remote agent =>
    have hremote : (anyBytes.pair word64).admits (remote, agent) = true ↔
        remote.Tellable := by simp [pair, admits_anyBytes]
    exact hcase (admits_pair admits_anyBytes hremote)
  | unmapAgent chain remote =>
    exact hcase (l := anyBytes.pair anyBytes) (admits_pair admits_anyBytes admits_anyBytes)
  | prune channel sequences =>
    exact hcase (admits_pair admits_anyBytes (admits_words cfg.pruneLimit.toNat))

instance (call : Call) : Decidable (call.Bounded cfg) := decidable_of_iff _ Call.admits_iff

end

/-- Bytes are a call if and only if its parts keep to their limits and the bytes are its written
form. So writing takes the calls that keep to their limits one to one to the byte strings that
are calls, and none of these goes on after the end of another one. -/
theorem Call.written_form_exact (cfg : Config) :
    (∀ input call, (layout cfg).readAll input = some call ↔
      call.Bounded cfg ∧ input = (layout cfg).write call) ∧
    Set.BijOn (layout cfg).write {call | call.Bounded cfg}
      {input | ∃ call, (layout cfg).readAll input = some call} ∧
    ∀ input extra call other, (layout cfg).readAll input = some call →
      (layout cfg).readAll (input ++ extra) = some other → extra = [] := by
  have hread (input : Bytes) (call : Call) : (layout cfg).readAll input = some call ↔
      call.Bounded cfg ∧ input = (layout cfg).write call := by
    rw [(exact_layout cfg).readAll_eq_some_iff, admits_iff]
  refine ⟨hread, ⟨?_, ?_, ?_⟩, ?_⟩
  · intro call hcall
    exact ⟨call, (hread _ _).mpr ⟨hcall, rfl⟩⟩
  · intro call hcall other hother hwritten
    have hback := (hread _ _).mpr ⟨hother, hwritten⟩
    rw [(hread _ _).mpr ⟨hcall, rfl⟩] at hback
    exact Option.some.inj hback
  · rintro input ⟨call, hcall⟩
    obtain ⟨hbounded, rfl⟩ := (hread input call).mp hcall
    exact ⟨call, hbounded, rfl⟩
  · intro input extra call other hcall hother
    obtain ⟨hbounded, rfl⟩ := (hread input call).mp hcall
    obtain ⟨hbounded', hlonger⟩ := (hread _ other).mp hother
    rw [← List.append_nil ((layout cfg).write other)] at hlonger
    exact ((exact_layout cfg).write_append_inj (admits_iff.mpr hbounded)
      (admits_iff.mpr hbounded') hlonger).2

namespace Small

/-- A send of as many bytes as a payload may have; their length is the first one that takes two
bytes. -/
def fullest : Call :=
  .send channel [1] [2] (some []) (.raw (List.replicate 64 7))

/-- The full send is read back, and none of its written form's ends can be left out. An empty
identifier whose length stands in two bytes is none. -/
theorem fullest_read_back :
    fullest.Bounded cfg ∧ (Call.layout cfg).readAll ((Call.layout cfg).write fullest) =
        some fullest ∧
      ((Call.layout cfg).write fullest).length = 84 ∧
      (Call.layout cfg).readAll (((Call.layout cfg).write fullest).dropLast) = none ∧
      (Call.layout cfg).readAll [1, 0] = some (.confirmOpen []) ∧
      (Call.layout cfg).readAll [1, 1, 0] = none := by
  obtain ⟨hread, -, hends⟩ := Call.written_form_exact cfg
  have hbounded : fullest.Bounded cfg := by decide
  have hwhole := (hread _ _).mpr ⟨hbounded, rfl⟩
  have hne : (Call.layout cfg).write fullest ≠ [] := nofun
  refine ⟨hbounded, hwhole, rfl, ?_, rfl, rfl⟩
  cases hshort : (Call.layout cfg).readAll ((Call.layout cfg).write fullest).dropLast with
  | none => rfl
  | some call =>
    rw [← List.dropLast_concat_getLast hne] at hwhole
    have hnothing := hends _ _ _ _ hshort hwhole
    cases hnothing

end Small

end RelayLedger
