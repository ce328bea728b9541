import Mathlib.Data.List.Nodup
import Mathlib.Data.Set.Function
import RelayLedger.Encoding
import RelayLedger.Proofs.Runs

/-!
What a commitment binds. Two packets with the same commitment hash are the same packet, unless
two messages are at hand that the hash function does not tell apart: the encodings of the two
payloads, or the encodings of the two pledges. Nothing is assumed of the hash function.
-/
namespace RelayLedger

/-- Two different messages with the same digest. -/
def Blake2b.Collision (x y : Bytes) : Prop := x ≠ y ∧ digest x = digest y

namespace Packet

variable {cfg : Config} {p q : Packet}

/-- The bytes of which a pledge holds the digest in place of the payload. -/
def payloadBytes (cfg : Config) (p : Packet) : Bytes := (Payload.layout cfg).write p.payload

/-- The bytes whose digest is the commitment hash. -/
def pledgeBytes (cfg : Config) (p : Packet) : Bytes := (Pledge.layout cfg).write (p.pledge cfg)

theorem admits_payload (h : (layout cfg).admits p = true) :
    (Payload.layout cfg).admits p.payload = true := by
  simp only [layout, Layout.via, Layout.pair, Bool.and_eq_true] at h
  obtain ⟨-, -, -, -, -, hpayload, -⟩ := h
  exact hpayload

/-- The pledge of a packet within its limits is within its own. -/
theorem admits_pledge (h : (layout cfg).admits p = true) :
    (Pledge.layout cfg).admits (p.pledge cfg) = true := by
  have htag : Layout.anyBytes.admits commitmentTag = true := by decide
  simp only [layout, Layout.via, Layout.pair, Bool.and_eq_true] at h
  obtain ⟨hsequence, hsource, hchain, htarget, hagent, -, htimeout⟩ := h
  simp only [Pledge.layout, Layout.via, Layout.pair, pledge, Bool.and_eq_true]
  exact ⟨htag, hsource, hsequence, htimeout, hchain, htarget, hagent, rfl⟩

/-- Packets with the same pledge differ in their payloads at most. -/
theorem eq_of_pledge_eq (hpledge : p.pledge cfg = q.pledge cfg) (hpayload : p.payload = q.payload) :
    p = q := by
  obtain ⟨sequence, source, chain, target, agent, payload, timeout⟩ := p
  simp only [pledge, Pledge.mk.injEq] at hpledge
  obtain ⟨-, rfl, rfl, rfl, rfl, rfl, rfl, -⟩ := hpledge
  cases hpayload
  rfl

/-- Where the pledges are written alike, only the digests of the payloads can deceive. -/
theorem eq_or_collision_of_pledgeBytes_eq (hp : (layout cfg).admits p = true)
    (hq : (layout cfg).admits q = true) (h : p.pledgeBytes cfg = q.pledgeBytes cfg) :
    p = q ∨ Blake2b.Collision (p.payloadBytes cfg) (q.payloadBytes cfg) := by
  have hpledge : p.pledge cfg = q.pledge cfg :=
    (Pledge.exact_layout cfg).write_inj (admits_pledge hp) (admits_pledge hq) h
  by_cases hbytes : p.payloadBytes cfg = q.payloadBytes cfg
  · left
    have hpayload : p.payload = q.payload :=
      (Payload.exact_layout cfg).write_inj (admits_payload hp) (admits_payload hq) hbytes
    exact eq_of_pledge_eq hpledge hpayload
  · right
    exact ⟨hbytes, congrArg Pledge.payload hpledge⟩

theorem eq_or_collision (hp : (layout cfg).admits p = true) (hq : (layout cfg).admits q = true)
    (h : p.commitmentHash cfg = q.commitmentHash cfg) :
    p = q ∨ Blake2b.Collision (p.payloadBytes cfg) (q.payloadBytes cfg) ∨
      Blake2b.Collision (p.pledgeBytes cfg) (q.pledgeBytes cfg) := by
  by_cases hbytes : p.pledgeBytes cfg = q.pledgeBytes cfg
  · rcases eq_or_collision_of_pledgeBytes_eq hp hq hbytes with heq | hcollision
    · exact .inl heq
    · exact .inr (.inl hcollision)
  · exact .inr (.inr ⟨hbytes, h⟩)

/-- Different packets with one commitment hash show two different messages with one digest. So
among packets whose messages the hash function tells apart, the commitment hash belongs to one
packet only. -/
theorem commitmentHash_binds (cfg : Config) :
    (∀ p q : Packet, (layout cfg).admits p = true → (layout cfg).admits q = true → p ≠ q →
      p.commitmentHash cfg = q.commitmentHash cfg →
      Blake2b.Collision (p.payloadBytes cfg) (q.payloadBytes cfg) ∨
        Blake2b.Collision (p.pledgeBytes cfg) (q.pledgeBytes cfg)) ∧
    ∀ messages : Set Bytes, messages.InjOn Blake2b.digest →
      {p : Packet | (layout cfg).admits p = true ∧ p.payloadBytes cfg ∈ messages ∧
        p.pledgeBytes cfg ∈ messages}.InjOn (commitmentHash cfg) := by
  constructor
  · intro p q hp hq hne h
    exact (eq_or_collision hp hq h).resolve_left hne
  · intro messages hinj p ⟨hp, hpayload, hpledge⟩ q ⟨hq, hpayload', hpledge'⟩ h
    rcases eq_or_collision hp hq h with heq | ⟨hne, hdigest⟩ | ⟨hne, hdigest⟩
    · exact heq
    · exact absurd (hinj hpayload hpayload' hdigest) hne
    · exact absurd (hinj hpledge hpledge' hdigest) hne

end Packet

namespace Small

/-- A packet that differs from another one in its agent and in the variant of its payload. -/
def variant : Packet := { packet 5 with agent := some [], payload := .did [7] [] }

/-- The messages that the commitments of the two packets are made of. -/
def messages : List Bytes :=
  [(packet 5).payloadBytes cfg, (packet 5).pledgeBytes cfg, variant.payloadBytes cfg,
    variant.pledgeBytes cfg]

theorem variant_bound_apart :
    (messages.map Blake2b.digest).Nodup ∧
      (packet 5).commitmentHash cfg ≠ variant.commitmentHash cfg := by
  have hnodup : (messages.map Blake2b.digest).Nodup := by decide +kernel
  have hinj : Set.InjOn Blake2b.digest {m | m ∈ messages} :=
    fun x hx y hy => List.inj_on_of_nodup_map hnodup hx hy
  have hbound := (Packet.commitmentHash_binds cfg).2 _ hinj
  have hfirst : packet 5 ∈ {p : Packet | (Packet.layout cfg).admits p = true ∧
      p.payloadBytes cfg ∈ messages ∧ p.pledgeBytes cfg ∈ messages} :=
    ⟨by decide, by simp [messages], by simp [messages]⟩
  have hvariant : variant ∈ {p : Packet | (Packet.layout cfg).admits p = true ∧
      p.payloadBytes cfg ∈ messages ∧ p.pledgeBytes cfg ∈ messages} :=
    ⟨by decide, by simp [messages], by simp [messages]⟩
  exact ⟨hnodup, fun h => absurd (hbound hfirst hvariant h) (by decide)⟩

end Small

end RelayLedger
