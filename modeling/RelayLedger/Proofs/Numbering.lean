import RelayLedger.Proofs.Conservation
import RelayLedger.Proofs.Pending

/-!
The numbers that a channel gives out to its packets. As long as they last, no two packets that
the channel tells of have the same one, and none is above the count of the sends. This is so at
any block height, also before the first block, when nothing is told.
-/
namespace RelayLedger

/-- Numbers that the first so many packets of a channel got, none of them listed twice. -/
structure Issued (sends : Nat) (numbers : List Sequence) : Prop where
  nodup : numbers.Nodup
  le : ∀ s ∈ numbers, s.toNat ≤ sends

namespace Issued

variable {sends : Nat} {numbers : List Sequence}

theorem nil : Issued 0 [] := ⟨List.nodup_nil, by simp⟩

theorem sublist {fewer : List Sequence} (h : Issued sends numbers) (hsub : fewer.Sublist numbers) :
    Issued sends fewer where
  nodup := h.nodup.sublist hsub
  le s hs := h.le s (hsub.subset hs)

theorem later {more : Nat} (h : Issued sends numbers) (hle : sends ≤ more) :
    Issued more numbers where
  nodup := h.nodup
  le s hs := Nat.le_trans (h.le s hs) hle

theorem push {s : Sequence} (h : Issued sends numbers) (hnew : s ∉ numbers)
    (hle : s.toNat ≤ sends) : Issued sends (numbers ++ [s]) where
  nodup := h.nodup.append (List.nodup_singleton s) (List.disjoint_singleton.mpr hnew)
  le := by
    rw [List.forall_mem_append, List.forall_mem_singleton]
    exact ⟨h.le, hle⟩

/-- The number after the last one was not given out before. -/
theorem next {s : Sequence} (h : Issued sends numbers) (hs : s.toNat = sends + 1) :
    Issued (sends + 1) (numbers ++ [s]) := by
  have hnew : s ∉ numbers := by
    intro hmem
    have hle := h.le s hmem
    omega
  exact (h.later (Nat.le_succ sends)).push hnew (Nat.le_of_eq hs)

end Issued

/-- While the numbers last, the next one is the one after the count of the sends. -/
theorem Outbox.Numbered.toNat_send {o : Outbox} {sends : Nat} {send ack : Sequence}
    (h : o.Numbered sends) (hcounts : o.counts = some (send, ack))
    (hroom : sends + 1 < 18446744073709551615) : send.toNat = sends + 1 := by
  have hnext := h.next_send send ack hcounts
  omega

theorem Issued.turn {cfg : Config} {id : Bytes} {o after : Outbox} {call : Call} {e : Event}
    {sends : Nat} {numbers : List Sequence} (hnumbered : o.Numbered sends)
    (h : Issued sends numbers) (hturn : o.Turn cfg id call e after)
    (hroom : (sends + if call.sendsOn id then 1 else 0) < 18446744073709551615) :
    Issued (sends + if call.sendsOn id then 1 else 0)
      (numbers ++ (e.sentOn id).toList.map Packet.sequence) := by
  cases hturn with
  | other hsends hsent => simpa [hsends, hsent] using h
  | opening => simpa [Call.sendsOn, Event.sentOn] using h
  | send hopened hcounts _ hsource =>
    have hroom : sends + 1 < 18446744073709551615 := by simpa [Call.sendsOn] using hroom
    have hnext := h.next (hnumbered.toNat_send hcounts hroom)
    simpa [Call.sendsOn, Event.sentOn, hsource] using hnext
  | acknowledge => simpa [Call.sendsOn, Event.sentOn] using h
  | timeOut => simpa [Call.sendsOn, Event.sentOn] using h

/-- A call adds to the packets that a channel tells of what its event says, or nothing. -/
theorem World.sent_book_sublist (w : World) (origin : Origin) (call : Call) (l : Ledger)
    (e : Event) (id : Bytes) :
    ((w.book origin call l e).chronicle.sent id).Sublist
      (w.chronicle.sent id ++ (e.sentOn id).toList) := by
  by_cases hl : l.height = 0
  · have hsame : (w.book origin call l e).chronicle.sent id = w.chronicle.sent id := by
      simp [World.book, Chronicle.sent, Chronicle.enroll, Chronicle.events_tell, hl]
    rw [hsame]
    exact List.sublist_append_left ..
  · rw [Chronicle.sent, World.filterMap_book _ hl]
    exact List.Sublist.refl _

/-- Receiving a packet adds none to those that a channel tells of. -/
theorem World.sent_receive_sublist (w : World) (who : Account) (p : Packet)
    (agent : Option AgentId) (ack : Acknowledgement) (l : Ledger) (id : Bytes) :
    ((w.book (.signed who) (.receive p) l (Reception.news who p agent ack)).chronicle.sent
      id).Sublist (w.chronicle.sent id) := by
  have hsub := w.sent_book_sublist (.signed who) (.receive p) l
    (Reception.news who p agent ack) id
  simpa [Reception.news, Event.sentOn] using hsub

/-- The packets that a channel tells of got numbers of their own. -/
def World.Numbers (cfg : Config) (id : Bytes) (w : World) : Prop :=
  (w.ledger.lane id).outbox.Exact cfg (w.chronicle.sendCount id) ∧
    (w.chronicle.sendCount id < 18446744073709551615 →
      Issued (w.chronicle.sendCount id) ((w.chronicle.sent id).map Packet.sequence))

theorem kept_numbers (cfg : Config) (id : Bytes) :
    Kept cfg (fun _ => True) (World.Numbers cfg id) where
  host _ h := h
  height _ h := h
  deliver _ h := h
  call {w origin call l e} hheight h heffect := by
    obtain ⟨hexact, hissued⟩ := h
    have hturn := heffect.outbox_turn id
    refine ⟨(kept_exact cfg id).call hheight hexact heffect, fun hroom => ?_⟩
    rw [World.sendCount_book] at hroom ⊢
    have hnext := (hissued (by omega)).turn hexact.numbered hturn hroom
    rw [← List.map_append] at hnext
    exact hnext.sublist ((w.sent_book_sublist origin call l e id).map Packet.sequence)
  receive {w} who p agent ack hheight h := by
    obtain ⟨hexact, hissued⟩ := h
    refine ⟨(kept_exact cfg id).receive who p agent ack hheight hexact, fun hroom => ?_⟩
    rw [World.sendCount_book] at hroom ⊢
    have hsub := w.sent_receive_sublist who p agent ack
      (Reception.receipted w.ledger w.ledger.height p ack) id
    exact (hissued hroom).sublist (hsub.map Packet.sequence)

section

variable {cfg : Config} {may : World → Step → Prop} {w : World} {id : Bytes}

theorem Reached.numbers (h : Reached cfg may w) (id : Bytes) : w.Numbers cfg id :=
  (kept_numbers cfg id).reached (fun _ _ => ⟨.empty cfg, fun _ => .nil⟩)
    (fun _ _ _ _ => trivial) h

theorem Reached.issued (h : Reached cfg may w)
    (hroom : w.chronicle.sendCount id < 18446744073709551615) :
    Issued (w.chronicle.sendCount id) ((w.chronicle.sent id).map Packet.sequence) :=
  (h.numbers id).2 hroom

/-- While the numbers last, a number tells which packet of the channel it belongs to. -/
theorem Reached.sent_unique (h : Reached cfg may w)
    (hroom : w.chronicle.sendCount id < 18446744073709551615) {p q : Packet}
    (hp : p ∈ w.chronicle.sent id) (hq : q ∈ w.chronicle.sent id)
    (heq : p.sequence = q.sequence) : p = q :=
  List.inj_on_of_nodup_map (h.issued hroom).nodup hp hq heq

end

end RelayLedger
