import RelayLedger.Proofs.Nesting

/-!
The receipts of a channel. Only a packet that comes in writes a receipt, and only pruning
takes one away: never one whose packet could still be in time.
-/
namespace RelayLedger

/-- The receipt kept for a packet number on a channel. -/
def Ledger.receipt (l : Ledger) (id : Bytes) (s : Sequence) : Option Receipt :=
  (l.lane id).receipts.get s

namespace Height

theorem le_after (h : Height) (blocks : UInt32) : h ≤ h.after blocks := by
  have hlt := h.toNat_lt
  rw [UInt32.le_iff_toNat_le, toNat_after]
  omega

end Height

namespace Inbound

variable {cfg : Config} {receipts : Table Sequence (Option Receipt)} {now : Height}

/-- Receipts may go if each of them is there and its time is over. -/
theorem checkStale_ok_iff {listed : List Sequence} :
    checkStale cfg receipts now listed = .ok () ↔
      ∀ s ∈ listed, ∃ r, receipts.get s = some r ∧ r.isStale cfg now = true := by
  induction listed with
  | nil => simp [checkStale]
  | cons s rest ih =>
    unfold checkStale
    cases hr : receipts.get s with
    | none => simp [hr]
    | some r =>
      by_cases hstale : r.isStale cfg now = true
      · simp [hr, hstale, ih]
      · simp [hr, hstale]

theorem get_dropReceipts (listed : List Sequence) (s : Sequence) :
    (dropReceipts receipts listed).1.get s = if s ∈ listed then none else receipts.get s := by
  induction listed generalizing receipts with
  | nil => rfl
  | cons first rest ih =>
    simp only [dropReceipts, ih, List.mem_cons, Table.get_set]
    by_cases hrest : s ∈ rest <;> simp [hrest]

end Inbound

theorem Lane.receipts_retain (limit : UInt32) (l : Lane) (s : Sequence) (r : AckRecord) :
    (Lane.retain limit l s r).receipts = l.receipts := by
  rw [Lane.retain_eq]

section

variable {cfg : Config} {w mid : World} {origin : Origin} {call : Call} {l : Ledger} {e : Event}
  {id : Bytes} {s : Sequence}

/-- What a call other than receiving does to a receipt: nothing, unless it prunes it. -/
theorem Effect.receipt_kept_or_pruned (h : Effect cfg w origin call l e) (id : Bytes)
    (s : Sequence) :
    l.receipt id s = w.ledger.receipt id s ∨
      ∃ listed r, call = .prune id listed ∧ s ∈ listed ∧ w.ledger.receipt id s = some r ∧
        r.isStale cfg w.ledger.height = true ∧ l.receipt id s = none := by
  cases h with
  | @prune who target listed hid hstale =>
    by_cases htarget : id = target
    · subst htarget
      by_cases hlisted : s ∈ listed
      · obtain ⟨r, hr, hgone⟩ := Inbound.checkStale_ok_iff.mp hstale s hlisted
        refine .inr ⟨listed, r, rfl, hlisted, hr, hgone, ?_⟩
        simp [Ledger.receipt, Inbound.get_dropReceipts, hlisted]
      · left
        simp [Ledger.receipt, Inbound.get_dropReceipts, hlisted]
    · left
      simp [Ledger.receipt, htarget]
  | openChannel =>
    left
    simp only [Ledger.receipt, Ledger.lane_opened]
    split
    · next h => simp only [Lifecycle.opening, h]
    · rfl
  | addRelayer => exact .inl rfl
  | removeRelayer => exact .inl rfl
  | mapAgent => exact .inl rfl
  | unmapAgent => exact .inl rfl
  | _ =>
    left
    simp only [Ledger.receipt, Ledger.lane_modifyLane]
    split
    · next h => simp [h, Lane.commit, Lane.receipts_retain, Lane.release, Lane.countAck]
    · rfl

/-- A packet that comes in writes its own receipt and no other. -/
theorem Reception.receipt_receipted (l : Ledger) (now : Height) (p : Packet)
    (ack : Acknowledgement) (id : Bytes) (s : Sequence) :
    (receipted l now p ack).receipt id s =
      if id = p.target ∧ s = p.sequence then some ⟨now, p.timeout, ack⟩ else l.receipt id s := by
  simp only [receipted, Ledger.receipt, Ledger.lane_modifyLane]
  by_cases hid : id = p.target
  · by_cases hs : s = p.sequence <;> simp [hid, hs, Lane.receive]
  · simp [hid]

end

end RelayLedger
