import RelayLedger.Proofs.Runs

/-!
What a ledger keeps of the packets that a channel sends, apart from everything else. Sending,
acknowledging and timing out are the only calls that change it, and each of them leaves an
event that says so.
-/
namespace RelayLedger

/-- What is kept of a channel and of the packets that it sends. -/
structure Outbox where
  opened : Bool
  /-- The number of the next packet, and that of the next acknowledgement. -/
  counts : Option (Sequence × Sequence)
  pending : UInt32
  commitments : Table Sequence (Option Commitment)

def Lane.outbox (l : Lane) : Outbox where
  opened := l.channel.isSome
  counts := l.sequences.map fun counts => (counts.send, counts.ack)
  pending := l.pending
  commitments := l.commitments

/-- The packets that a channel sent, oldest first. -/
def Event.sentOn (id : Bytes) : Event → Option Packet
  | .packetSent _ p _ => if p.source = id then some p else none
  | _ => none

/-- The numbers of the packets of a channel that were acknowledged. -/
def Event.ackedOn (id : Bytes) : Event → Option Sequence
  | .packetAcknowledged channel s _ _ => if channel = id then some s else none
  | _ => none

/-- The numbers of the packets of a channel that timed out. -/
def Event.timedOutOn (id : Bytes) : Event → Option Sequence
  | .packetTimedOut channel s => if channel = id then some s else none
  | _ => none

def Call.sendsOn (id : Bytes) : Call → Bool
  | .send channel .. => channel = id
  | _ => false

/-- What a call does to the outbox of a channel, with the event that it tells. -/
inductive Outbox.Turn (cfg : Config) (id : Bytes) (o : Outbox) : Call → Event → Outbox → Prop
  | other {call : Call} {e : Event} (hsends : call.sendsOn id = false)
      (hsent : e.sentOn id = none) (hacked : e.ackedOn id = none)
      (htimedOut : e.timedOutOn id = none) : Turn cfg id o call e o
  | opening {chain counterparty : Bytes} (hnew : o.opened = false) :
      Turn cfg id o (.openChannel chain counterparty) (.channelOpened id chain counterparty)
        { o with opened := true, counts := some (1, 1) }
  | send {who : Account} {chain counterparty : Bytes} {agent : Option Bytes}
      {payload : Payload} {ack : Sequence} {pending : UInt32} {p : Packet} {hash : Digest}
      (hopened : o.opened = true) (hcounts : o.counts = some (p.sequence, ack))
      (hpending : Capacity.increment? cfg.pendingLimit o.pending = some pending)
      (hsource : p.source = id) :
      Turn cfg id o (.send id chain counterparty agent payload) (.packetSent who p hash)
        { o with
          counts := some (Sequence.next p.sequence, ack)
          pending := pending
          commitments := o.commitments.set p.sequence (some (p.commitment cfg)) }
  | acknowledge {s : Sequence} {ack : Acknowledgement} {c : Commitment}
      (hcommitment : o.commitments.get s = some c) :
      Turn cfg id o (.acknowledge id s ack) (.packetAcknowledged id s ack.success ack.code)
        { o with
          counts := o.counts.map fun (send, acked) => (send, Sequence.next acked)
          pending := Capacity.decrement o.pending
          commitments := o.commitments.set s none }
  | timeOut {s : Sequence} {c : Commitment} (hcommitment : o.commitments.get s = some c) :
      Turn cfg id o (.timeOut id s) (.packetTimedOut id s)
        { o with
          pending := Capacity.decrement o.pending
          commitments := o.commitments.set s none }

theorem Lane.outbox_retain (limit : UInt32) (l : Lane) (s : Sequence) (r : AckRecord) :
    (Lane.retain limit l s r).outbox = l.outbox := by
  rw [Lane.retain_eq]
  rfl

theorem Lane.outbox_acknowledged (l : Lane) (s : Sequence) :
    (l.release s).countAck.outbox =
      { l.outbox with
        counts := l.outbox.counts.map fun (send, acked) => (send, Sequence.next acked)
        pending := Capacity.decrement l.outbox.pending
        commitments := l.outbox.commitments.set s none } := by
  simp only [outbox, countAck, release, Option.map_map]
  rfl

theorem Lane.outbox_enter {l : Lane} {channel next : Channel} (h : l.channel = some channel) :
    { l with channel := some next }.outbox = l.outbox := by
  simp only [outbox, h, Option.isSome_some]

section

variable {cfg : Config} {w : World} {origin : Origin} {call : Call} {l : Ledger} {e : Event}

theorem Effect.outbox_turn (h : Effect cfg w origin call l e) (id : Bytes) :
    Outbox.Turn cfg id (w.ledger.lane id).outbox call e (l.lane id).outbox := by
  cases h with
  | @openChannel _ chain counterparty _ _ _ _ hfree =>
    rw [Ledger.lane_opened]
    by_cases hid : id = Channel.idOf w.ledger.counter
    · rw [if_pos hid, ← hid]
      rw [← hid] at hfree
      exact .opening (by simp [Lane.outbox, hfree])
    · rw [if_neg hid]
      exact .other rfl rfl rfl rfl
  | @send who channel chain counterparty agent payload _ counts pending _ _ _ _ hchannel _ _ _ _
      hpending hcounts =>
    rw [Ledger.lane_modifyLane]
    by_cases hid : id = channel
    · subst hid
      rw [if_pos rfl]
      let p := Packet.draft cfg w.ledger.height counts id chain counterparty agent payload
      have hopened : (w.ledger.lane id).outbox.opened = true := by simp [Lane.outbox, hchannel]
      have hcounts : (w.ledger.lane id).outbox.counts = some (p.sequence, counts.ack) := by
        simp [Lane.outbox, hcounts, p, Packet.draft]
      have hsource : p.source = id := rfl
      exact .send hopened hcounts hpending hsource
    · rw [if_neg hid]
      have hother : channel ≠ id := Ne.symm hid
      exact .other (by simp [Call.sendsOn, hother]) (by simp [Event.sentOn, Packet.draft, hother])
        rfl rfl
  | @acknowledge who channel s ack c _ _ hcommitment =>
    rw [Ledger.lane_modifyLane]
    by_cases hid : id = channel
    · subst hid
      rw [if_pos rfl, Lane.outbox_retain, Lane.outbox_acknowledged]
      exact .acknowledge hcommitment
    · rw [if_neg hid]
      exact .other rfl rfl (by simp [Event.ackedOn, Ne.symm hid]) rfl
  | @timeOut who channel s c _ hcommitment =>
    rw [Ledger.lane_modifyLane]
    by_cases hid : id = channel
    · subst hid
      rw [if_pos rfl]
      exact .timeOut hcommitment
    · rw [if_neg hid]
      exact .other rfl rfl rfl (by simp [Event.timedOutOn, Ne.symm hid])
  | prune =>
    rw [Ledger.lane_modifyLane]
    split
    · next hid =>
      rw [hid]
      exact .other rfl rfl rfl rfl
    · exact .other rfl rfl rfl rfl
  | addRelayer => exact .other rfl rfl rfl rfl
  | removeRelayer => exact .other rfl rfl rfl rfl
  | mapAgent => exact .other rfl rfl rfl rfl
  | unmapAgent => exact .other rfl rfl rfl rfl
  | confirmOpen _ _ hchannel | startClose _ _ hchannel | confirmClose _ _ hchannel =>
    rw [Ledger.lane_modifyLane]
    split
    · next hid =>
      rw [hid, Lane.outbox_enter hchannel]
      exact .other rfl rfl rfl rfl
    · exact .other rfl rfl rfl rfl

/-- Receiving a packet leaves every outbox as it was. -/
theorem Reception.outbox_receipted (l : Ledger) (now : Height) (p : Packet)
    (ack : Acknowledgement) (id : Bytes) :
    ((receipted l now p ack).lane id).outbox = (l.lane id).outbox := by
  rw [receipted, Ledger.lane_modifyLane]
  split
  · next hid =>
    rw [hid]
    simp only [Lane.outbox, Lane.receive, Option.map_map]
    rfl
  · rfl

end

/-- Counts that give out the same number next. -/
theorem Outbox.exists_send_of_fst_eq {counts before : Option (Sequence × Sequence)}
    {send ack : Sequence} (h : counts.map Prod.fst = before.map Prod.fst)
    (hcounts : counts = some (send, ack)) : ∃ ack', before = some (send, ack') := by
  have hfirst : counts.map Prod.fst = some send := congrArg (Option.map Prod.fst) hcounts
  rw [h] at hfirst
  obtain ⟨⟨send', ack'⟩, hbefore, rfl⟩ := Option.map_eq_some_iff.mp hfirst
  exact ⟨ack', hbefore⟩

/-- An outbox from which so many packets were sent is numbered in turn. -/
structure Outbox.Numbered (sends : Nat) (o : Outbox) : Prop where
  counted : o.counts.isSome = o.opened
  unopened : o.opened = false → sends = 0
  next_send : ∀ send ack, o.counts = some (send, ack) →
    send.toNat = min (sends + 1) 18446744073709551615

namespace Outbox.Numbered

variable {o : Outbox} {sends : Nat}

theorem empty : Numbered 0 Lane.empty.outbox where
  counted := rfl
  unopened _ := rfl
  next_send _ _ h := by cases h

theorem opening (h : Numbered sends o) (hnew : o.opened = false) :
    Numbered sends { o with opened := true, counts := some (1, 1) } where
  counted := rfl
  unopened hclosed := by cases hclosed
  next_send send ack hcounts := by
    cases hcounts
    rw [h.unopened hnew]
    rfl

theorem send (h : Numbered sends o) {s ack : Sequence} (hopened : o.opened = true)
    (hcounts : o.counts = some (s, ack)) (pending : UInt32)
    (commitments : Table Sequence (Option Commitment)) :
    Numbered (sends + 1)
      { o with counts := some (Sequence.next s, ack), pending, commitments } where
  counted := hopened.symm
  unopened hclosed := by
    rw [hopened] at hclosed
    cases hclosed
  next_send send ack' hcounts' := by
    cases hcounts'
    have hnext := h.next_send _ _ hcounts
    rw [Sequence.toNat_next]
    omega

/-- Settling a packet leaves the number of the next one. -/
theorem settle (h : Numbered sends o) {counts : Option (Sequence × Sequence)}
    (hcounts : counts.map Prod.fst = o.counts.map Prod.fst) (pending : UInt32)
    (commitments : Table Sequence (Option Commitment)) :
    Numbered sends { o with counts, pending, commitments } where
  counted := by
    rw [← h.counted]
    simpa using congrArg Option.isSome hcounts
  unopened := h.unopened
  next_send send ack hsome := by
    obtain ⟨ack', hbefore⟩ := exists_send_of_fst_eq hcounts hsome
    exact h.next_send _ _ hbefore

end Outbox.Numbered

theorem fst_afterAck (counts : Option (Sequence × Sequence)) :
    (counts.map fun (send, acked) => (send, Sequence.next acked)).map Prod.fst =
      counts.map Prod.fst := by
  rw [Option.map_map]
  rfl

end RelayLedger
