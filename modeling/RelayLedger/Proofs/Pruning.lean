import Mathlib.Data.Finset.Card
import RelayLedger.Proofs.Passage

/-!
Pruning of receipts. A list of numbers is gone through twice, first to check each of them and
then to drop their receipts. A number that is listed again passes the checks again, since nothing
has been dropped by then, but its receipt is dropped and counted only once.
-/
namespace RelayLedger

/-- There is a receipt for a number, and the retention time after its packet's timeout is over. -/
def Ledger.Prunable (cfg : Config) (l : Ledger) (id : Bytes) (s : Sequence) : Prop :=
  ∃ r, l.receipt id s = some r ∧ r.timeout.after cfg.retentionBlocks ≤ l.height

/-- Why a receipt that may not go is not pruned. -/
def Ledger.pruneRefusal (l : Ledger) (id : Bytes) (s : Sequence) : Refusal :=
  if l.receipt id s = none then .receiptNotFound else .receiptStillLive

namespace Inbound

variable {cfg : Config} {l : Ledger} {id : Bytes} {receipts : Table Sequence (Option Receipt)}

theorem checkStale_ok_iff_prunable {listed : List Sequence} :
    checkStale cfg (l.lane id).receipts l.height listed = .ok () ↔
      ∀ s ∈ listed, l.Prunable cfg id s := by
  simp only [checkStale_ok_iff, Receipt.isStale, decide_eq_true_eq]
  rfl

/-- The first receipt that may not go decides why a list is refused. -/
theorem exists_offender_of_checkStale {listed : List Sequence} {why : Refusal}
    (h : checkStale cfg (l.lane id).receipts l.height listed = .error why) :
    ∃ pre s post, listed = pre ++ s :: post ∧ (∀ t ∈ pre, l.Prunable cfg id t) ∧
      ¬l.Prunable cfg id s ∧ why = l.pruneRefusal id s := by
  induction listed with
  | nil => cases h
  | cons s rest ih =>
    unfold checkStale at h
    cases hr : (l.lane id).receipts.get s with
    | none =>
      have hnone : l.receipt id s = none := hr
      rw [hr] at h
      cases h
      refine ⟨[], s, rest, rfl, List.forall_mem_nil _, ?_, ?_⟩
      · rintro ⟨r, hsome, -⟩
        rw [hnone] at hsome
        cases hsome
      · rw [Ledger.pruneRefusal, if_pos hnone]
    | some r =>
      have hsome : l.receipt id s = some r := hr
      simp only [hr] at h
      split at h
      · next hstale =>
        have hprunable : l.Prunable cfg id s := ⟨r, hsome, of_decide_eq_true hstale⟩
        obtain ⟨pre, t, post, rfl, hpre, hoffender⟩ := ih h
        refine ⟨s :: pre, t, post, rfl, ?_, hoffender⟩
        intro u hu
        rcases List.mem_cons.mp hu with rfl | hu
        · exact hprunable
        · exact hpre u hu
      · next hlive =>
        cases h
        refine ⟨[], s, rest, rfl, List.forall_mem_nil _, ?_, ?_⟩
        · rintro ⟨r', hr', hgone⟩
          obtain rfl := Option.some.inj (hsome.symm.trans hr')
          exact hlive (decide_eq_true hgone)
        · rw [Ledger.pruneRefusal, if_neg (hsome ▸ Option.some_ne_none r)]

/-- What is counted are the distinct numbers among the listed ones that have a receipt. -/
theorem dropReceipts_count (receipts : Table Sequence (Option Receipt)) (listed : List Sequence) :
    (dropReceipts receipts listed).2 =
      (listed.toFinset.filter fun s => receipts.get s ≠ none).card := by
  induction listed generalizing receipts with
  | nil => rfl
  | cons s rest ih =>
    have hrest : (rest.toFinset.filter fun t => (receipts.set s none).get t ≠ none) =
        (rest.toFinset.filter fun t => receipts.get t ≠ none).erase s := by
      ext t
      by_cases ht : t = s <;> simp [Table.get_set, ht]
    simp only [dropReceipts, ih, hrest, List.toFinset_cons, Finset.filter_insert]
    by_cases hs : receipts.get s = none
    · rw [if_pos hs, if_neg (not_not.mpr hs), Finset.erase_eq_of_notMem]
      simp [hs]
    · rw [if_neg hs, if_pos hs, ← Finset.erase_insert_eq_erase]
      exact Finset.card_erase_add_one (Finset.mem_insert_self s _)

/-- Of receipts that may all go, each listed one is counted once. -/
theorem toNat_count_of_checkStale {listed : List Sequence}
    (hlength : listed.length ≤ cfg.pruneLimit.toNat)
    (h : checkStale cfg (l.lane id).receipts l.height listed = .ok ()) :
    (UInt32.ofNat (dropReceipts (l.lane id).receipts listed).2).toNat =
      listed.toFinset.card := by
  have hall : (listed.toFinset.filter fun s => (l.lane id).receipts.get s ≠ none) =
      listed.toFinset := by
    apply Finset.filter_true_of_mem
    intro s hs
    obtain ⟨r, hr, -⟩ := checkStale_ok_iff.mp h s (List.mem_toFinset.mp hs)
    exact hr ▸ Option.some_ne_none r
  have hfew : listed.toFinset.card < 4294967296 := by
    have hdistinct := listed.toFinset_card_le
    have hlimit := cfg.pruneLimit.toNat_lt
    omega
  rw [dropReceipts_count, hall, UInt32.toNat_ofNat_of_lt' hfew]

/-- A list with a receipt that may not go is refused as a whole. -/
theorem run_prune_of_refused {w : World} {listed : List Sequence} {why : Refusal}
    (hid : id.fits cfg.channelIdLimit = true) (handle : Handler) (who : Account)
    (h : checkStale cfg (w.ledger.lane id).receipts w.ledger.height listed = .error why) :
    (Call.perform cfg handle (.signed who) (.prune id listed)).run w =
      (.error (.refused why), w) := by
  rw [Call.perform,
    Fulfilment.run_bind_of_ok (Fulfilment.run_discard_of_ok (Fulfilment.run_signer who w)),
    Fulfilment.run_bind_of_ok (Fulfilment.run_guardChannel hid)]
  simp only [prune, Relay.run_lane_bind, Relay.run_now_bind, h, Relay.run_settle_bind]

end Inbound

/-- What pruning a list of numbers leaves: their receipts are gone, whether they were listed once
or more often, and nothing else has changed. The event, which is not recorded before the first
block, says how many there were. -/
structure Pruned (id : Bytes) (listed : List Sequence) (w after : World) : Prop where
  gone : ∀ s ∈ listed, after.ledger.receipt id s = none
  kept : ∀ s ∉ listed, after.ledger.receipt id s = w.ledger.receipt id s
  nothing_else : after.ledger = w.ledger.modifyLane id fun lane =>
    { lane with receipts := (after.ledger.lane id).receipts }
  told : ∃ count : UInt32, count.toNat = listed.toFinset.card ∧
    after.chronicle.events = if w.ledger.height = 0 then w.chronicle.events
      else w.chronicle.events ++ [.receiptsPruned id count]

section

variable {cfg : Config} {w after : World} {who : Account} {id : Bytes} {listed : List Sequence}
  {s : Submission} {layers : Nat} {outcome : Outcome}

theorem pruned_of_effect {l : Ledger} {e : Event} {lines : List LogLine}
    (hlength : listed.length ≤ cfg.pruneLimit.toNat)
    (h : Effect cfg w (.signed who) (.prune id listed) l e) :
    Pruned id listed w { w.book (.signed who) (.prune id listed) l e with host.log := lines } := by
  cases h with
  | prune hid hstale =>
    constructor
    case gone =>
      intro s hs
      simp [Ledger.receipt, World.book, Inbound.get_dropReceipts, hs]
    case kept =>
      intro s hs
      simp [Ledger.receipt, World.book, Inbound.get_dropReceipts, hs]
    case nothing_else => simp [World.book]
    case told =>
      refine ⟨_, Inbound.toNat_count_of_checkStale hlength hstale, ?_⟩
      exact Chronicle.events_tell ..

/-- Pruning succeeds if and only if every listed receipt is there and its time is over. Then just
these are dropped and counted once each; otherwise the first one that may not go decides why it is
refused, and nothing changes. -/
theorem prune_exact (hid : id.fits cfg.channelIdLimit = true)
    (hlength : listed.length ≤ cfg.pruneLimit.toNat)
    (hs : s ∈ Submission.forms cfg (.prune id listed))
    (hrun : (dispatch cfg (layers + 1) (.signed who) s).run w = (outcome, after)) :
    (outcome = .ok () ↔ ∀ n ∈ listed, w.ledger.Prunable cfg id n) ∧
      (outcome = .ok () → Pruned id listed w after) ∧
      ∀ fault, outcome = .error fault →
        (∃ pre n post, listed = pre ++ n :: post ∧
          (∀ m ∈ pre, w.ledger.Prunable cfg id m) ∧
          ¬w.ledger.Prunable cfg id n ∧ fault = .refused (w.ledger.pruneRefusal id n)) ∧
        after = w := by
  have hcall : s.call? cfg = some (.prune id listed) :=
    Submission.call?_of_mem_forms ⟨Bytes.tellable_of_fits hid, hlength⟩ hs
  cases hstale : Inbound.checkStale cfg (w.ledger.lane id).receipts w.ledger.height listed with
  | ok u =>
    have heffect : Effect cfg w (.signed who) (.prune id listed) _ _ := .prune hid hstale
    obtain ⟨lines, hdone⟩ := heffect.dispatch_eq hcall layers
    obtain ⟨rfl, rfl⟩ := Prod.mk.inj (hrun.symm.trans hdone)
    refine ⟨?_, fun _ => pruned_of_effect hlength heffect, nofun⟩
    exact iff_of_true rfl (Inbound.checkStale_ok_iff_prunable.mp hstale)
  | error why =>
    have hrefused := Inbound.run_prune_of_refused hid (handlerAt cfg layers) who hstale
    rw [dispatch_succ, run_enter_of_some hcall, hrefused] at hrun
    obtain ⟨rfl, rfl⟩ := Prod.mk.inj hrun
    obtain ⟨pre, n, post, rfl, hpre, hoffender, rfl⟩ :=
      Inbound.exists_offender_of_checkStale hstale
    refine ⟨iff_of_false nofun ?_, nofun, ?_⟩
    · intro hall
      exact hoffender (hall n (by simp))
    · rintro _ ⟨⟩
      exact ⟨⟨pre, n, post, rfl, hpre, hoffender, rfl⟩, rfl⟩

end

namespace Small

/-- A ledger with one receipt, whose time is over at the very height: the packet times out at block
5, and the retention time is 50 blocks. -/
def aged : World :=
  first.after cfg (opening ++ [.call (.signed 10) (.value (.receive (packet 5))), .reach 55])

/-- The ledger one block earlier. -/
def ripening : World := { aged with ledger.height := 54 }

def pruning (listed : List Sequence) : Submission := .value (.prune channel listed)

/-- A receipt that is listed twice is counted once, one that is not there keeps it, and so does one
more block of the retention time. -/
theorem aged_pruned :
    ∃ after, (dispatch cfg 255 (.signed 1) (pruning [1, 1])).run aged = (.ok (), after) ∧
      Pruned channel [1, 1] aged after ∧
      after.chronicle.events = aged.chronicle.events ++ [.receiptsPruned channel 1] ∧
      (dispatch cfg 255 (.signed 1) (pruning [1, 2, 1])).run aged =
        (.error (.refused .receiptNotFound), aged) ∧
      (dispatch cfg 255 (.signed 1) (pruning [1])).run ripening =
        (.error (.refused .receiptStillLive), ripening) := by
  have hfits : channel.fits cfg.channelIdLimit = true := rfl
  have hform (listed : List Sequence) :
      pruning listed ∈ Submission.forms cfg (.prune channel listed) :=
    List.mem_pair.mpr (.inl rfl)
  have hdone : (dispatch cfg 255 (.signed 1) (pruning [1, 1])).run aged =
      (.ok (), aged.after cfg [.call (.signed 1) (pruning [1, 1])]) := rfl
  obtain ⟨-, hpruned, -⟩ := prune_exact hfits (by decide) (hform [1, 1]) hdone
  refine ⟨_, hdone, hpruned rfl, rfl, ?_, ?_⟩
  · rcases hrefused : (dispatch cfg 255 (.signed 1) (pruning [1, 2, 1])).run aged with
      ⟨outcome, after⟩
    have houtcome : outcome = .error (.refused .receiptNotFound) :=
      (congrArg Prod.fst hrefused).symm
    obtain ⟨-, -, hfailed⟩ := prune_exact hfits (by decide) (hform [1, 2, 1]) hrefused
    obtain ⟨-, rfl⟩ := hfailed _ houtcome
    rw [houtcome]
  · rcases hrefused : (dispatch cfg 255 (.signed 1) (pruning [1])).run ripening with
      ⟨outcome, after⟩
    have houtcome : outcome = .error (.refused .receiptStillLive) :=
      (congrArg Prod.fst hrefused).symm
    obtain ⟨-, -, hfailed⟩ := prune_exact hfits (by decide) (hform [1]) hrefused
    obtain ⟨-, rfl⟩ := hfailed _ houtcome
    rw [houtcome]

/-- Before the first block pruning reports nothing. -/
theorem pruned_unheard :
    ∃ after, first.take cfg (.call (.signed 1) (pruning [])) = (.ok (), after) ∧
      first.chronicle.events = [] ∧ after.chronicle.events = [] :=
  ⟨_, rfl, rfl, rfl⟩

end Small

end RelayLedger
