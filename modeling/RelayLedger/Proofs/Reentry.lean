import Mathlib.Data.List.Nodup
import RelayLedger.Proofs.Intakes

/-!
The replay guard while applications hand in calls of their own. The guard looks for a receipt
before the application works, and the receipt is written after it, so a packet that comes in
for a place whose own delivery is still under way finds no receipt there and is taken in too.
This is the only way in which the guard fails.
-/
namespace RelayLedger

open Reception

section

variable {cfg : Config} {w : World} {origin : Origin} {call : Call} {l : Ledger} {e : Event}

/-- No call takes away a receipt for a packet that could still be in time. -/
theorem Effect.live_kept {place : Place} (h : Effect cfg w origin call l e)
    (hlive : w.ledger.LiveAt place) : l.LiveAt place := by
  obtain ⟨r, hr, hearly⟩ := hlive
  rcases h.receipt_kept_or_pruned place.1 place.2 with hkept | hpruned
  · refine ⟨r, hkept.trans hr, ?_⟩
    rw [h.height_eq]
    exact hearly
  · obtain ⟨listed, r', -, -, hr', hstale, -⟩ := hpruned
    obtain rfl : r' = r := Option.some.inj (hr'.symm.trans hr)
    have hlate : r'.timeout ≤ w.ledger.height :=
      UInt32.le_trans (Height.le_after _ _) (of_decide_eq_true hstale)
    exact absurd hearly (UInt32.not_lt.mpr hlate)

theorem Effect.unreceived_kept {place : Place} (h : Effect cfg w origin call l e)
    (hnone : w.ledger.receiptAt place = none) : l.receiptAt place = none := by
  rcases h.receipt_kept_or_pruned place.1 place.2 with hkept | hpruned
  · exact hkept.trans hnone
  · obtain ⟨listed, r, -, -, -, -, hgone⟩ := hpruned
    exact hgone

theorem Effect.received_tell (h : Effect cfg w origin call l e) :
    (w.book origin call l e).chronicle.received = w.chronicle.received := by
  simp only [World.book, Chronicle.received, Chronicle.enroll, Chronicle.events_tell]
  split
  · rfl
  · cases h <;> simp

end

/-! What a receipt changes. -/

section

variable (l : Ledger) (now : Height) (p : Packet) (ack : Acknowledgement)

theorem receiptAt_receipted (place : Place) :
    (receipted l now p ack).receiptAt place =
      if place = p.place then some ⟨now, p.timeout, ack⟩ else l.receiptAt place := by
  simp only [Ledger.receiptAt, receipt_receipted, Packet.place, Prod.ext_iff]

variable {l now p ack} in
theorem liveAt_receipted (hearly : l.height < p.timeout) (place : Place) :
    (receipted l now p ack).LiveAt place ↔ place = p.place ∨ l.LiveAt place := by
  have hheight : (receipted l now p ack).height = l.height := rfl
  unfold Ledger.LiveAt
  rw [receiptAt_receipted, hheight]
  by_cases hp : place = p.place
  · simp [hp, hearly]
  · simp [hp]

theorem height_receipted : (receipted l now p ack).height = l.height := rfl

theorem received_receive (w : World) (origin : Origin) (who : Account) (agent : Option AgentId) :
    (w.book origin (.receive p) (receipted w.ledger now p ack)
      (news who p agent ack)).chronicle.received =
      if w.ledger.height = 0 then w.chronicle.received
      else w.chronicle.received ++ [p.place] := by
  simp only [World.book, Chronicle.received, Chronicle.enroll, Chronicle.events_tell,
    height_receipted]
  split
  · rfl
  · simp [news, Packet.place]

end

/-- In `start` an application begins with the delivery for a place that was made in `w`. -/
structure Begun (w : World) (place : Place) (start : World) : Prop where
  lane_eq : ∀ id, start.ledger.lane id = w.ledger.lane id
  height_eq : start.ledger.height = w.ledger.height
  chronicle_eq : start.chronicle = w.chronicle
  accepted_le : ∀ other, start.ledger.accepted.count other ≤
    w.ledger.accepted.count other + [place].count other

theorem Begun.refl (w : World) (place : Place) : Begun w place w where
  lane_eq _ := rfl
  height_eq := rfl
  chronicle_eq := rfl
  accepted_le _ := Nat.le_add_right ..

theorem Begun.receiptAt_eq {w start : World} {place : Place} (h : Begun w place start)
    (other : Place) : start.ledger.receiptAt other = w.ledger.receiptAt other := by
  simp only [Ledger.receiptAt, Ledger.receipt, h.lane_eq]

theorem Begun.liveAt_iff {w start : World} {place : Place} (h : Begun w place start)
    (other : Place) : start.ledger.LiveAt other ↔ w.ledger.LiveAt other := by
  simp only [Ledger.LiveAt, h.receiptAt_eq, h.height_eq]

theorem begun_begin (applications : Topic → Application) (d : Delivery) (w : World) :
    Begun w (d.channel, d.sequence) (Application.begin applications d w) where
  lane_eq _ := rfl
  height_eq := rfl
  chronicle_eq := rfl
  accepted_le other := by simp [Application.begin, Ledger.accepted, List.count_append]

/-! What is taken in is told of, and no other delivery is accepted. -/

/-- From `w` to `after` the chronicle tells that these packets were taken in, and applications
accepted no deliveries but theirs. -/
structure Recorded (w : World) (taken : List Intake) (after : World) : Prop where
  height_eq : after.ledger.height = w.ledger.height
  untold : w.ledger.height = 0 → after.chronicle.received = w.chronicle.received
  told : w.ledger.height ≠ 0 →
    after.chronicle.received = w.chronicle.received ++ taken.map Intake.place
  accepted_le : ∀ place, after.ledger.accepted.count place ≤
    w.ledger.accepted.count place + (taken.map Intake.place).count place

namespace Recorded

variable {cfg : Config} {w mid after : World} {xs ys : List Intake}

theorem of_unchanged (hledger : after.ledger = w.ledger)
    (hchronicle : after.chronicle = w.chronicle) : Recorded w [] after where
  height_eq := by rw [hledger]
  untold _ := by rw [hchronicle]
  told _ := by simp [hchronicle]
  accepted_le place := by simp [hledger]

theorem append (hx : Recorded w xs mid) (hy : Recorded mid ys after) :
    Recorded w (xs ++ ys) after where
  height_eq := hy.height_eq.trans hx.height_eq
  untold h := by rw [hy.untold (hx.height_eq.trans h), hx.untold h]
  told h := by
    have hmid : mid.ledger.height ≠ 0 := by rwa [hx.height_eq]
    rw [hy.told hmid, hx.told h, List.map_append, List.append_assoc]
  accepted_le place := by
    have hxs := hx.accepted_le place
    have hys := hy.accepted_le place
    rw [List.map_append, List.count_append]
    omega

theorem of_effect {origin : Origin} {call : Call} {l : Ledger} {e : Event}
    (h : Effect cfg w origin call l e) : Recorded w [] (w.book origin call l e) where
  height_eq := h.height_eq
  untold _ := h.received_tell
  told _ := by simpa using h.received_tell
  accepted_le place := by
    have hsame : (w.book origin call l e).ledger.accepted = w.ledger.accepted :=
      congrArg (List.map _) h.deliveries_eq
    simp [hsame]

/-- A received packet is told of after what its application, which begins in `start`, took in;
the delivery that the application began with is its own. -/
theorem receive {start late : World} {who : Account} {p : Packet} {agent : Option AgentId}
    {ack : Acknowledgement} {x : Intake} (hx : x.place = p.place)
    (hbegun : Begun w p.place start) (hnested : Recorded start xs late) :
    Recorded w (xs ++ [x])
      (late.book (.signed who) (.receive p) (receipted late.ledger w.ledger.height p ack)
        (news who p agent ack)) where
  height_eq := hnested.height_eq.trans hbegun.height_eq
  untold h := by
    have hstart := hbegun.height_eq.trans h
    rw [received_receive, if_pos (hnested.height_eq.trans hstart), hnested.untold hstart,
      hbegun.chronicle_eq]
  told h := by
    have hstart : start.ledger.height ≠ 0 := by rwa [hbegun.height_eq]
    have hlate : late.ledger.height ≠ 0 := by rwa [hnested.height_eq]
    rw [received_receive, if_neg hlate, hnested.told hstart, hbegun.chronicle_eq, List.map_append,
      List.map_singleton, hx, List.append_assoc]
  accepted_le place := by
    have hle := hnested.accepted_le place
    have hbegin := hbegun.accepted_le place
    rw [List.map_append, List.map_singleton, hx, List.count_append]
    change late.ledger.accepted.count place ≤ _
    omega

end Recorded

/-! What is taken in leaves receipts that stay, and finds what was left before. -/

/-- From `w` to `after`, while the deliveries for the `busy` places are under way, the packets
taken in leave receipts that stay, and each is written over what was left at its place. -/
structure Guarded (busy : List Place) (w : World) (taken : List Intake) (after : World) :
    Prop where
  still_live : ∀ place, w.ledger.LiveAt place → after.ledger.LiveAt place
  taken_live : ∀ x ∈ taken, after.ledger.LiveAt x.place
  taken_new : ∀ x ∈ taken, ¬w.ledger.LiveAt x.place
  untouched : ∀ place, w.ledger.receiptAt place = none → place ∉ taken.map Intake.place →
    after.ledger.receiptAt place = none
  busy_within : ∀ x ∈ taken, ∀ place ∈ busy, place ∈ x.within
  once : (∀ x ∈ taken, x.place ∉ x.within) →
    (taken.map Intake.place).Nodup ∧ ∀ x ∈ taken, x.found = none
  overwrites : (∃ x ∈ taken, x.place ∈ x.within ∧ x.place ∉ busy) →
    ∃ x ∈ taken, x.found ≠ none

namespace Guarded

variable {cfg : Config} {busy : List Place} {w mid after : World} {xs ys : List Intake}

theorem of_unchanged (hledger : after.ledger = w.ledger) : Guarded busy w [] after where
  still_live place h := by rwa [hledger]
  taken_live := by simp
  taken_new := by simp
  untouched place h _ := by rwa [hledger]
  busy_within := by simp
  once := by simp
  overwrites := by simp

/-- The places of packets taken in first are live when the others come in. -/
theorem disjoint (hx : Guarded busy w xs mid) (hy : Guarded busy mid ys after) :
    (xs.map Intake.place).Disjoint (ys.map Intake.place) := by
  intro place hxs hys
  obtain ⟨x, hxmem, rfl⟩ := List.mem_map.mp hxs
  obtain ⟨y, hymem, hplace⟩ := List.mem_map.mp hys
  apply hy.taken_new y hymem
  rw [hplace]
  exact hx.taken_live x hxmem

theorem append (hx : Guarded busy w xs mid) (hy : Guarded busy mid ys after) :
    Guarded busy w (xs ++ ys) after where
  still_live place h := hy.still_live place (hx.still_live place h)
  taken_live x h := by
    rcases List.mem_append.mp h with hmem | hmem
    · exact hy.still_live _ (hx.taken_live x hmem)
    · exact hy.taken_live x hmem
  taken_new x h := by
    rcases List.mem_append.mp h with hmem | hmem
    · exact hx.taken_new x hmem
    · intro hlive
      exact hy.taken_new x hmem (hx.still_live _ hlive)
  untouched place hnone hnot := by
    rw [List.map_append, List.mem_append, not_or] at hnot
    exact hy.untouched place (hx.untouched place hnone hnot.1) hnot.2
  busy_within x h := by
    rcases List.mem_append.mp h with hmem | hmem
    · exact hx.busy_within x hmem
    · exact hy.busy_within x hmem
  once h := by
    obtain ⟨hxs, hxfound⟩ := hx.once fun x hmem => h x (List.mem_append_left _ hmem)
    obtain ⟨hys, hyfound⟩ := hy.once fun x hmem => h x (List.mem_append_right _ hmem)
    constructor
    · rw [List.map_append]
      exact hxs.append hys (hx.disjoint hy)
    · intro x hmem
      rcases List.mem_append.mp hmem with hmem | hmem
      · exact hxfound x hmem
      · exact hyfound x hmem
  overwrites h := by
    obtain ⟨x, hmem, hwithin⟩ := h
    rcases List.mem_append.mp hmem with hmem | hmem
    · obtain ⟨y, hymem, hfound⟩ := hx.overwrites ⟨x, hmem, hwithin⟩
      exact ⟨y, List.mem_append_left _ hymem, hfound⟩
    · obtain ⟨y, hymem, hfound⟩ := hy.overwrites ⟨x, hmem, hwithin⟩
      exact ⟨y, List.mem_append_right _ hymem, hfound⟩

/-- A call that receives no packet takes nothing in, and prunes no receipt that is live. -/
theorem of_effect {origin : Origin} {call : Call} {l : Ledger} {e : Event}
    (h : Effect cfg w origin call l e) : Guarded busy w [] (w.book origin call l e) where
  still_live place hlive := h.live_kept hlive
  taken_live := by simp
  taken_new := by simp
  untouched place hnone _ := h.unreceived_kept hnone
  busy_within := by simp
  once := by simp
  overwrites := by simp

/-- Where nothing is taken in for a place whose delivery is under way, nothing is taken in for
the innermost one. -/
theorem not_mem_of_not_reentered {place : Place} (h : Guarded (place :: busy) w xs after)
    (hfree : ∀ x ∈ xs, x.place ∉ x.within) : place ∉ xs.map Intake.place := by
  intro hmem
  obtain ⟨x, hx, hplace⟩ := List.mem_map.mp hmem
  apply hfree x hx
  rw [hplace]
  exact h.busy_within x hx _ List.mem_cons_self

/-- A received packet finds at its place what its application, which begins in `start`, has left
there. -/
theorem receive {start late : World} {who : Account} {p : Packet} {channel : Channel}
    {ack : Acknowledgement} {e : Event} (hadmitted : Admitted w who p channel)
    (hbegun : Begun w p.place start) (hlate : late.ledger.height = w.ledger.height)
    (hnested : Guarded (p.place :: busy) start xs late) :
    Guarded busy w (xs ++ [Intake.mk p.place busy (late.ledger.receiptAt p.place)])
      (late.book (.signed who) (.receive p) (receipted late.ledger w.ledger.height p ack) e) := by
  have hearly : late.ledger.height < p.timeout := by
    rw [hlate]
    exact hadmitted.early
  have hnone : w.ledger.receiptAt p.place = none := hadmitted.unreceived
  have hleft : ∀ place, late.ledger.LiveAt place →
      (receipted late.ledger w.ledger.height p ack).LiveAt place :=
    fun place h => (liveAt_receipted hearly place).mpr (.inr h)
  constructor
  case still_live =>
    intro place hplace
    exact hleft place (hnested.still_live place ((hbegun.liveAt_iff place).mpr hplace))
  case taken_live =>
    rw [List.forall_mem_append, List.forall_mem_singleton]
    exact ⟨fun x hx => hleft _ (hnested.taken_live x hx),
      (liveAt_receipted hearly p.place).mpr (.inl rfl)⟩
  case taken_new =>
    rw [List.forall_mem_append, List.forall_mem_singleton]
    constructor
    · intro x hx
      rw [← hbegun.liveAt_iff]
      exact hnested.taken_new x hx
    · rintro ⟨r, hr, -⟩
      rw [hnone] at hr
      cases hr
  case untouched =>
    intro place hplace hnot
    rw [List.map_append, List.mem_append, not_or, List.map_singleton, List.mem_singleton] at hnot
    have hstill := hnested.untouched place ((hbegun.receiptAt_eq place).trans hplace) hnot.1
    exact (receiptAt_receipted ..).trans ((if_neg hnot.2).trans hstill)
  case busy_within =>
    rw [List.forall_mem_append, List.forall_mem_singleton]
    exact ⟨fun x hx place hplace => hnested.busy_within x hx place (List.mem_cons_of_mem _ hplace),
      fun place hplace => hplace⟩
  case once =>
    intro h
    rw [List.forall_mem_append, List.forall_mem_singleton] at h
    obtain ⟨hnodup, hfound⟩ := hnested.once h.1
    have hfree := hnested.not_mem_of_not_reentered h.1
    constructor
    · rw [List.map_append, List.map_singleton]
      exact hnodup.append (List.nodup_singleton _) (List.disjoint_singleton.mpr hfree)
    · rw [List.forall_mem_append, List.forall_mem_singleton]
      exact ⟨hfound, hnested.untouched _ ((hbegun.receiptAt_eq _).trans hnone) hfree⟩
  case overwrites =>
    rintro ⟨x, hx, hwithin, hbusy⟩
    rcases List.mem_append.mp hx with hx | hx
    · by_cases hp : x.place = p.place
      · -- the packet's own receipt is written over that of the nested one
        refine ⟨_, List.mem_append_right _ (List.mem_singleton.mpr rfl), ?_⟩
        obtain ⟨r, hr, -⟩ := hnested.taken_live x hx
        rw [hp] at hr
        intro hfound
        cases hr.symm.trans hfound
      · obtain ⟨y, hy, hfound⟩ := hnested.overwrites ⟨x, hx, hwithin, by simp [hp, hbusy]⟩
        exact ⟨y, List.mem_append_left _ hy, hfound⟩
    · obtain rfl := List.mem_singleton.mp hx
      exact absurd hwithin hbusy

end Guarded

/-- From `w` to `after` these packets, and no others, were taken in for good. -/
structure TakesIn (busy : List Place) (w : World) (taken : List Intake) (after : World) : Prop where
  recorded : Recorded w taken after
  guarded : Guarded busy w taken after

namespace TakesIn

variable {cfg : Config} {busy : List Place} {w mid after : World} {xs ys : List Intake}

theorem of_unchanged (hledger : after.ledger = w.ledger)
    (hchronicle : after.chronicle = w.chronicle) : TakesIn busy w [] after :=
  ⟨.of_unchanged hledger hchronicle, .of_unchanged hledger⟩

theorem append (hx : TakesIn busy w xs mid) (hy : TakesIn busy mid ys after) :
    TakesIn busy w (xs ++ ys) after :=
  ⟨hx.recorded.append hy.recorded, hx.guarded.append hy.guarded⟩

theorem receive {start late : World} {who : Account} {p : Packet} {channel : Channel}
    {agent : Option AgentId} {ack : Acknowledgement} (hadmitted : Admitted w who p channel)
    (hbegun : Begun w p.place start) (hnested : TakesIn (p.place :: busy) start xs late) :
    TakesIn busy w (xs ++ [Intake.mk p.place busy (late.ledger.receiptAt p.place)])
      (late.book (.signed who) (.receive p) (receipted late.ledger w.ledger.height p ack)
        (news who p agent ack)) :=
  ⟨hnested.recorded.receive rfl hbegun,
    hnested.guarded.receive hadmitted hbegun
      (hnested.recorded.height_eq.trans hbegun.height_eq)⟩

end TakesIn

/-! The lists of intakes are right, from a script to the call that its delivery came with. -/

section

variable {submit : Origin → Submission → Relay Unit}
  {taken : Origin → Submission → World → List Intake} {busy : List Place}
  (hsubmit : ∀ origin s w, TakesIn busy w (taken origin s w) ((submit origin s).run w).2)
include hsubmit

theorem follow_takesIn (script : Script) (w : World) :
    TakesIn busy w (script.intakes submit taken w) (Application.follow submit script w).2 := by
  induction script generalizing w with
  | finish accepts => exact .of_unchanged rfl rfl
  | submit origin s next ih =>
    rw [Application.follow_submit, Script.intakes]
    have hsee : TakesIn busy ((submit origin s).run w).2 []
        (((submit origin s).run w).2.see (.nested ((submit origin s).run w).1)) :=
      .of_unchanged rfl rfl
    have hfirst := (hsubmit origin s w).append hsee
    rw [List.append_nil] at hfirst
    exact hfirst.append (ih _ _)

theorem handler_takesIn (d : Delivery) (w : World) :
    ∃ start, Begun w (d.channel, d.sequence) start ∧
      TakesIn busy start (Application.intakes submit taken d w)
        (Application.handler submit d w).2 := by
  cases h : w.host.applications with
  | none =>
    rw [Application.handler_of_none submit h, Application.intakes, h]
    exact ⟨w, .refl w _, .of_unchanged rfl rfl⟩
  | some applications =>
    rw [Application.handler_of_some submit h, Application.intakes, h]
    exact ⟨_, begun_begin applications d w, follow_takesIn hsubmit _ _⟩

end

section

variable {cfg : Config} {handle : Handler} {nested : Place → Delivery → World → List Intake}
  {busy : List Place}
  (hhandle : ∀ d w, ∃ start, Begun w (d.channel, d.sequence) start ∧
    TakesIn ((d.channel, d.sequence) :: busy) start (nested (d.channel, d.sequence) d w)
      (handle d w).2)
include hhandle

theorem Reception.Answered.takesIn {w mid : World} {channel : Channel} {p : Packet}
    {agent : Option AgentId} {ack : Acknowledgement}
    (h : Answered handle w channel p agent ack mid) :
    ∃ start, Begun w p.place start ∧
      TakesIn (p.place :: busy) start (p.nestedIntakes handle (nested p.place) channel w) mid := by
  cases h with
  | unassigned hassign =>
    refine ⟨w, .refl w _, ?_⟩
    simp only [Packet.nestedIntakes, hassign]
    exact .of_unchanged rfl rfl
  | @accepted content _ _ hassign haccepted =>
    obtain ⟨start, hbegun, hnested⟩ := hhandle (delivery p content) w
    refine ⟨start, hbegun, ?_⟩
    rw [haccepted] at hnested
    simp only [Packet.nestedIntakes, hassign, haccepted, if_pos]
    exact hnested
  | rejected hassign hrun hverdict =>
    refine ⟨w, .refl w _, ?_⟩
    simp only [Packet.nestedIntakes, hassign, hrun, if_neg hverdict]
    exact .of_unchanged rfl rfl

theorem enter_takesIn (origin : Origin) (s : Submission) (w : World) :
    TakesIn busy w (enterIntakes cfg handle nested busy origin s w)
      ((enter cfg handle origin s).run w).2 := by
  rcases h : (enter cfg handle origin s).run w with ⟨fault | _, after⟩
  · obtain ⟨host, rfl⟩ := enter_error h
    rw [enterIntakes_of_error h]
    exact .of_unchanged rfl rfl
  · obtain ⟨call, mid, hcall, hperform, rfl⟩ := enter_ok_iff.mp h
    by_cases hreceive : ∃ p, call = .receive p
    · obtain ⟨p, rfl⟩ := hreceive
      obtain ⟨who, channel, agent, ack, late, rfl, hadmitted, hanswered, rfl⟩ :=
        receive_ok hperform
      obtain ⟨start, hbegun, hnested⟩ := hanswered.takesIn hhandle
      rw [enterIntakes_of_receive hcall h, Packet.intakes_of_channel hadmitted.channel_eq,
        hanswered.ledger_run]
      exact hnested.receive hadmitted hbegun
    · have hother : ∀ p, call ≠ .receive p := fun p hp => hreceive ⟨p, hp⟩
      obtain ⟨l, e, lines, heffect, rfl⟩ := Inversion.caused_of_ok hother hperform
      rw [enterIntakes_of_other hcall hother]
      have hbook : TakesIn busy w [] (w.book origin call l e) :=
        ⟨.of_effect heffect, .of_effect heffect⟩
      exact hbook.append (.of_unchanged rfl rfl)

end

theorem dispatch_takesIn (cfg : Config) : (layers : Nat) → (busy : List Place) →
    (origin : Origin) → (s : Submission) → (w : World) →
    TakesIn busy w (dispatchIntakes cfg layers busy origin s w)
      ((dispatch cfg layers origin s).run w).2
  | 0, _, _, _, _ => .of_unchanged rfl rfl
  | 1, _, origin, s, w =>
    enter_takesIn (fun _ w => ⟨w, .refl w _, .of_unchanged rfl rfl⟩) origin s w
  | layers + 2, _, origin, s, w =>
    enter_takesIn (fun d w => handler_takesIn (dispatch_takesIn cfg layers _) d w) origin s w

/-- With everything nested in a call from outside, at most one packet is received at a place,
at most one delivery for it is accepted, and no receipt is written over, exactly if no packet
is taken in for a place whose own delivery is under way. -/
theorem received_once_iff_not_reentered (cfg : Config) (w : World) (origin : Origin)
    (s : Submission) :
    (w.ledger.height ≠ 0 → (w.take cfg (.call origin s)).2.chronicle.received =
      w.chronicle.received ++ (w.intakes cfg origin s).map Intake.place) ∧
    (((∀ place,
        (w.take cfg (.call origin s)).2.chronicle.received.count place ≤
          w.chronicle.received.count place + 1 ∧
        (w.take cfg (.call origin s)).2.ledger.accepted.count place ≤
          w.ledger.accepted.count place + 1) ∧
      ∀ x ∈ w.intakes cfg origin s, x.found = none) ↔
    ∀ x ∈ w.intakes cfg origin s, x.place ∉ x.within) := by
  have htakes : TakesIn [] w (w.intakes cfg origin s) (w.take cfg (.call origin s)).2 :=
    dispatch_takesIn cfg layerLimit [] origin s w
  refine ⟨htakes.recorded.told, ?_, ?_⟩
  · rintro ⟨-, hfound⟩ x hx hwithin
    obtain ⟨y, hy, hover⟩ := htakes.guarded.overwrites ⟨x, hx, hwithin, List.not_mem_nil⟩
    exact hover (hfound y hy)
  · intro hfree
    obtain ⟨hnodup, hfound⟩ := htakes.guarded.once hfree
    refine ⟨fun place => ?_, hfound⟩
    have honce := List.nodup_iff_count_le_one.mp hnodup place
    have haccepted := htakes.recorded.accepted_le place
    refine ⟨?_, by omega⟩
    by_cases hheight : w.ledger.height = 0
    · rw [htakes.recorded.untold hheight]
      omega
    · rw [htakes.recorded.told hheight, List.count_append]
      omega

namespace Small

/-- The application for raw payloads hands in the packet that it is just being given. -/
def echoing : World :=
  first.after cfg (opening ++
    [.install .raw (.once [(.signed 10, .value (.receive (packet 70)))] true)])

/-- A packet that its own application hands in again is received twice and accepted twice, and
the receipt of the nested call is written over. -/
theorem echo_received_twice :
    Reached cfg (fun _ _ => True) echoing ∧
      (echoing.take cfg (.call (.signed 10) (.value (.receive (packet 70))))).2.chronicle.received =
        [(channel, 1), (channel, 1)] ∧
      (echoing.take cfg (.call (.signed 10) (.value (.receive (packet 70))))).2.ledger.accepted =
        [(channel, 1), (channel, 1)] ∧
      (echoing.intakes cfg (.signed 10) (.value (.receive (packet 70)))).map Intake.found =
        [none, some ⟨1, 70, .ok⟩] :=
  ⟨reached _, rfl, rfl, rfl⟩

end Small

end RelayLedger
