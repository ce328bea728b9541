import RelayLedger.Proofs.Isolation
import RelayLedger.Proofs.Naming

/-!
The identifiers that new channels are given in a run. The lists follow the execution and leave
out what was taken back. An identifier that is given out belongs to no channel before and to a
channel for good after it, so none is given out twice, not even where the counter stands still.
-/
namespace RelayLedger

open Reception

/-! What is found along an execution, in the order in which it took effect. -/

section

variable {α : Type}

/-- What the calls of a script bring about, if the script is followed to its end. -/
def Script.gather (submit : Origin → Submission → Relay Unit)
    (found : Origin → Submission → World → List α) : Script → World → List α
  | .finish _, _ => []
  | .submit origin s next, w =>
    found origin s w ++ (next ((submit origin s).run w).1).gather submit found
      (((submit origin s).run w).2.see (.nested ((submit origin s).run w).1))

/-- What the application for a delivery brings about, if it is let have it. -/
def Application.gather (submit : Origin → Submission → Relay Unit)
    (found : Origin → Submission → World → List α) (d : Delivery) (w : World) : List α :=
  match w.host.applications with
  | none => []
  | some applications => (scriptFor applications d).gather submit found (begin applications d w)

/-- What is left of that while a packet is answered: nothing, unless the payload is accepted. -/
def Packet.gather (handle : Handler) (nested : Delivery → World → List α) (p : Packet)
    (channel : Channel) (w : World) : List α :=
  match Inbound.assign w.ledger w.host.registry channel p with
  | .error _ => []
  | .ok (content, _) =>
    if (handle (delivery p content) w).1 = .accepted then nested (delivery p content) w else []

end

/-- The identifier that a program for a new channel comes out with. -/
def Lifecycle.handout (cfg : Config) (chain counterparty : Bytes) (w : World) : List Bytes :=
  ((Lifecycle.openChannel cfg chain counterparty).run w).1.toOption.toList

/-- The identifiers that a submission gives out; `nested` tells those of a delivery. -/
def enterHandouts (cfg : Config) (handle : Handler) (nested : Delivery → World → List Bytes)
    (origin : Origin) (s : Submission) (w : World) : List Bytes :=
  match s.call? cfg, ((enter cfg handle origin s).run w).1 with
  | some (.openChannel chain counterparty), .ok () =>
    Lifecycle.handout cfg chain counterparty w
  | some (.receive p), .ok () =>
    match (w.ledger.lane p.target).channel with
    | none => []
    | some channel => p.gather handle nested channel w
  | _, _ => []

section

variable {cfg : Config} {handle : Handler} {nested : Delivery → World → List Bytes}
  {origin : Origin} {s : Submission} {w after : World}

theorem enterHandouts_of_error {fault : Fault}
    (h : (enter cfg handle origin s).run w = (.error fault, after)) :
    enterHandouts cfg handle nested origin s w = [] := by
  unfold enterHandouts
  rw [h]
  split
  · next hok => cases hok
  · next hok => cases hok
  · rfl

theorem enterHandouts_of_opening {chain counterparty : Bytes}
    (hcall : s.call? cfg = some (.openChannel chain counterparty))
    (h : (enter cfg handle origin s).run w = (.ok (), after)) :
    enterHandouts cfg handle nested origin s w = Lifecycle.handout cfg chain counterparty w := by
  simp only [enterHandouts, hcall, h]

theorem enterHandouts_of_receive {p : Packet} {channel : Channel}
    (hcall : s.call? cfg = some (.receive p))
    (h : (enter cfg handle origin s).run w = (.ok (), after))
    (hchannel : (w.ledger.lane p.target).channel = some channel) :
    enterHandouts cfg handle nested origin s w = p.gather handle nested channel w := by
  simp only [enterHandouts, hcall, h, hchannel]

theorem enterHandouts_of_other {call : Call} (hcall : s.call? cfg = some call)
    (hreceive : ∀ p, call ≠ .receive p)
    (hopens : ∀ chain counterparty, call ≠ .openChannel chain counterparty) :
    enterHandouts cfg handle nested origin s w = [] := by
  unfold enterHandouts
  rw [hcall]
  split
  · next chain counterparty heq _ => exact absurd (Option.some.inj heq) (hopens chain counterparty)
  · next p heq _ => exact absurd (Option.some.inj heq) (hreceive p)
  · rfl

end

/-- The identifiers that a submission with so many layers left gives out. -/
def dispatchHandouts (cfg : Config) : Nat → Origin → Submission → World → List Bytes
  | 0, _, _, _ => []
  | 1, origin, s, w => enterHandouts cfg (fun _ => pure .tooDeep) (fun _ _ => []) origin s w
  | layers + 2, origin, s, w =>
    enterHandouts cfg (Application.handler (dispatch cfg layers))
      (Application.gather (dispatch cfg layers) (dispatchHandouts cfg layers)) origin s w

/-- The identifiers that the calls of a run give to new channels, with everything nested in the
calls and without what was taken back. -/
def World.handouts (cfg : Config) (w : World) : List Step → List Bytes
  | [] => []
  | step :: rest =>
    (match step with
      | .call origin s => dispatchHandouts cfg layerLimit origin s w
      | _ => []) ++ (w.take cfg step).2.handouts cfg rest

/-- From `w` to `after` these identifiers were given out, each to the channel that an opening
has created. -/
structure HandsOut (w : World) (ids : List Bytes) (after : World) : Prop where
  free : ∀ id ∈ ids, (w.ledger.lane id).founded = none
  lasting : ∀ id c, (w.ledger.lane id).founded = some c →
    (after.ledger.lane id).founded = some c
  distinct : ids.Nodup
  opened : ∃ openings, after.chronicle.openings = w.chronicle.openings ++ openings ∧
    List.Forall₂ (fun id (o : Opening) => (after.ledger.lane id).founded =
      some (.created id o.chain o.counterparty o.height)) ids openings

namespace HandsOut

variable {cfg : Config} {w mid after : World} {xs ys : List Bytes}

theorem of_unchanged (hledger : ∀ id, (after.ledger.lane id).founded = (w.ledger.lane id).founded)
    (hchronicle : after.chronicle.openings = w.chronicle.openings) : HandsOut w [] after where
  free := nofun
  lasting id c h := (hledger id).trans h
  distinct := .nil
  opened := ⟨[], by rw [hchronicle, List.append_nil], .nil⟩

/-- An identifier that was given out is the one of a channel. -/
theorem founded_of_mem (h : HandsOut w xs after) {id : Bytes} (hid : id ∈ xs) :
    (after.ledger.lane id).founded ≠ none := by
  obtain ⟨openings, -, hcreated⟩ := h.opened
  have hall : (∀ id ∈ xs, (after.ledger.lane id).founded ≠ none) ∧ _ :=
    (List.forall₂_and_left xs openings).mp
      (hcreated.imp fun id o hfounded => ⟨hfounded ▸ Option.some_ne_none _, hfounded⟩)
  exact hall.1 id hid

theorem append (hx : HandsOut w xs mid) (hy : HandsOut mid ys after) :
    HandsOut w (xs ++ ys) after where
  free id hid := by
    rcases List.mem_append.mp hid with hid | hid
    · exact hx.free id hid
    · cases hfounded : (w.ledger.lane id).founded with
      | none => rfl
      | some c => exact absurd (hy.free id hid) (by rw [hx.lasting id c hfounded]; nofun)
  lasting id c h := hy.lasting id c (hx.lasting id c h)
  distinct := by
    refine hx.distinct.append hy.distinct fun id hidx hidy => ?_
    exact hx.founded_of_mem hidx (hy.free id hidy)
  opened := by
    obtain ⟨os, hos, hxs⟩ := hx.opened
    obtain ⟨os', hos', hys⟩ := hy.opened
    refine ⟨os ++ os', by rw [hos', hos, List.append_assoc], ?_⟩
    exact List.rel_append (hxs.imp fun id o h => hy.lasting id _ h) hys

theorem of_opening {origin : Origin} {chain counterparty : Bytes} {l : Ledger} {e : Event}
    (h : Effect cfg w origin (.openChannel chain counterparty) l e) :
    HandsOut w (Lifecycle.handout cfg chain counterparty w)
      (w.book origin (.openChannel chain counterparty) l e) := by
  have hlasting : ∀ id c, (w.ledger.lane id).founded = some c → (l.lane id).founded = some c :=
    fun id c hc => (kept_founded cfg id c).call trivial hc h
  have hopenings := World.openings_book w origin (.openChannel chain counterparty) l e
  cases h with
  | openChannel _ _ _ hid hfree hnew hroom =>
    rw [Lifecycle.handout, Fulfilment.run_openChannel hid hfree hnew hroom]
    constructor
    case free =>
      intro id hmem
      rw [List.mem_singleton.mp hmem]
      exact Lane.founded_eq_none_iff.mpr hfree
    case lasting => exact hlasting
    case distinct => exact List.nodup_singleton _
    case opened =>
      refine ⟨_, hopenings, .cons ?_ .nil⟩
      rw [World.book, Ledger.lane_opened, if_pos rfl]
      rfl

theorem of_other {origin : Origin} {call : Call} {l : Ledger} {e : Event}
    (h : Effect cfg w origin call l e)
    (hcall : ∀ chain counterparty, call ≠ .openChannel chain counterparty) :
    HandsOut w [] (w.book origin call l e) where
  free := nofun
  lasting id c hc := (kept_founded cfg id c).call trivial hc h
  distinct := .nil
  opened := ⟨[], by rw [World.openings_book_of_other _ _ hcall, List.append_nil], .nil⟩

end HandsOut

/-! The lists of identifiers are right, from a script to the call that its delivery came with. -/

section

variable {submit : Origin → Submission → Relay Unit}
  {found : Origin → Submission → World → List Bytes}
  (hsubmit : ∀ origin s w, HandsOut w (found origin s w) ((submit origin s).run w).2)
include hsubmit

theorem follow_handsOut (script : Script) (w : World) :
    HandsOut w (script.gather submit found w) (Application.follow submit script w).2 := by
  induction script generalizing w with
  | finish accepts => exact .of_unchanged (fun _ => rfl) rfl
  | submit origin s next ih =>
    rw [Application.follow_submit, Script.gather]
    have hsee : HandsOut ((submit origin s).run w).2 []
        (((submit origin s).run w).2.see (.nested ((submit origin s).run w).1)) :=
      .of_unchanged (fun _ => rfl) rfl
    have hfirst := (hsubmit origin s w).append hsee
    rw [List.append_nil] at hfirst
    exact hfirst.append (ih _ _)

theorem handler_handsOut (d : Delivery) (w : World) :
    HandsOut w (Application.gather submit found d w) (Application.handler submit d w).2 := by
  cases h : w.host.applications with
  | none =>
    rw [Application.handler_of_none submit h, Application.gather, h]
    exact .of_unchanged (fun _ => rfl) rfl
  | some applications =>
    rw [Application.handler_of_some submit h, Application.gather, h]
    have hbegin : HandsOut w [] (Application.begin applications d w) :=
      .of_unchanged (fun _ => rfl) rfl
    exact hbegin.append (follow_handsOut hsubmit _ _)

end

section

variable {cfg : Config} {handle : Handler} {nested : Delivery → World → List Bytes}
  (hhandle : ∀ d w, HandsOut w (nested d w) (handle d w).2)
include hhandle

theorem Reception.Answered.handsOut {w mid : World} {channel : Channel} {p : Packet}
    {agent : Option AgentId} {ack : Acknowledgement}
    (h : Answered handle w channel p agent ack mid) :
    HandsOut w (p.gather handle nested channel w) mid := by
  cases h with
  | unassigned hassign =>
    simp only [Packet.gather, hassign]
    exact .of_unchanged (fun _ => rfl) rfl
  | @accepted content _ _ hassign haccepted =>
    have hnested := hhandle (delivery p content) w
    rw [haccepted] at hnested
    simp only [Packet.gather, hassign, haccepted, if_pos]
    exact hnested
  | rejected hassign hrun hverdict =>
    simp only [Packet.gather, hassign, hrun, if_neg hverdict]
    exact .of_unchanged (fun _ => rfl) rfl

theorem enter_handsOut (origin : Origin) (s : Submission) (w : World) :
    HandsOut w (enterHandouts cfg handle nested origin s w)
      ((enter cfg handle origin s).run w).2 := by
  rcases h : (enter cfg handle origin s).run w with ⟨fault | _, after⟩
  · obtain ⟨host, rfl⟩ := enter_error h
    rw [enterHandouts_of_error h]
    exact .of_unchanged (fun _ => rfl) rfl
  · obtain ⟨call, mid, hcall, hperform, rfl⟩ := enter_ok_iff.mp h
    by_cases hreceive : ∃ p, call = .receive p
    · obtain ⟨p, rfl⟩ := hreceive
      obtain ⟨who, channel, agent, ack, late, rfl, hadmitted, hanswered, rfl⟩ :=
        receive_ok hperform
      rw [enterHandouts_of_receive hcall h hadmitted.channel_eq]
      have hclosed : ∀ chain counterparty, Call.receive p ≠ .openChannel chain counterparty :=
        nofun
      have hreceipt : HandsOut late [] (late.book (.signed who) (.receive p)
          (receipted late.ledger w.ledger.height p ack) (news who p agent ack)) := by
        refine .of_unchanged (fun id => ?_) (World.openings_book_of_other _ _ hclosed ..)
        rw [Lane.founded, Lane.founded, World.book, channel_receipted]
      have htogether := (hanswered.handsOut hhandle).append hreceipt
      rwa [List.append_nil] at htogether
    · have hother : ∀ p, call ≠ .receive p := fun p hp => hreceive ⟨p, hp⟩
      obtain ⟨l, e, lines, heffect, rfl⟩ := Inversion.caused_of_ok hother hperform
      have hlog : HandsOut (w.book origin call l e) []
          { w.book origin call l e with host.log := lines } := .of_unchanged (fun _ => rfl) rfl
      by_cases hopens : ∃ chain counterparty, call = .openChannel chain counterparty
      · obtain ⟨chain, counterparty, rfl⟩ := hopens
        rw [enterHandouts_of_opening hcall h, ← List.append_nil (Lifecycle.handout ..)]
        exact (HandsOut.of_opening heffect).append hlog
      · have hclosed : ∀ chain counterparty, call ≠ .openChannel chain counterparty :=
          fun chain counterparty heq => hopens ⟨chain, counterparty, heq⟩
        rw [enterHandouts_of_other hcall hother hclosed]
        exact (HandsOut.of_other heffect hclosed).append hlog

end

theorem dispatch_handsOut (cfg : Config) : (layers : Nat) → (origin : Origin) →
    (s : Submission) → (w : World) →
    HandsOut w (dispatchHandouts cfg layers origin s w) ((dispatch cfg layers origin s).run w).2
  | 0, _, _, _ => .of_unchanged (fun _ => rfl) rfl
  | 1, origin, s, w => enter_handsOut (fun _ _ => .of_unchanged (fun _ => rfl) rfl) origin s w
  | layers + 2, origin, s, w =>
    enter_handsOut (fun d w => handler_handsOut (dispatch_handsOut cfg layers) d w) origin s w

theorem after_handsOut (cfg : Config) (steps : List Step) (w : World) :
    HandsOut w (w.handouts cfg steps) (w.after cfg steps) := by
  induction steps generalizing w with
  | nil => exact .of_unchanged (fun _ => rfl) rfl
  | cons step rest ih =>
    refine HandsOut.append ?_ (ih (w.take cfg step).2)
    cases step with
    | call origin s => exact dispatch_handsOut cfg layerLimit origin s w
    | reach | setRegistry | install => exact .of_unchanged (fun _ => rfl) rfl

/-- Under a sound configuration the identifier of every number keeps to the limit. It is new
until the numbers end, so that a manager's opening of a channel fails for its arguments, for the
number of channels towards the chain, or at the last number. And no identifier is given out twice
in a run: each one goes to the channel of an opening of its own. -/
theorem channel_ids_never_collide {cfg : Config} (hsound : cfg.unsound? = none) :
    (∀ number, (Channel.idOf number).fits cfg.channelIdLimit = true) ∧
      (∀ w, Reached cfg (fun _ _ => True) w → w.NextChannel cfg) ∧
      (∀ layers origin s w, Made cfg (fun _ _ => True) layers origin s w →
        w.NextChannel cfg) ∧
      ∀ w steps, HandsOut w (w.handouts cfg steps) (w.after cfg steps) := by
  refine ⟨Config.fits_idOf hsound, ?_, ?_, ?_⟩
  · intro w hreached
    exact hreached.charted.nextChannel hsound
  · intro layers origin s w hmade
    exact hmade.charted.nextChannel hsound
  · intro w steps
    exact after_handsOut cfg steps w

namespace Small

/-- A packet comes in whose application opens a channel in vain, and then a manager opens one. -/
def secondTry : List Step :=
  [.call (.signed 10) (.value (.receive (packet 70))),
    .call .root (.value (.openChannel [3] [4]))]

/-- What was taken back is not given out, and the identifier goes to the next channel. -/
theorem secondTry_handouts :
    cfg.unsound? = none ∧ meddling.NextChannel cfg ∧
      meddling.handouts cfg secondTry = [Channel.idOf 1] ∧
      HandsOut meddling (meddling.handouts cfg secondTry) (meddling.after cfg secondTry) := by
  have hsound : cfg.unsound? = none := rfl
  obtain ⟨-, hnext, -, hhandsOut⟩ := channel_ids_never_collide hsound
  exact ⟨hsound, hnext meddling (reached _), rfl, hhandsOut meddling secondTry⟩

end Small

end RelayLedger
