import RelayLedger.Dispatch
import RelayLedger.Proofs.Success

/-!
What each call does when it takes effect: under which conditions it is carried out, which
ledger it leaves, and which event it tells. Receiving is apart, since an application works
between its checks and its receipt. Everything that is proved of whole runs rests on these
effects, so a change to one call is a change to one of them.
-/
namespace RelayLedger

namespace Ledger

variable (l : Ledger) (id chain : Bytes)

theorem modifyLane_modifyLane (f g : Lane → Lane) :
    (l.modifyLane id f).modifyLane id g = l.modifyLane id fun lane => g (f lane) := by
  simp [modifyLane, Table.modify]

/-- The ledger with a new channel, which takes the next number. -/
def opened (counterparty : Bytes) : Ledger :=
  { (l.modifyPeer chain fun p =>
      { p with channels := (l.peer chain).channels ++ [Channel.idOf l.counter] }).modifyLane
      (Channel.idOf l.counter)
      (Lifecycle.opening (.created (Channel.idOf l.counter) chain counterparty l.height)) with
    counter := Sequence.next l.counter }

@[simp] theorem lane_opened (counterparty other : Bytes) :
    (l.opened chain counterparty).lane other =
      if other = Channel.idOf l.counter then
        Lifecycle.opening (.created (Channel.idOf l.counter) chain counterparty l.height)
          (l.lane (Channel.idOf l.counter))
      else l.lane other :=
  lane_modifyLane ..

@[simp] theorem peer_opened (counterparty other : Bytes) :
    (l.opened chain counterparty).peer other =
      if other = chain then
        { l.peer chain with channels := (l.peer chain).channels ++ [Channel.idOf l.counter] }
      else l.peer other :=
  peer_modifyPeer ..

def withRelayers (relayers : List Account) : Ledger := { l with relayers }

/-- The ledger with one more payload that an application took in. -/
def deliver (d : Delivery) : Ledger := { l with deliveries := l.deliveries ++ [d] }

@[simp] theorem deliveries_deliver (d : Delivery) :
    (l.deliver d).deliveries = l.deliveries ++ [d] := rfl

end Ledger

namespace Packet

/-- The packet that a channel with these counts puts on its way at a height. -/
def draft (cfg : Config) (now : Height) (counts : Sequences) (id chain counterparty : Bytes)
    (agent : Option Bytes) (payload : Payload) : Packet where
  sequence := counts.send
  source := id
  chain := chain
  target := counterparty
  agent := agent
  payload := payload
  timeout := now.after cfg.timeoutBlocks

/-- What the sending ledger keeps of a packet. -/
def commitment (cfg : Config) (p : Packet) : Commitment := ⟨p.commitmentHash cfg, p.timeout⟩

end Packet

/-- What a call other than receiving does in a world: the ledger that it leaves, and the
event that it tells. -/
inductive Effect (cfg : Config) (w : World) : Origin → Call → Ledger → Event → Prop
  | openChannel {origin : Origin} {chain counterparty : Bytes}
      (hmanager : cfg.isManager origin = true)
      (hchain : chain.fits cfg.chainIdLimit = true)
      (hcounterparty : counterparty.fits cfg.channelIdLimit = true)
      (hid : (Channel.idOf w.ledger.counter).fits cfg.channelIdLimit = true)
      (hfree : (w.ledger.lane (Channel.idOf w.ledger.counter)).channel = none)
      (hnew : Channel.idOf w.ledger.counter ∉ (w.ledger.peer chain).channels)
      (hroom : (w.ledger.peer chain).channels.length < cfg.channelLimit.toNat) :
      Effect cfg w origin (.openChannel chain counterparty) (w.ledger.opened chain counterparty)
        (.channelOpened (Channel.idOf w.ledger.counter) chain counterparty)
  | confirmOpen {who : Account} {id : Bytes} {channel : Channel} {state : ChannelState}
      (htrusted : w.ledger.isTrusted who = true)
      (hid : id.fits cfg.channelIdLimit = true)
      (hchannel : (w.ledger.lane id).channel = some channel)
      (hstate : channel.state.step .confirmOpen = some state) :
      Effect cfg w (.signed who) (.confirmOpen id)
        (w.ledger.modifyLane id fun l =>
          { l with channel := some (channel.enter state w.ledger.height) })
        (.openConfirmed id who)
  | startClose {origin : Origin} {id : Bytes} {channel : Channel} {state : ChannelState}
      (hmanager : cfg.isManager origin = true)
      (hid : id.fits cfg.channelIdLimit = true)
      (hchannel : (w.ledger.lane id).channel = some channel)
      (hstate : channel.state.step .startClose = some state) :
      Effect cfg w origin (.startClose id)
        (w.ledger.modifyLane id fun l =>
          { l with channel := some (channel.enter state w.ledger.height) })
        (.closeStarted id)
  | confirmClose {who : Account} {id : Bytes} {channel : Channel} {state : ChannelState}
      (htrusted : w.ledger.isTrusted who = true)
      (hid : id.fits cfg.channelIdLimit = true)
      (hchannel : (w.ledger.lane id).channel = some channel)
      (hstate : channel.state.step .confirmClose = some state) :
      Effect cfg w (.signed who) (.confirmClose id)
        (w.ledger.modifyLane id fun l =>
          { l with channel := some (channel.enter state w.ledger.height) })
        (.channelClosed id who)
  | send {who : Account} {id chain counterparty : Bytes} {agent : Option Bytes}
      {payload : Payload} {channel : Channel} {counts : Sequences} {pending : UInt32}
      (hid : id.fits cfg.channelIdLimit = true)
      (hchain : chain.fits cfg.chainIdLimit = true)
      (hcounterparty : counterparty.fits cfg.channelIdLimit = true)
      (hagent : ∀ a ∈ agent, a.fits cfg.agentIdLimit = true)
      (hchannel : (w.ledger.lane id).channel = some channel)
      (hopen : channel.state = .opened)
      (hroute : channel.chain = chain ∧ channel.counterparty = counterparty)
      (hpayload : payload.isAck = false)
      (hsize : payload.size cfg ≤ cfg.payloadLimit.toNat)
      (hpending : Capacity.increment? cfg.pendingLimit (w.ledger.lane id).pending = some pending)
      (hcounts : (w.ledger.lane id).sequences = some counts) :
      Effect cfg w (.signed who) (.send id chain counterparty agent payload)
        (w.ledger.modifyLane id fun l =>
          { l with pending }.commit counts
            ((Packet.draft cfg w.ledger.height counts id chain counterparty agent
              payload).commitment cfg))
        (.packetSent who
          (Packet.draft cfg w.ledger.height counts id chain counterparty agent payload)
          ((Packet.draft cfg w.ledger.height counts id chain counterparty agent
            payload).commitmentHash cfg))
  | acknowledge {who : Account} {id : Bytes} {s : Sequence} {ack : Acknowledgement}
      {c : Commitment}
      (htrusted : w.ledger.isTrusted who = true)
      (hid : id.fits cfg.channelIdLimit = true)
      (hcommitment : (w.ledger.lane id).commitments.get s = some c) :
      Effect cfg w (.signed who) (.acknowledge id s ack)
        (w.ledger.modifyLane id fun l =>
          Lane.retain cfg.pendingLimit (l.release s).countAck s ⟨ack, w.ledger.height⟩)
        (.packetAcknowledged id s ack.success ack.code)
  | timeOut {who : Account} {id : Bytes} {s : Sequence} {c : Commitment}
      (hid : id.fits cfg.channelIdLimit = true)
      (hcommitment : (w.ledger.lane id).commitments.get s = some c)
      (hdue : c.timeout ≤ w.ledger.height) :
      Effect cfg w (.signed who) (.timeOut id s)
        (w.ledger.modifyLane id fun l => l.release s) (.packetTimedOut id s)
  | addRelayer {origin : Origin} {relayer : Account}
      (hmanager : cfg.isManager origin = true)
      (hnew : relayer ∉ w.ledger.relayers)
      (hroom : w.ledger.relayers.length < cfg.relayerLimit.toNat) :
      Effect cfg w origin (.addRelayer relayer)
        (w.ledger.withRelayers (w.ledger.relayers ++ [relayer])) (.relayerAdded relayer)
  | removeRelayer {origin : Origin} {relayer : Account}
      (hmanager : cfg.isManager origin = true)
      (hmember : relayer ∈ w.ledger.relayers) :
      Effect cfg w origin (.removeRelayer relayer)
        (w.ledger.withRelayers (w.ledger.relayers.erase relayer)) (.relayerRemoved relayer)
  | mapAgent {origin : Origin} {chain remote : Bytes} {agent : AgentId} {mapped : UInt32}
      (hadmin : cfg.isMappingAdmin origin = true)
      (hchain : chain.fits cfg.chainIdLimit = true)
      (hremote : remote.fits cfg.agentIdLimit = true)
      (hknown : w.host.registry.knows agent = true)
      (hfree : w.ledger.agentOf chain remote = none)
      (hmapped : Capacity.increment? cfg.mappingLimit (w.ledger.peer chain).mapped = some mapped) :
      Effect cfg w origin (.mapAgent chain remote agent)
        (w.ledger.modifyPeer chain fun p =>
          { p with mapped, agents := p.agents.set remote (some agent) })
        (.agentMapped chain remote agent)
  | unmapAgent {origin : Origin} {chain remote : Bytes} {agent : AgentId}
      (hadmin : cfg.isMappingAdmin origin = true)
      (hchain : chain.fits cfg.chainIdLimit = true)
      (hremote : remote.fits cfg.agentIdLimit = true)
      (hagent : w.ledger.agentOf chain remote = some agent) :
      Effect cfg w origin (.unmapAgent chain remote)
        (w.ledger.modifyPeer chain fun p =>
          { p with mapped := Capacity.decrement p.mapped, agents := p.agents.set remote none })
        (.agentUnmapped chain remote agent)
  | prune {who : Account} {id : Bytes} {sequences : List Sequence}
      (hid : id.fits cfg.channelIdLimit = true)
      (hstale : Inbound.checkStale cfg (w.ledger.lane id).receipts w.ledger.height sequences =
        .ok ()) :
      Effect cfg w (.signed who) (.prune id sequences)
        (w.ledger.modifyLane id fun l =>
          { l with receipts := (Inbound.dropReceipts (w.ledger.lane id).receipts sequences).1 })
        (.receiptsPruned id
          (UInt32.ofNat (Inbound.dropReceipts (w.ledger.lane id).receipts sequences).2))

namespace Effect

variable {cfg : Config} {w : World} {origin : Origin} {call : Call} {l : Ledger} {e : Event}

theorem height_eq (h : Effect cfg w origin call l e) : l.height = w.ledger.height := by
  cases h <;> rfl

theorem deliveries_eq (h : Effect cfg w origin call l e) :
    l.deliveries = w.ledger.deliveries := by
  cases h <;> rfl

end Effect

theorem Chronicle.events_tell (c : Chronicle) (height : Height) (e : Event) :
    (c.tell height e).events = if height = 0 then c.events else c.events ++ [e] := by
  unfold tell
  split <;> rfl

/-- The world in which a call has taken effect. -/
def World.book (w : World) (origin : Origin) (call : Call) (l : Ledger) (e : Event) : World :=
  { w with
    ledger := l
    chronicle := (w.chronicle.tell l.height e).enroll ⟨l.height, origin, call⟩ }

theorem World.deeds_book (w : World) (origin : Origin) (call : Call) (l : Ledger) (e : Event) :
    (w.book origin call l e).chronicle.deeds = w.chronicle.deeds ++ [⟨l.height, origin, call⟩] := by
  unfold book Chronicle.enroll Chronicle.tell
  split <;> rfl

end RelayLedger
