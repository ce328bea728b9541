import RelayLedger.Capacity
import RelayLedger.Relay

/-!
Opening and closing of channels. A new channel gets the next number of the ledger, and its
counts start at one. A channel is never removed.
-/
namespace RelayLedger.Lifecycle

/-- The lane of a channel that has just been created. -/
def opening (channel : Channel) (l : Lane) : Lane :=
  { l with channel := some channel, sequences := some .start }

/-- Why a chain takes no further channel. -/
def refusal : Capacity.Rejection → Refusal
  | .duplicate => .channelAlreadyExists
  | .full => .tooManyChannels

/-- Creates the channel with the next number, towards a channel of another chain. -/
def openChannel (cfg : Config) (chain counterparty : Bytes) : Relay Bytes := do
  let l ← Relay.ledger
  let id := Channel.idOf l.counter
  Relay.require (id.fits cfg.channelIdLimit) .channelIdTooLong
  Relay.require (l.lane id).channel.isNone .channelAlreadyExists
  let channels ← Relay.settle
    ((Capacity.insertNew cfg.channelLimit (l.peer chain).channels id).mapError refusal)
  Relay.update fun l => l.modifyPeer chain fun p => { p with channels }
  Relay.updateLane id (opening (.created id chain counterparty l.height))
  Relay.update fun l => { l with counter := Sequence.next l.counter }
  Relay.log (.channelCreated id chain counterparty)
  Relay.emit (.channelOpened id chain counterparty)
  return id

/-- Moves a channel on by one step, if the step is legal. -/
def advance (id : Bytes) (step : Handshake) : Relay Unit := do
  let lane ← Relay.lane id
  let channel ← Relay.demand lane.channel .channelNotFound
  let state ← Relay.expect (channel.state.step step) (.stepRejected id step channel.state)
    .invalidChannelState
  let now ← Relay.now
  Relay.updateLane id fun l => { l with channel := some (channel.enter state now) }

def confirmOpen (relayer : Account) (id : Bytes) : Relay Unit := do
  advance id .confirmOpen
  Relay.log (.channelOpen id)
  Relay.emit (.openConfirmed id relayer)

def startClose (id : Bytes) : Relay Unit := do
  advance id .startClose
  Relay.log (.channelClosing id)
  Relay.emit (.closeStarted id)

/-- Closes a channel; what is kept of its packets stays. -/
def confirmClose (relayer : Account) (id : Bytes) : Relay Unit := do
  advance id .confirmClose
  let lane ← Relay.lane id
  Relay.log (.channelClosed id lane.pending)
  Relay.emit (.channelClosed id relayer)

end RelayLedger.Lifecycle
