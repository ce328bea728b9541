import RelayLedger.Table

/-!
Channels. A channel is opened towards one channel of one counterparty chain and goes through
the states init, opened, closing and closed in this order; a close may be started before the
opening was confirmed. Packets flow only while it is opened.
-/
namespace RelayLedger

inductive ChannelState
  | init
  | opened
  | closing
  | closed
  deriving DecidableEq

/-- The steps that move a channel on. -/
inductive Handshake
  | confirmOpen
  | startClose
  | confirmClose
  deriving DecidableEq

/-- The state that a step leads to from wherever it may be taken. -/
def Handshake.target : Handshake → ChannelState
  | .confirmOpen => .opened
  | .startClose => .closing
  | .confirmClose => .closed

namespace ChannelState

/-- The state that a step leads to, where the step is legal. -/
def step : ChannelState → Handshake → Option ChannelState
  | .init, .confirmOpen => some .opened
  | .init, .startClose => some .closing
  | .opened, .startClose => some .closing
  | .closing, .confirmClose => some .closed
  | _, _ => none

theorem target_of_step {s t : ChannelState} {taken : Handshake} (h : s.step taken = some t) :
    t = taken.target := by
  cases s <;> cases taken <;> cases h <;> rfl

def isOpen (s : ChannelState) : Bool := s = .opened

end ChannelState

structure Channel where
  id : Bytes
  chain : Bytes
  counterparty : Bytes
  state : ChannelState
  createdAt : Height
  openedAt : Option Height
  closedAt : Option Height
  deriving DecidableEq

namespace Channel

/-- The identifier of the channel with a given number. -/
def idOf (number : UInt64) : Bytes :=
  Bytes.ofAscii "channel-" ++ Bytes.decimal number.toNat

/-- A channel as it is created. -/
def created (id chain counterparty : Bytes) (now : Height) : Channel :=
  ⟨id, chain, counterparty, .init, now, none, none⟩

/-- The channel in its next state, stamped where that state is opened or closed. -/
def enter (c : Channel) (state : ChannelState) (now : Height) : Channel :=
  match state with
  | .opened => { c with state, openedAt := some now }
  | .closed => { c with state, closedAt := some now }
  | _ => { c with state }

section

variable (c : Channel) (state : ChannelState) (now : Height)

@[simp] theorem state_enter : (c.enter state now).state = state := by
  cases state <;> rfl

@[simp] theorem id_enter : (c.enter state now).id = c.id := by
  cases state <;> rfl

@[simp] theorem chain_enter : (c.enter state now).chain = c.chain := by
  cases state <;> rfl

@[simp] theorem counterparty_enter : (c.enter state now).counterparty = c.counterparty := by
  cases state <;> rfl

@[simp] theorem createdAt_enter : (c.enter state now).createdAt = c.createdAt := by
  cases state <;> rfl

end

end Channel

/-- The numbers that a channel gives out or expects next. -/
structure Sequences where
  send : Sequence
  recv : Sequence
  ack : Sequence
  deriving DecidableEq

namespace Sequences

/-- Every count of a channel starts at one. -/
def start : Sequences := ⟨1, 1, 1⟩

/-- The counts after the number `send` was given to a packet. -/
def afterSend (s : Sequences) : Sequences := { s with send := Sequence.next s.send }

/-- The counts after packet `n` came in: the expected number never falls. -/
def afterRecv (s : Sequences) (n : Sequence) : Sequences :=
  let following := Sequence.next n
  { s with recv := if s.recv < following then following else s.recv }

/-- The counts after one more packet was acknowledged. -/
def afterAck (s : Sequences) : Sequences := { s with ack := Sequence.next s.ack }

end Sequences

end RelayLedger
