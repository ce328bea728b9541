import RelayLedger.Delivery

/-!
The ledger. What is kept of a channel stands together in one lane, and what is kept of a
counterparty chain in one peer; identifiers that were never used have the empty lane and the
empty peer.
-/
namespace RelayLedger

/-- Everything that is kept under one channel identifier. -/
structure Lane where
  channel : Option Channel
  sequences : Option Sequences
  /-- Packets sent and not yet resolved. -/
  pending : UInt32
  commitments : Table Sequence (Option Commitment)
  receipts : Table Sequence (Option Receipt)
  acks : Table Sequence (Option AckRecord)
  /-- The packets whose acknowledgements are kept, oldest first. -/
  retained : List Sequence
  deriving DecidableEq

/-- Everything that is kept under one chain identifier. -/
structure Peer where
  /-- The channels towards this chain, in order of creation. -/
  channels : List Bytes
  /-- The local agents that remote agents of this chain stand for. -/
  agents : Table Bytes (Option AgentId)
  /-- How many agents are mapped. -/
  mapped : UInt32
  deriving DecidableEq

def Lane.empty : Lane := ⟨none, none, 0, .empty, .empty, .empty, []⟩

def Peer.empty : Peer := ⟨[], .empty, 0⟩

instance : Blank Lane := ⟨Lane.empty⟩

instance : Blank Peer := ⟨Peer.empty⟩

structure Ledger where
  height : Height
  /-- The number that the next channel gets. -/
  counter : UInt64
  lanes : Table Bytes Lane
  peers : Table Bytes Peer
  /-- The trusted relayers in order of admission. -/
  relayers : List Account
  /-- The payloads that the applications took in, oldest first. -/
  deliveries : List Delivery
  deriving DecidableEq

namespace Ledger

/-- A ledger on which nothing has happened. -/
def initial : Ledger := ⟨0, 0, .empty, .empty, [], []⟩

def lane (l : Ledger) (id : Bytes) : Lane := l.lanes.get id

def peer (l : Ledger) (chain : Bytes) : Peer := l.peers.get chain

def modifyLane (l : Ledger) (id : Bytes) (f : Lane → Lane) : Ledger :=
  { l with lanes := l.lanes.modify id f }

def modifyPeer (l : Ledger) (chain : Bytes) (f : Peer → Peer) : Ledger :=
  { l with peers := l.peers.modify chain f }

@[simp] theorem lane_modifyLane (l : Ledger) (id other : Bytes) (f : Lane → Lane) :
    (l.modifyLane id f).lane other = if other = id then f (l.lane id) else l.lane other := by
  simp [modifyLane, lane]

theorem lane_modifyLane_self (l : Ledger) (id : Bytes) (f : Lane → Lane) :
    (l.modifyLane id f).lane id = f (l.lane id) := by
  rw [lane_modifyLane, if_pos rfl]

@[simp] theorem peer_modifyLane (l : Ledger) (id chain : Bytes) (f : Lane → Lane) :
    (l.modifyLane id f).peer chain = l.peer chain := rfl

@[simp] theorem peer_modifyPeer (l : Ledger) (chain other : Bytes) (f : Peer → Peer) :
    (l.modifyPeer chain f).peer other =
      if other = chain then f (l.peer chain) else l.peer other := by
  simp [modifyPeer, peer]

@[simp] theorem lane_modifyPeer (l : Ledger) (chain id : Bytes) (f : Peer → Peer) :
    (l.modifyPeer chain f).lane id = l.lane id := rfl

def isTrusted (l : Ledger) (who : Account) : Bool := who ∈ l.relayers

/-- The local agent that a remote agent stands for. -/
def agentOf (l : Ledger) (chain remote : Bytes) : Option AgentId :=
  (l.peer chain).agents.get remote

end Ledger

end RelayLedger
