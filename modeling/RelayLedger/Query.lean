import RelayLedger.Ledger

/-!
Questions to a ledger. Identifiers over their limit belong to nothing, so the answer to a
question about one is the empty answer.
-/
namespace RelayLedger.Query

variable (cfg : Config) (l : Ledger)

/-- The lane under an identifier, if the identifier keeps to its limit. -/
def lane (id : Bytes) : Lane :=
  if id.fits cfg.channelIdLimit then l.lane id else .empty

def peer (chain : Bytes) : Peer :=
  if chain.fits cfg.chainIdLimit then l.peer chain else .empty

def channel (id : Bytes) : Option Channel := (lane cfg l id).channel

def channelsFor (chain : Bytes) : List Bytes := (peer cfg l chain).channels

def sequences (id : Bytes) : Option Sequences := (lane cfg l id).sequences

def pending (id : Bytes) : UInt32 := (lane cfg l id).pending

def commitment (id : Bytes) (s : Sequence) : Option Commitment :=
  (lane cfg l id).commitments.get s

def receipt (id : Bytes) (s : Sequence) : Option Receipt := (lane cfg l id).receipts.get s

def acknowledgement (id : Bytes) (s : Sequence) : Option AckRecord := (lane cfg l id).acks.get s

/-- The local agent that a remote agent stands for. -/
def agent (chain remote : Bytes) : Option AgentId :=
  if remote.fits cfg.agentIdLimit then (peer cfg l chain).agents.get remote else none

end RelayLedger.Query
