import RelayLedger.Packet

/-!
Payloads on their way to the applications.
-/
namespace RelayLedger

/-- What applications are there for. -/
inductive Topic
  | raw
  | task
  | reputation
  | did
  deriving DecidableEq

/-- What an application gets to see of a payload; chains are named as the channel names them. -/
inductive Content
  | raw (chain channel : Bytes) (data : Bytes)
  | task (chain : Bytes) (taskId : UInt64) (requester : AgentId) (assignee : Option AgentId)
      (hash : Digest)
  | reputation (chain : Bytes) (subject : AgentId) (delta : Int32) (hash : Digest)
  | did (chain : Bytes) (agent : Option AgentId) (subject proof : Bytes)
  deriving DecidableEq

/-- A payload handed to an application, with the channel and number of its packet. -/
structure Delivery where
  channel : Bytes
  sequence : Sequence
  content : Content
  deriving DecidableEq

def Content.topic : Content → Topic
  | .raw .. => .raw
  | .task .. => .task
  | .reputation .. => .reputation
  | .did .. => .did

end RelayLedger
