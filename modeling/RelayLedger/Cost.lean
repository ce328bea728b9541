import RelayLedger.Call

/-!
What calls cost, as reference time and proof size. Costs stay at the last word where they
would not fit. There is a flat price list, and one by what a call reads and writes.
-/
namespace RelayLedger

/-- The kinds of calls, in the order in which they are measured. -/
inductive CallKind
  | openChannel
  | confirmOpen
  | startClose
  | confirmClose
  | send
  | receive
  | acknowledge
  | timeOut
  | prune
  | addRelayer
  | removeRelayer
  | mapAgent
  | unmapAgent
  deriving DecidableEq

namespace CallKind

def all : List CallKind :=
  [.openChannel, .confirmOpen, .startClose, .confirmClose, .send, .receive, .acknowledge,
    .timeOut, .prune, .addRelayer, .removeRelayer, .mapAgent, .unmapAgent]

def name : CallKind → String
  | .openChannel => "open_channel"
  | .confirmOpen => "open_channel_confirm"
  | .startClose => "close_channel_init"
  | .confirmClose => "close_channel_confirm"
  | .send => "send_packet"
  | .receive => "receive_packet"
  | .acknowledge => "acknowledge_packet"
  | .timeOut => "timeout_packet"
  | .prune => "prune_receipts"
  | .addRelayer => "add_relayer"
  | .removeRelayer => "remove_relayer"
  | .mapAgent => "register_cross_chain_agent"
  | .unmapAgent => "remove_cross_chain_agent"

/-- The kind with a given name. -/
def ofName? (name : String) : Option CallKind := all.find? fun k => k.name = name

end CallKind

def Call.kind : Call → CallKind
  | .openChannel .. => .openChannel
  | .confirmOpen .. => .confirmOpen
  | .startClose .. => .startClose
  | .confirmClose .. => .confirmClose
  | .send .. => .send
  | .receive .. => .receive
  | .acknowledge .. => .acknowledge
  | .timeOut .. => .timeOut
  | .addRelayer .. => .addRelayer
  | .removeRelayer .. => .removeRelayer
  | .mapAgent .. => .mapAgent
  | .unmapAgent .. => .unmapAgent
  | .prune .. => .prune

/-- How many receipts a call names for pruning. -/
def Call.batch : Call → Nat
  | .prune _ sequences => sequences.length
  | _ => 0

structure Cost where
  refTime : Nat
  proofSize : Nat
  deriving DecidableEq

namespace Cost

/-- A reference time, or the last word if it does not fit. -/
def time (n : Nat) : Cost := ⟨Nat.min n 18446744073709551615, 0⟩

/-- The flat price; pruning is paid by the receipt, and at least for one. -/
def flat (n : Nat) : CallKind → Cost
  | .prune => time (10000 * Nat.max n 1)
  | _ => time 10000

/-- What the storage charges for one access. -/
structure Access where
  read : UInt64
  write : UInt64

/-- The price of a call by its own work and its accesses. -/
def charged (access : Access) (work reads writes : Nat) : Cost :=
  time (work + access.read.toNat * reads + access.write.toNat * writes)

/-- The price by accesses; pruning touches every named receipt. -/
def byAccess (access : Access) (n : Nat) : CallKind → Cost
  | .openChannel => charged access 25000000 3 4
  | .confirmOpen => charged access 15000000 2 1
  | .startClose => charged access 15000000 1 1
  | .confirmClose => charged access 15000000 2 1
  | .send => charged access 40000000 3 3
  | .receive => charged access 60000000 6 3
  | .acknowledge => charged access 30000000 5 6
  | .timeOut => charged access 20000000 2 2
  | .prune => charged access (10000000 + 5000000 * n) n n
  | .addRelayer => charged access 15000000 1 1
  | .removeRelayer => charged access 15000000 1 1
  | .mapAgent => charged access 20000000 3 2
  | .unmapAgent => charged access 15000000 1 2

/-- The price that is announced with a call. -/
def ofCall (call : Call) : Cost := flat call.batch call.kind

end Cost

end RelayLedger
