import RelayLedger.Cost
import RelayLedger.Dispatch
import RelayLedger.Query

/-!
Measured runs, one for each kind of call. A run prepares the ledger for its call, with
channels that are their own counterparty and with the largest payload that may be sent, makes
the call, and checks what came of it. A call that takes a right is made by the origin that the
runtime names for it, and if there is none the run ends before anything is done. What the
preparation does is not taken back if the run stops half-way. The sums that a run forms by
itself start again from zero where they would not fit, unlike those of the ledger.
-/
namespace RelayLedger

/-- How a measured run can end early. -/
inductive Halt
  /-- It stopped with a message. -/
  | stopped (message : String)
  /-- A call or a part of one was refused. -/
  | faulted (fault : Fault)
  /-- It could not go on at all. -/
  | crashed (message : String)
  /-- There was nothing to measure, since nobody can make the call. -/
  | weightless

/-- What a run that ended early says. -/
def Halt.message : Halt → String
  | .stopped message => message
  | .crashed message => message
  | .weightless => "benchmark weightless"
  | .faulted (.refused why) => why.name
  | .faulted .badOrigin => "Bad origin"
  | .faulted .undecodable => "Undecodable"
  | .faulted .tooDeep => "Limit reached"

/-- A step of a measured run. -/
abbrev Trial := ExceptT Halt (StateM World)

namespace Trial

variable {α : Type}

def stop (message : String) : Trial α := throw (.stopped message)

def crash (message : String) : Trial α := throw (.crashed message)

/-- A step on the world whose failure ends the run. -/
def ofRelay (act : Relay α) : Trial α :=
  ExceptT.mk fun w =>
    match act.run w with
    | (.ok a, after) => (.ok a, after)
    | (.error fault, after) => (.error (.faulted fault), after)

def expect (x : Option α) (message : String) : Trial α :=
  match x with
  | some a => pure a
  | none => stop message

/-- Something that has to hold at the end of a run. -/
def confirm (holds : Bool) (what : String) : Trial Unit :=
  if holds then pure () else crash ("assertion failed: " ++ what)

/-- Two values that have to be the same at the end of a run. -/
def agree [DecidableEq α] (found wanted : α) (shown : α → String) : Trial Unit :=
  if found = wanted then pure ()
  else crash ("assertion `left == right` failed\n  left: " ++ shown found ++
    "\n right: " ++ shown wanted)

def ledger : Trial Ledger := return (← get).ledger

def setHeight (h : Height) : Trial Unit := modify fun w => { w with ledger.height := h }

end Trial

namespace Benchmark

/-- The account that belongs to a name and two numbers. -/
def account (name : String) (index seed : UInt32) : Account :=
  let key := Layout.anyBytes.write (Bytes.ofAscii name) ++ Layout.word32.write index ++
    Layout.word32.write seed
  Blake2b.wordOf ((Blake2b.digest key).bytes.take 8)

def chain : Bytes := Bytes.ofAscii "bench-chain"

/-- The local agent that the registry is expected to know. -/
def agent : AgentId := 1

def caller : Account := account "whitelisted_caller" 0 0

/-- An identifier of a given length. -/
def filler (length : UInt32) : Bytes := List.replicate length.toNat 97

/-- The longest data, of at most `n` bytes, with which a raw payload keeps to the limit. -/
def longestRaw (limit : Nat) : Nat → Nat
  | 0 => 0
  | n + 1 =>
    if 1 + Layout.lengthSize (n + 1) + (n + 1) ≤ limit then n + 1 else longestRaw limit n

/-- The largest raw payload that may be sent. -/
def largestRaw (cfg : Config) : Payload :=
  let limit := cfg.payloadLimit.toNat
  .raw (List.replicate (longestRaw limit limit) 165)

/-- The relayer of all runs, made trusted if it is not. -/
def relayer (cfg : Config) : Trial Account := do
  let who := account "relayer" 0 0
  if !(← Trial.ledger).isTrusted who then
    Trial.ofRelay (Relayers.add cfg who)
  return who

/-- Opens a channel that is its own counterparty. -/
def openLoop (cfg : Config) (confirmed : Bool) : Trial Bytes := do
  let own := Channel.idOf (← Trial.ledger).counter
  if !own.fits cfg.channelIdLimit then
    Trial.stop "channel id too long"
  if !Bytes.fits cfg.chainIdLimit chain then
    Trial.stop "chain id too long"
  let id ← Trial.ofRelay (Lifecycle.openChannel cfg chain own)
  if confirmed then
    let who ← relayer cfg
    Trial.ofRelay (Lifecycle.confirmOpen who id)
  return id

def channel (id : Bytes) : Trial Channel := do
  Trial.expect ((← Trial.ledger).lane id).channel "channel missing"

/-- Sends one packet on a channel. -/
def sendOne (cfg : Config) (id : Bytes) : Trial Sequence := do
  let c ← channel id
  Trial.ofRelay (Outbound.send cfg caller id c.chain c.counterparty none (largestRaw cfg))

/-- Sends packets on a channel and has each of them acknowledged. -/
def settleSome (cfg : Config) (id : Bytes) : Nat → Trial Unit
  | 0 => pure ()
  | n + 1 => do
    let s ← sendOne cfg id
    Trial.ofRelay (Outbound.acknowledge cfg id s .ok)
    settleSome cfg id n

/-- A call that is to be measured, and what is to hold after it. -/
structure Measured where
  origin : Origin
  call : Call
  check : Trial Unit

/-- A channel has to have come to a state. -/
def reached (id : Bytes) (state : ChannelState) : Trial Unit := do
  Trial.agree (← channel id).state state ChannelState.name

/-- A remote agent has to stand for a local one, or for none. -/
def resolved (cfg : Config) (remote : Bytes) (wanted : Option AgentId) : Trial Unit := do
  Trial.agree (Query.agent cfg (← Trial.ledger) chain remote) wanted fun
    | some agent => "Some(" ++ toString agent.toNat ++ ")"
    | none => "None"

/-- The receipts that a pruning run starts from: those of the first `n` packets. -/
def plantReceipts (id : Bytes) (now : Height) (n : Nat) : Trial Unit :=
  modify fun w =>
    { w with
      ledger := w.ledger.modifyLane id fun l =>
        { l with
          receipts := (List.range n).foldl
            (fun receipts i => receipts.set (UInt64.ofNat (i + 1)) (some ⟨now, now, .ok⟩))
            l.receipts } }

/-- The origin that is named as one that has a right. -/
def privileged (right : Privilege) : Trial Origin :=
  match right.successful with
  | some origin => pure origin
  | none => throw .weightless

/-- Prepares the ledger for a call of a kind. -/
def prepare (cfg : Config) (n : Option UInt32) : CallKind → Trial Measured
  | .openChannel => do
    let origin ← privileged cfg.managers
    let before := (← Trial.ledger).counter
    return ⟨origin, .openChannel chain (filler cfg.channelIdLimit), do
      Trial.agree (← Trial.ledger).counter (before + 1) fun n => toString n.toNat⟩
  | .confirmOpen => do
    let who ← relayer cfg
    let id ← openLoop cfg false
    return ⟨.signed who, .confirmOpen id, reached id .opened⟩
  | .startClose => do
    let origin ← privileged cfg.managers
    let id ← openLoop cfg true
    return ⟨origin, .startClose id, reached id .closing⟩
  | .confirmClose => do
    let who ← relayer cfg
    let id ← openLoop cfg true
    Trial.ofRelay (Lifecycle.startClose id)
    return ⟨.signed who, .confirmClose id, reached id .closed⟩
  | .send => do
    let id ← openLoop cfg true
    let c ← channel id
    return ⟨.signed caller,
      .send id c.chain c.counterparty (some (filler cfg.agentIdLimit)) (largestRaw cfg), do
      Trial.confirm (((← Trial.ledger).lane id).commitments.get 1).isSome
        "PacketCommitments::<T>::contains_key(&channel_id, 1)"⟩
  | .receive => do
    let who ← relayer cfg
    let id ← openLoop cfg true
    let c ← channel id
    let packet : Packet :=
      { sequence := 1, source := c.counterparty, chain := c.chain, target := id, agent := none
        payload := largestRaw cfg, timeout := (← Trial.ledger).height + cfg.timeoutBlocks }
    return ⟨.signed who, .receive packet, do
      Trial.confirm (((← Trial.ledger).lane id).receipts.get 1).isSome
        "PacketReceipts::<T>::contains_key(&channel_id, 1)"⟩
  | .acknowledge => do
    let who ← relayer cfg
    let id ← openLoop cfg true
    settleSome cfg id cfg.pendingLimit.toNat
    let s ← sendOne cfg id
    return ⟨.signed who, .acknowledge id s .ok, do
      let lane := (← Trial.ledger).lane id
      Trial.confirm (lane.commitments.get s).isNone
        "!PacketCommitments::<T>::contains_key(&channel_id, sequence)"
      Trial.confirm (lane.acks.get 1).isNone
        "!PacketAcknowledgements::<T>::contains_key(&channel_id, 1)"⟩
  | .timeOut => do
    let id ← openLoop cfg true
    let s ← sendOne cfg id
    let commitment ←
      Trial.expect (((← Trial.ledger).lane id).commitments.get s) "commitment missing"
    Trial.setHeight commitment.timeout
    return ⟨.signed caller, .timeOut id s, do
      Trial.confirm (((← Trial.ledger).lane id).commitments.get s).isNone
        "!PacketCommitments::<T>::contains_key(&channel_id, sequence)"⟩
  | .prune => do
    let some n := n
      | Trial.stop "Could not find component during benchmark preparation."
    let id ← openLoop cfg true
    let now := (← Trial.ledger).height
    plantReceipts id now n.toNat
    Trial.setHeight (now + cfg.retentionBlocks)
    if cfg.pruneLimit < n then
      Trial.stop "batch too large"
    let sequences := (List.range n.toNat).map fun i => UInt64.ofNat (i + 1)
    return ⟨.signed caller, .prune id sequences, do
      Trial.confirm (((← Trial.ledger).lane id).receipts.get 1).isNone
        "!PacketReceipts::<T>::contains_key(&channel_id, 1)"⟩
  | .addRelayer => do
    let origin ← privileged cfg.managers
    let who := account "relayer" 1 0
    return ⟨origin, .addRelayer who, do
      Trial.confirm ((← Trial.ledger).isTrusted who) "Pallet::<T>::is_trusted_relayer(&relayer)"⟩
  | .removeRelayer => do
    let origin ← privileged cfg.managers
    let who ← relayer cfg
    return ⟨origin, .removeRelayer who, do
      Trial.confirm (!(← Trial.ledger).isTrusted who)
        "!Pallet::<T>::is_trusted_relayer(&relayer)"⟩
  | .mapAgent => do
    let origin ← privileged cfg.mappingAdmins
    let remote := filler cfg.agentIdLimit
    return ⟨origin, .mapAgent chain remote agent, resolved cfg remote (some agent)⟩
  | .unmapAgent => do
    let origin ← privileged cfg.mappingAdmins
    let remote := filler cfg.agentIdLimit
    if !Bytes.fits cfg.chainIdLimit chain then
      Trial.stop "chain id too long"
    Trial.ofRelay (Agents.map cfg chain remote agent)
    return ⟨origin, .unmapAgent chain remote, resolved cfg remote none⟩

/-- Prepares a call, makes it at the first block or later, and checks it if asked to. -/
def run (cfg : Config) (name : String) (n : Option UInt32) (verify : Bool) : Trial Unit := do
  let some kind := CallKind.ofName? name | Trial.stop "Could not find extrinsic."
  let measured ← prepare cfg n kind
  if (← Trial.ledger).height = 0 then
    Trial.setHeight 1
  Trial.ofRelay (submit cfg measured.origin (.value measured.call))
  if verify then
    measured.check

/-- The parameters of a measured run, each with its least and its greatest value. -/
def parameters (cfg : Config) : CallKind → List (String × UInt32 × UInt32)
  | .prune => [("n", 1, cfg.pruneLimit)]
  | _ => []

end Benchmark

end RelayLedger
