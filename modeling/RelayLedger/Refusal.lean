/-!
The reasons for which a call is turned down, with the names and numbers they are known by.
-/
namespace RelayLedger

inductive Refusal
  | channelNotFound
  | channelAlreadyExists
  | channelNotOpen
  | invalidChannelState
  | channelMismatch
  | packetNotFound
  | packetAlreadyReceived
  | packetTimedOut
  | packetNotTimedOut
  | unexpectedAckPayload
  | receiptNotFound
  | receiptStillLive
  | notTrustedRelayer
  | tooManyRelayers
  | tooManyChannels
  | relayerAlreadyRegistered
  | relayerNotFound
  | payloadTooLong
  | pendingPacketLimitExceeded
  | chainIdTooLong
  | channelIdTooLong
  | remoteAgentIdTooLong
  | agentNotFound
  | crossChainAgentAlreadyMapped
  | crossChainAgentNotFound
  | tooManyAgentMappings
  deriving DecidableEq

namespace Refusal

/-- Every refusal once; its place in this list is its number. -/
def all : List (Refusal × String) :=
  [(channelNotFound, "ChannelNotFound"), (channelAlreadyExists, "ChannelAlreadyExists"),
    (channelNotOpen, "ChannelNotOpen"), (invalidChannelState, "InvalidChannelState"),
    (channelMismatch, "ChannelMismatch"), (packetNotFound, "PacketNotFound"),
    (packetAlreadyReceived, "PacketAlreadyReceived"), (packetTimedOut, "PacketTimedOut"),
    (packetNotTimedOut, "PacketNotTimedOut"), (unexpectedAckPayload, "UnexpectedAckPayload"),
    (receiptNotFound, "ReceiptNotFound"), (receiptStillLive, "ReceiptStillLive"),
    (notTrustedRelayer, "NotTrustedRelayer"), (tooManyRelayers, "TooManyRelayers"),
    (tooManyChannels, "TooManyChannels"),
    (relayerAlreadyRegistered, "RelayerAlreadyRegistered"),
    (relayerNotFound, "RelayerNotFound"), (payloadTooLong, "PayloadTooLong"),
    (pendingPacketLimitExceeded, "PendingPacketLimitExceeded"),
    (chainIdTooLong, "ChainIdTooLong"), (channelIdTooLong, "ChannelIdTooLong"),
    (remoteAgentIdTooLong, "RemoteAgentIdTooLong"), (agentNotFound, "AgentNotFound"),
    (crossChainAgentAlreadyMapped, "CrossChainAgentAlreadyMapped"),
    (crossChainAgentNotFound, "CrossChainAgentNotFound"),
    (tooManyAgentMappings, "TooManyAgentMappings")]

def index (r : Refusal) : Nat := all.findIdx fun x => x.1 = r

def name (r : Refusal) : String := ((all.find? fun x => x.1 = r).map (·.2)).getD ""

end Refusal

/-- How a call can fail. -/
inductive Fault
  /-- The bytes spell no call, or a value in it is over its limit. -/
  | undecodable
  /-- The origin may not make this call. -/
  | badOrigin
  /-- Too many calls are nested in each other. -/
  | tooDeep
  | refused (why : Refusal)
  deriving DecidableEq

end RelayLedger
