import MallChain.Lib.KVStore
import MallChain.Sdk.Bank

namespace Crosschain

open Sdk

inductive Status
  | pending
  | completed
  | timedOut
  deriving DecidableEq, Repr

structure BridgeTransfer where
  id               : UInt64
  sender           : String
  recipient        : String
  amount           : Option Coin
  sourceChain      : String
  destinationChain : String
  assetDenom       : String
  status           : Status
  timestamp        : UInt64
  deriving DecidableEq, Repr

structure BridgeState where
  nextTransferId     : UInt64 := 0
  pendingTransfers   : List BridgeTransfer := []
  completedTransfers : List BridgeTransfer := []
  chainBalances      : KVStore String UInt64 := .empty

-- The fields after the first two are only set for a transfer that was sent as an IBC packet.
structure TransferMeta where
  initHeight       : UInt64
  timeoutBlocks    : UInt64
  ibcSequence      : UInt64 := 0
  timeoutTimestamp : UInt64 := 0
  portID           : String := ""
  channelID        : String := ""
  deriving DecidableEq, Repr

structure ChainRoute where
  chainID   : String
  channelID : String
  portID    : String
  deriving DecidableEq, Repr

def defaultPortID : String := "transfer"

structure Params where
  adminAddress          : String := ""
  supportedChains       : List String := []
  minTransferAmount     : UInt64 := 0
  maxTransferAmount     : UInt64 := 0
  transferTimeoutBlocks : UInt64 := 0
  deriving DecidableEq, Repr

-- Zero stands for the default of 1000 blocks.
def Params.timeoutBlocks (p : Params) : UInt64 :=
  if p.transferTimeoutBlocks = 0 then 1000 else p.transferTimeoutBlocks

structure MsgInitiateBridgeTransfer where
  sender           : String
  recipient        : String
  amount           : Coin
  destinationChain : String

structure MsgCompleteBridgeTransfer where
  validator  : String
  transferId : UInt64
  proof      : String

-- The errors of the module.
def errTransferNotFound : Failure := .error "bridge transfer not found"
def errUnauthorized : Failure := .error "unauthorized"
def errInvalidChain : Failure := .error "invalid destination chain"
def errTransferTimeout : Failure := .error "transfer timeout"
def errInvalidAmount : Failure := .error "invalid transfer amount"
def errTransferAlreadyCompleted : Failure := .error "transfer already completed"
def errInvalidProof : Failure := .error "invalid transfer proof"
def errInsufficientModuleBalance : Failure :=
  .error "insufficient module balance to complete transfer"

-- The data of an ICS-20 packet.
structure FungibleTokenPacketData where
  denom    : String
  amount   : ℤ
  sender   : String
  receiver : String
  memo     : String
  deriving DecidableEq, Repr

-- A packet as the hooks see it. The data is `none` when its bytes do not decode.
structure Packet where
  sourcePort       : String
  sourceChannel    : String
  sequence         : UInt64
  timeoutTimestamp : UInt64
  data             : Option FungibleTokenPacketData
  deriving DecidableEq, Repr

inductive Acknowledgement
  | result
  | error
  deriving DecidableEq, Repr

-- The parts of a caller's proof: which light client, which height and the proof itself.
structure BridgeTransferProof where
  clientID       : String
  revisionNumber : UInt64
  revisionHeight : UInt64
  height         : UInt64
  proofBytes     : List UInt8

-- What the IBC client keeper answers. A packet stands for the path and the value that
-- `verifyTransferProof` computes from it.
structure LightClients where
  route            : String → Bool
  active           : String → Bool
  verifyMembership : (clientID : String) → (revisionNumber revisionHeight : UInt64) → List UInt8 →
    Packet → Bool

-- The block in which a call runs and what the keepers of other modules answer in it. The time is in
-- nanoseconds.
structure Context where
  blockHeight   : UInt64
  blockTime     : ℕ
  isBonded      : AccAddress → Bool
  lightClients  : LightClients
  channelAccept : (portID channelID : String) → Coin → Bool

-- A packet that was sent and not yet acknowledged or timed out, the account that paid for it, and
-- what the other chain answered to it.
structure Flight where
  packet   : Packet
  sender   : AccAddress
  coin     : Coin
  received : Option Acknowledgement
  deriving DecidableEq, Repr

-- The IBC transfer module: the next sequence of each channel and the packets in flight.
structure Ibc where
  nextSequence : String → String → UInt64
  flights      : List Flight

-- The collections of the module, with the bank and the IBC transfer module that it calls.
structure State where
  bank            : Bank
  params          : Params := {}
  bridgeState     : Option BridgeState := none
  bridgeTransfers : KVStore UInt64 BridgeTransfer := .empty
  chainRoutes     : KVStore String ChainRoute := .empty
  transferMeta    : KVStore UInt64 TransferMeta := .empty
  ibc             : Ibc

-- The module account and the decoders of strings that come from elsewhere.
structure Keeper where
  moduleAddr           : AccAddress
  moduleAddrString     : String
  accAddressFromBech32 : String → Option AccAddress
  parseProof           : String → Option BridgeTransferProof

end Crosschain
