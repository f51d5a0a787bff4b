import MallChain.Crosschain.Memo
import MallChain.Crosschain.Types

namespace Crosschain

open Sdk

-- Errors of other modules that reach this one.
def errNotFound : Failure := .error "collections: not found"
def errInvalidAddress : Failure := .error "decoding bech32 failed"
def errUnmarshal : Failure := .error "cannot unmarshal"
def nilPointer : Failure := .panic "nil pointer dereference"

namespace Ibc

def send (ibc : Ibc) (f : Flight) : Ibc where
  nextSequence port channel :=
    if port = f.packet.sourcePort ∧ channel = f.packet.sourceChannel then
      ibc.nextSequence port channel + 1
    else
      ibc.nextSequence port channel
  flights := f :: ibc.flights

-- The IBC transfer module sends a packet: the coins of the sender leave the ledger.
def transfer (ctx : Context) (s : State) (sourcePort sourceChannel : String) (token : Coin)
    (payer : AccAddress) (sender receiver : String) (timeoutTimestamp : UInt64) (memo : String) :
    Result (State × UInt64) := do
  failIf (ctx.channelAccept sourcePort sourceChannel token = false) (.error "ibc transfer rejected")
  let bank ← Bank.subUnlockedCoins payer [token] s.bank
  let sequence := s.ibc.nextSequence sourcePort sourceChannel
  let data := { denom := token.denom, amount := token.amount, sender, receiver, memo }
  let packet := { sourcePort, sourceChannel, sequence, timeoutTimestamp, data := some data }
  let flight := { packet, sender := payer, coin := token, received := none }
  return ({ s with bank, ibc := s.ibc.send flight }, sequence)

-- The IBC transfer module takes a packet out of flight and gives its sender the coins back.
def refund (s : State) (f : Flight) : Result State := do
  let bank ← Bank.addCoins f.sender [f.coin] s.bank
  return { s with bank, ibc := { s.ibc with flights := s.ibc.flights.erase f } }

-- It keeps the coins of a packet that the other chain accepted.
def onAcknowledgementPacket (f : Flight) (acknowledgement : Acknowledgement) (s : State) :
    Result State :=
  match acknowledgement with
  | .result => .ok { s with ibc := { s.ibc with flights := s.ibc.flights.erase f } }
  | .error => refund s f

def onTimeoutPacket (f : Flight) (s : State) : Result State :=
  refund s f

end Ibc

abbrev Handled := Result (State × Option Failure)

-- `math.Int.Uint64`
def uint64 (amount : ℤ) : Result UInt64 := do
  failIf (amount < 0 ∨ 2 ^ 64 ≤ amount) (.panic "Uint64() out of bounds")
  return UInt64.ofNat amount.toNat

def moveTransferToCompleted (s : State) (transferID : UInt64) (transfer : BridgeTransfer) :
    Result State := do
  let bridgeState ← orFail s.bridgeState errNotFound
  let pendingTransfers := bridgeState.pendingTransfers.filter (·.id ≠ transferID)
  let completedTransfers := bridgeState.completedTransfers ++ [transfer]
  let key := transfer.destinationChain
  let balance := (bridgeState.chainBalances.get key).getD 0
  let chainBalances ← transfer.amount.elim (.ok bridgeState.chainBalances) fun amount => do
    return bridgeState.chainBalances.set key (balance + (← uint64 amount.amount))
  return { s with
    bridgeState := some { bridgeState with pendingTransfers, completedTransfers, chainBalances } }

-- The timeout of a transfer has passed.
def Expired (ctx : Context) (s : State) (id : UInt64) : Prop :=
  ∃ m ∈ s.transferMeta.get id, m.initHeight + m.timeoutBlocks < ctx.blockHeight

instance {ctx : Context} {s : State} {id : UInt64} : Decidable (Expired ctx s id) :=
  inferInstanceAs (Decidable (∃ m ∈ s.transferMeta.get id, _))

namespace Keeper

def refundTimedOutTransfer (k : Keeper) (s : State) (transferID : UInt64) : Handled := do
  let transfer ← orFail (s.bridgeTransfers.get transferID) errNotFound
  if transfer.status ≠ .pending then
    return (s, none)
  let senderAddr ← orFail (k.accAddressFromBech32 transfer.sender) errInvalidAddress
  let amount ← orFail transfer.amount errInvalidAmount
  let bank ← s.bank.sendCoinsFromModuleToAccount k.moduleAddr senderAddr (← Coins.new [amount])
  let transfer := { transfer with status := .timedOut }
  let s := { s with bank, bridgeTransfers := s.bridgeTransfers.set transferID transfer }
  return orKeep s do
    let s ← moveTransferToCompleted s transferID transfer
    return { s with transferMeta := s.transferMeta.remove transferID }

-- Messages

def validateDestinationChain (params : Params) (destinationChain : String) : Result Unit :=
  failIf (destinationChain ∉ params.supportedChains) errInvalidChain

def validateTransferAmount (params : Params) (amount : Coin) : Result Unit :=
  failIf (amount.amount < params.minTransferAmount.toNat ∨
    params.maxTransferAmount.toNat < amount.amount) errInvalidAmount

def sendOutboundIBCTransfer (k : Keeper) (ctx : Context) (s : State) (transfer : BridgeTransfer)
    (transferID : UInt64) (route : ChainRoute) : Result State := do
  let portID := if route.portID = "" then defaultPortID else route.portID
  failIf (route.channelID = "") errInvalidChain
  let timeoutBlocks := s.params.timeoutBlocks
  let timeoutTimestamp := UInt64.ofNat ctx.blockTime + timeoutBlocks * 5 * 1000000000
  let amount ← orFail transfer.amount nilPointer
  let coin ← Coin.new transfer.assetDenom amount.amount
  let (s, ibcSequence) ← Ibc.transfer ctx s portID route.channelID coin k.moduleAddr
    k.moduleAddrString transfer.recipient timeoutTimestamp (formatBridgeMemo transferID)
  let initHeight := ctx.blockHeight
  let channelID := route.channelID
  let record : TransferMeta :=
    { initHeight, timeoutBlocks, ibcSequence, timeoutTimestamp, portID, channelID }
  return { s with transferMeta := s.transferMeta.set transferID record }

-- The error of a transfer whose packet could not be sent. The refund is reverted with the message.
def sendFailure (text : String) : Handled → Failure
  | .ok (_, none) => .error text
  | .ok (_, some (.error refundErr)) =>
    .error s!"ibc transfer failed: {text}; refund failed: {refundErr}"
  | .ok (_, some (.panic text)) => .panic text
  | .error (.error refundErr) => .error s!"ibc transfer failed: {text}; refund failed: {refundErr}"
  | .error (.panic text) => .panic text

-- The second half of `InitiateBridgeTransfer`: a packet on a chain with a route, and only the
-- timeout without one.
def dispatch (k : Keeper) (ctx : Context) (s : State) (transfer : BridgeTransfer)
    (transferId : UInt64) : Result State :=
  match (s.chainRoutes.get transfer.destinationChain).filter (·.channelID ≠ "") with
  | some route =>
    match k.sendOutboundIBCTransfer ctx s transfer transferId route with
    | .ok s' => .ok s'
    | .error (.error text) => .error (sendFailure text (k.refundTimedOutTransfer s transferId))
    | .error (.panic text) => .error (.panic text)
  | none =>
    let record := { initHeight := ctx.blockHeight, timeoutBlocks := s.params.timeoutBlocks }
    .ok { s with transferMeta := s.transferMeta.set transferId record }

def initiateBridgeTransfer (k : Keeper) (ctx : Context) (s : State)
    (msg : MsgInitiateBridgeTransfer) : Result (State × UInt64) := do
  validateDestinationChain s.params msg.destinationChain
  validateTransferAmount s.params msg.amount
  let senderAddr ← orFail (k.accAddressFromBech32 msg.sender) errInvalidAddress
  let bank ← s.bank.sendCoins senderAddr k.moduleAddr (← Coins.new [msg.amount])
  let bridgeState := s.bridgeState.getD {}
  let transferId := bridgeState.nextTransferId
  let transfer : BridgeTransfer := {
    id               := transferId
    sender           := msg.sender
    recipient        := msg.recipient
    amount           := some msg.amount
    sourceChain      := "marketplace"
    destinationChain := msg.destinationChain
    assetDenom       := msg.amount.denom
    status           := .pending
    timestamp        := UInt64.ofNat (ctx.blockTime / 1000000000)
  }
  let bridgeTransfers := s.bridgeTransfers.set transferId transfer
  let bridgeState := { bridgeState with
    nextTransferId   := bridgeState.nextTransferId + 1
    pendingTransfers := bridgeState.pendingTransfers ++ [transfer]
  }
  let s := { s with bank, bridgeTransfers, bridgeState := some bridgeState }
  return (← k.dispatch ctx s transfer transferId, transferId)

def checkTransferTimeout (ctx : Context) (s : State) (transferID : UInt64) : Result Unit :=
  failIf (Expired ctx s transferID) errTransferTimeout

-- Only the client, the height and the proof come from the caller. The packet is the one that
-- `sendOutboundIBCTransfer` recorded.
def verifyTransferProof (k : Keeper) (ctx : Context) (s : State) (proof : String)
    (transfer : BridgeTransfer) : Result Unit := do
  let unsent := .error s!"invalid transfer proof: no real IBC packet was ever sent for transfer {transfer.id.toNat}"
  let m ← orFail (s.transferMeta.get transfer.id) unsent
  failIf (m.ibcSequence = 0 ∨ m.portID = "" ∨ m.channelID = "") unsent
  let parsedProof ← orFail (k.parseProof proof) errInvalidProof
  failIf (parsedProof.clientID = "") errInvalidProof
  let revisionHeight :=
    if parsedProof.revisionHeight = 0 then parsedProof.height else parsedProof.revisionHeight
  failIf (revisionHeight = 0) errInvalidProof
  let amount ← orFail transfer.amount nilPointer
  let data := {
    denom    := transfer.assetDenom
    amount   := amount.amount
    sender   := k.moduleAddrString
    receiver := transfer.recipient
    memo     := formatBridgeMemo transfer.id
  }
  let packet := {
    sourcePort       := m.portID
    sourceChannel    := m.channelID
    sequence         := m.ibcSequence
    timeoutTimestamp := m.timeoutTimestamp
    data             := some data
  }
  failIf (ctx.lightClients.route parsedProof.clientID = false) errInvalidProof
  failIf (ctx.lightClients.active parsedProof.clientID = false)
    (.error s!"invalid transfer proof: client {parsedProof.clientID} is not active")
  failIf (ctx.lightClients.verifyMembership parsedProof.clientID parsedProof.revisionNumber
    revisionHeight parsedProof.proofBytes packet = false) errInvalidProof

def validateBondedValidator (k : Keeper) (ctx : Context) (validator : String) : Result Unit := do
  failIf (validator = "") errUnauthorized
  let accAddr ← orFail (k.accAddressFromBech32 validator) errUnauthorized
  failIf (ctx.isBonded accAddr = false) errUnauthorized

def validateModuleBalance (k : Keeper) (s : State) (transfer : BridgeTransfer) : Result Unit := do
  let amount ← orFail transfer.amount errInvalidAmount
  let coins ← Coins.new [amount]
  failIf (∃ c ∈ coins, s.bank.balances k.moduleAddr c.denom < c.amount) errInsufficientModuleBalance

def completeBridgeTransfer (k : Keeper) (ctx : Context) (s : State)
    (msg : MsgCompleteBridgeTransfer) : Result State := do
  let transfer ← orFail (s.bridgeTransfers.get msg.transferId) errTransferNotFound
  failIf (transfer.status ≠ .pending) errTransferAlreadyCompleted
  checkTransferTimeout ctx s msg.transferId
  k.verifyTransferProof ctx s msg.proof transfer
  k.validateBondedValidator ctx msg.validator
  k.validateModuleBalance s transfer
  let recipientAddr ← orFail (k.accAddressFromBech32 transfer.recipient) errInvalidAddress
  let amount ← orFail transfer.amount nilPointer
  let bank ← s.bank.sendCoinsFromModuleToAccount k.moduleAddr recipientAddr (← Coins.new [amount])
  let transfer := { transfer with status := .completed }
  let s := { s with bank, bridgeTransfers := s.bridgeTransfers.set msg.transferId transfer }
  let s ← moveTransferToCompleted s msg.transferId transfer
  return { s with transferMeta := s.transferMeta.remove msg.transferId }

def updateParams (s : State) (authority : String) (params : Params) : Result State := do
  failIf (s.params.adminAddress ≠ authority) errUnauthorized
  return { s with params }

-- End of a block

def maxCompletedTransfersToKeep : ℕ := 10000

def pruneOldTransfers (s : State) (maxToKeep : ℕ) : State :=
  let bridgeState := s.bridgeState.getD {}
  let completed := bridgeState.completedTransfers
  if completed.length ≤ maxToKeep then s
  else
    let completedTransfers := completed.drop (completed.length - maxToKeep)
    { s with bridgeState := some { bridgeState with completedTransfers } }

-- What `EndBlocker` does at one entry of its walk.
def visit (k : Keeper) (ctx : Context) (s : State) (entry : UInt64 × BridgeTransfer) :
    Result State :=
  if entry.2.status = .pending ∧ Expired ctx s entry.1 then
    logged s (k.refundTimedOutTransfer s entry.1)
  else
    .ok s

def endBlocker (k : Keeper) (ctx : Context) (s : State) : Result State := do
  let s ← s.bridgeTransfers.entries.foldlM (k.visit ctx) s
  return pruneOldTransfers s maxCompletedTransfersToKeep

-- Acknowledgements and timeouts of IBC packets

-- `HandleOutboundIBCAck` once it has read the memo.
def completeAcknowledgedTransfer (s : State) (transferID : UInt64) : Handled := do
  let transfer ← orFail (s.bridgeTransfers.get transferID) errNotFound
  if transfer.status ≠ .pending then
    return (s, none)
  let transfer := { transfer with status := .completed }
  let s := { s with bridgeTransfers := s.bridgeTransfers.set transferID transfer }
  return orKeep s (moveTransferToCompleted s transferID transfer)

def handleOutboundIBCAck (s : State) (packet : Packet) (acknowledgement : Option Acknowledgement) :
    Handled := do
  let ack ← orFail acknowledgement errUnmarshal
  if ack ≠ .result then
    return (s, none)
  let data ← orFail packet.data errUnmarshal
  match parseBridgeMemo data.memo with
  | none => return (s, none)
  | some transferID => completeAcknowledgedTransfer s transferID

def handleOutboundIBCTimeout (k : Keeper) (s : State) (packet : Packet) : Handled := do
  let data ← orFail packet.data errUnmarshal
  match parseBridgeMemo data.memo with
  | none => return (s, none)
  | some transferID => k.refundTimedOutTransfer s transferID

end Keeper

-- The middleware runs its own handler first and then the IBC transfer module.
namespace IBCModule

def onAcknowledgementPacket (s : State) (f : Flight) (acknowledgement : Acknowledgement) :
    Result State := do
  let s ← logged s (Keeper.handleOutboundIBCAck s f.packet (some acknowledgement))
  Ibc.onAcknowledgementPacket f acknowledgement s

def onTimeoutPacket (k : Keeper) (s : State) (f : Flight) : Result State := do
  let s ← logged s (k.handleOutboundIBCTimeout s f.packet)
  Ibc.onTimeoutPacket f s

end IBCModule

end Crosschain
