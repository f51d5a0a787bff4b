import MallChain.Marketplace.Types
import MallChain.Proto.Fields
import MallChain.Vault.Keeper

namespace Proto

open Protobuf

-- What is passed for a message. Every field may be missing.

structure MsgCreatePoolValue where
  creator : Option Text
  tokenA  : Option Coin
  tokenB  : Option Coin
  fee     : Option Text

structure MsgAddLiquidityValue where
  provider     : Option Text
  poolId       : Option Uint64
  tokenAAmount : Option Coin
  tokenBAmount : Option Coin

structure MsgRemoveLiquidityValue where
  provider        : Option Text
  poolId          : Option Uint64
  liquidityTokens : Option Coin

structure MsgSwapValue where
  sender        : Option Text
  poolId        : Option Uint64
  tokenIn       : Option Coin
  tokenOutDenom : Option Text
  minTokenOut   : Option Coin

structure MsgTransferMallcoinValue where
  creator : Option Text
  amount  : Option Uint64
  «to»    : Option Text

structure MsgStakeValue where
  creator : Option Text
  amount  : Option Uint64

structure MsgUnstakeValue where
  creator : Option Text
  stakeId : Option Text

structure MsgCreateEscrowValue where
  buyer                : Option Text
  seller               : Option Text
  amount               : Option Text
  denom                : Option Text
  description          : Option Text
  disputeWindowSeconds : Option Uint64

structure MsgReleaseFundsValue where
  escrowId  : Option Text
  releaseBy : Option Text

structure MsgRefundBuyerValue where
  escrowId    : Option Text
  requestedBy : Option Text

structure MsgOpenDisputeValue where
  escrowId : Option Text
  opener   : Option Text

structure MsgSetupVaultValue where
  authority           : Option Text
  salt                : Option Text
  kdfTime             : Option UInt32
  kdfMemory           : Option UInt32
  kdfThreads          : Option UInt32
  kdfKeyLen           : Option UInt32
  nonceTotp           : Option Text
  encryptedTotpSecret : Option Text

structure MsgConfirmVaultValue where
  authority  : Option Text
  noncePriv  : Option Text
  ciphertext : Option Text
  publicKey  : Option Text

structure MsgDisableVaultValue where
  authority : Option Text

-- The messages of the chain that have no type yet

structure MsgCreatePool where
  creator : String
  tokenA  : WireCoin
  tokenB  : WireCoin
  fee     : String
  deriving DecidableEq, Repr

structure MsgAddLiquidity where
  provider     : String
  poolId       : UInt64
  tokenAAmount : WireCoin
  tokenBAmount : WireCoin
  deriving DecidableEq, Repr

structure MsgRemoveLiquidity where
  provider        : String
  poolId          : UInt64
  liquidityTokens : WireCoin
  deriving DecidableEq, Repr

structure MsgSwap where
  sender        : String
  poolId        : UInt64
  tokenIn       : WireCoin
  tokenOutDenom : String
  minTokenOut   : WireCoin
  deriving DecidableEq, Repr

structure MsgTransferMallcoin where
  creator : String
  amount  : UInt64
  «to»    : String
  deriving DecidableEq, Repr

structure MsgStake where
  creator : String
  amount  : UInt64
  deriving DecidableEq, Repr

structure MsgUnstake where
  creator : String
  stakeId : String
  deriving DecidableEq, Repr

-- The field numbers of the messages in `tx.proto`

def decodeMsgCreatePool (codec : CoinCodec) (bs : ByteString) : Option MsgCreatePool := do
  let fs ← decode bs
  return {
    creator := ← string 1 fs
    tokenA  := ← message codec.decode 2 fs
    tokenB  := ← message codec.decode 3 fs
    fee     := ← string 4 fs
  }

def decodeMsgAddLiquidity (codec : CoinCodec) (bs : ByteString) : Option MsgAddLiquidity := do
  let fs ← decode bs
  return {
    provider     := ← string 1 fs
    poolId       := ← uint64 2 fs
    tokenAAmount := ← message codec.decode 3 fs
    tokenBAmount := ← message codec.decode 4 fs
  }

def decodeMsgRemoveLiquidity (codec : CoinCodec) (bs : ByteString) : Option MsgRemoveLiquidity := do
  let fs ← decode bs
  return {
    provider        := ← string 1 fs
    poolId          := ← uint64 2 fs
    liquidityTokens := ← message codec.decode 3 fs
  }

def decodeMsgSwap (codec : CoinCodec) (bs : ByteString) : Option MsgSwap := do
  let fs ← decode bs
  return {
    sender        := ← string 1 fs
    poolId        := ← uint64 2 fs
    tokenIn       := ← message codec.decode 3 fs
    tokenOutDenom := ← string 4 fs
    minTokenOut   := ← message codec.decode 5 fs
  }

def decodeMsgTransferMallcoin (bs : ByteString) : Option MsgTransferMallcoin := do
  let fs ← decode bs
  return { creator := ← string 1 fs, amount := ← uint64 2 fs, «to» := ← string 3 fs }

def decodeMsgStake (bs : ByteString) : Option MsgStake := do
  let fs ← decode bs
  return { creator := ← string 1 fs, amount := ← uint64 2 fs }

def decodeMsgUnstake (bs : ByteString) : Option MsgUnstake := do
  let fs ← decode bs
  return { creator := ← string 1 fs, stakeId := ← string 2 fs }

def decodeMsgCreateEscrow (bs : ByteString) : Option Marketplace.MsgCreateEscrow := do
  let fs ← decode bs
  return {
    buyer                := ← string 1 fs
    seller               := ← string 2 fs
    amount               := ← string 3 fs
    denom                := ← string 4 fs
    description          := ← string 5 fs
    disputeWindowSeconds := ← uint64 6 fs
  }

def decodeMsgReleaseFunds (bs : ByteString) : Option Marketplace.MsgReleaseFunds := do
  let fs ← decode bs
  return { escrowId := ← string 1 fs, releaseBy := ← string 2 fs }

def decodeMsgRefundBuyer (bs : ByteString) : Option Marketplace.MsgRefundBuyer := do
  let fs ← decode bs
  return { escrowId := ← string 1 fs, requestedBy := ← string 2 fs }

def decodeMsgOpenDispute (bs : ByteString) : Option Marketplace.MsgOpenDispute := do
  let fs ← decode bs
  return { escrowId := ← string 1 fs, opener := ← string 2 fs }

def decodeMsgSetupVault (bs : ByteString) : Option Vault.MsgSetupVault := do
  let fs ← decode bs
  return {
    authority           := ← string 1 fs
    salt                := ← string 2 fs
    kdfTime             := ← uint32 3 fs
    kdfMemory           := ← uint32 4 fs
    kdfThreads          := ← uint32 5 fs
    kdfKeyLen           := ← uint32 6 fs
    nonceTotp           := ← string 7 fs
    encryptedTotpSecret := ← string 8 fs
  }

def decodeMsgConfirmVault (bs : ByteString) : Option Vault.MsgConfirmVault := do
  let fs ← decode bs
  return {
    authority  := ← string 1 fs
    noncePriv  := ← string 2 fs
    ciphertext := ← string 3 fs
    publicKey  := ← string 4 fs
  }

def decodeMsgDisableVault (bs : ByteString) : Option Vault.MsgDisableVault := do
  let fs ← decode bs
  return { authority := ← string 1 fs }

-- The encoders of the clients

def encodeMsgCreatePool (codec : CoinCodec) (msg : MsgCreatePoolValue) : ByteString :=
  concatBytes [pushText 1 msg.creator, pushCoin codec 2 msg.tokenA, pushCoin codec 3 msg.tokenB,
    pushText 4 msg.fee].flatten

def encodeMsgAddLiquidity (codec : CoinCodec) (msg : MsgAddLiquidityValue) : ByteString :=
  concatBytes [pushText 1 msg.provider, pushPoolId 2 msg.poolId, pushCoin codec 3 msg.tokenAAmount,
    pushCoin codec 4 msg.tokenBAmount].flatten

def encodeMsgRemoveLiquidity (codec : CoinCodec) (msg : MsgRemoveLiquidityValue) : ByteString :=
  concatBytes [pushText 1 msg.provider, pushPoolId 2 msg.poolId, pushCoin codec 3 msg.liquidityTokens].flatten

def encodeMsgSwap (codec : CoinCodec) (msg : MsgSwapValue) : ByteString :=
  concatBytes [pushText 1 msg.sender, pushPoolId 2 msg.poolId, pushCoin codec 3 msg.tokenIn,
    pushText 4 msg.tokenOutDenom, pushCoin codec 5 msg.minTokenOut].flatten

-- Here nothing that is there is left out.
def encodeMsgTransferMallcoin (msg : MsgTransferMallcoinValue) : ByteString :=
  concatBytes [pushDefinedText 1 msg.creator, pushDefinedUint64 2 msg.amount, pushDefinedText 3 msg.to].flatten

def encodeMsgStake (msg : MsgStakeValue) : ByteString :=
  concatBytes [pushText 1 msg.creator, pushUint64 2 msg.amount].flatten

def encodeMsgUnstake (msg : MsgUnstakeValue) : ByteString :=
  concatBytes [pushText 1 msg.creator, pushText 2 msg.stakeId].flatten

def encodeMsgCreateEscrow (msg : MsgCreateEscrowValue) : ByteString :=
  concatBytes [pushText 1 msg.buyer, pushText 2 msg.seller, pushText 3 msg.amount, pushText 4 msg.denom,
    pushText 5 msg.description, pushUint64 6 msg.disputeWindowSeconds].flatten

def encodeMsgReleaseFunds (msg : MsgReleaseFundsValue) : ByteString :=
  concatBytes [pushText 1 msg.escrowId, pushText 2 msg.releaseBy].flatten

def encodeMsgRefundBuyer (msg : MsgRefundBuyerValue) : ByteString :=
  concatBytes [pushText 1 msg.escrowId, pushText 2 msg.requestedBy].flatten

def encodeMsgOpenDispute (msg : MsgOpenDisputeValue) : ByteString :=
  concatBytes [pushText 1 msg.escrowId, pushText 2 msg.opener].flatten

def encodeMsgSetupVault (msg : MsgSetupVaultValue) : ByteString :=
  concatBytes [pushText 1 msg.authority, pushText 2 msg.salt, pushUint32 3 msg.kdfTime, pushUint32 4 msg.kdfMemory,
    pushUint32 5 msg.kdfThreads, pushUint32 6 msg.kdfKeyLen, pushText 7 msg.nonceTotp,
    pushText 8 msg.encryptedTotpSecret].flatten

def encodeMsgConfirmVault (msg : MsgConfirmVaultValue) : ByteString :=
  concatBytes [pushText 1 msg.authority, pushText 2 msg.noncePriv, pushText 3 msg.ciphertext,
    pushText 4 msg.publicKey].flatten

def encodeMsgDisableVault (msg : MsgDisableVaultValue) : ByteString :=
  concatBytes [pushText 1 msg.authority].flatten

-- What is to be read for what was passed

def MsgCreatePoolValue.toMsg (msg : MsgCreatePoolValue) : MsgCreatePool where
  creator := textOf msg.creator
  tokenA  := coinOf msg.tokenA
  tokenB  := coinOf msg.tokenB
  fee     := textOf msg.fee

def MsgAddLiquidityValue.toMsg (msg : MsgAddLiquidityValue) : MsgAddLiquidity where
  provider     := textOf msg.provider
  poolId       := uint64Of msg.poolId
  tokenAAmount := coinOf msg.tokenAAmount
  tokenBAmount := coinOf msg.tokenBAmount

def MsgRemoveLiquidityValue.toMsg (msg : MsgRemoveLiquidityValue) : MsgRemoveLiquidity where
  provider        := textOf msg.provider
  poolId          := uint64Of msg.poolId
  liquidityTokens := coinOf msg.liquidityTokens

def MsgSwapValue.toMsg (msg : MsgSwapValue) : MsgSwap where
  sender        := textOf msg.sender
  poolId        := uint64Of msg.poolId
  tokenIn       := coinOf msg.tokenIn
  tokenOutDenom := textOf msg.tokenOutDenom
  minTokenOut   := coinOf msg.minTokenOut

def MsgTransferMallcoinValue.toMsg (msg : MsgTransferMallcoinValue) : MsgTransferMallcoin where
  creator := textOf msg.creator
  amount  := uint64Of msg.amount
  «to»    := textOf msg.to

def MsgStakeValue.toMsg (msg : MsgStakeValue) : MsgStake where
  creator := textOf msg.creator
  amount  := uint64Of msg.amount

def MsgUnstakeValue.toMsg (msg : MsgUnstakeValue) : MsgUnstake where
  creator := textOf msg.creator
  stakeId := textOf msg.stakeId

def MsgCreateEscrowValue.toMsg (msg : MsgCreateEscrowValue) : Marketplace.MsgCreateEscrow where
  buyer                := textOf msg.buyer
  seller               := textOf msg.seller
  amount               := textOf msg.amount
  denom                := textOf msg.denom
  description          := textOf msg.description
  disputeWindowSeconds := uint64Of msg.disputeWindowSeconds

def MsgReleaseFundsValue.toMsg (msg : MsgReleaseFundsValue) : Marketplace.MsgReleaseFunds where
  escrowId  := textOf msg.escrowId
  releaseBy := textOf msg.releaseBy

def MsgRefundBuyerValue.toMsg (msg : MsgRefundBuyerValue) : Marketplace.MsgRefundBuyer where
  escrowId    := textOf msg.escrowId
  requestedBy := textOf msg.requestedBy

def MsgOpenDisputeValue.toMsg (msg : MsgOpenDisputeValue) : Marketplace.MsgOpenDispute where
  escrowId := textOf msg.escrowId
  opener   := textOf msg.opener

def MsgSetupVaultValue.toMsg (msg : MsgSetupVaultValue) : Vault.MsgSetupVault where
  authority           := textOf msg.authority
  salt                := textOf msg.salt
  kdfTime             := msg.kdfTime.getD 0
  kdfMemory           := msg.kdfMemory.getD 0
  kdfThreads          := msg.kdfThreads.getD 0
  kdfKeyLen           := msg.kdfKeyLen.getD 0
  nonceTotp           := textOf msg.nonceTotp
  encryptedTotpSecret := textOf msg.encryptedTotpSecret

def MsgConfirmVaultValue.toMsg (msg : MsgConfirmVaultValue) : Vault.MsgConfirmVault where
  authority  := textOf msg.authority
  noncePriv  := textOf msg.noncePriv
  ciphertext := textOf msg.ciphertext
  publicKey  := textOf msg.publicKey

def MsgDisableVaultValue.toMsg (msg : MsgDisableVaultValue) : Vault.MsgDisableVault where
  authority := textOf msg.authority

variable {codec : CoinCodec}

theorem decode_createPool (msg : MsgCreatePoolValue) :
    decodeMsgCreatePool codec (encodeMsgCreatePool codec msg) = some msg.toMsg := by
  obtain ⟨fs, hdecode, hcreator, htokenA, htokenB, hfee⟩ := decode_encodeEntries codec
    [(1, .text msg.creator), (2, .coin msg.tokenA), (3, .coin msg.tokenB), (4, .text msg.fee)] (by simp) (by simp)
  have hdecode : decode (encodeMsgCreatePool codec msg) = some fs := hdecode
  simp only [Entry.Reads, List.Forall] at hcreator htokenA htokenB hfee
  simp [decodeMsgCreatePool, hdecode, hcreator, htokenA, htokenB, hfee, MsgCreatePoolValue.toMsg]

theorem decode_addLiquidity (msg : MsgAddLiquidityValue) :
    decodeMsgAddLiquidity codec (encodeMsgAddLiquidity codec msg) = some msg.toMsg := by
  obtain ⟨fs, hdecode, hprovider, hpoolId, htokenAAmount, htokenBAmount⟩ := decode_encodeEntries codec
    [(1, .text msg.provider), (2, .poolId msg.poolId), (3, .coin msg.tokenAAmount),
      (4, .coin msg.tokenBAmount)] (by simp) (by simp)
  have hdecode : decode (encodeMsgAddLiquidity codec msg) = some fs := hdecode
  simp only [Entry.Reads, List.Forall] at hprovider hpoolId htokenAAmount htokenBAmount
  simp [decodeMsgAddLiquidity, hdecode, hprovider, hpoolId, htokenAAmount, htokenBAmount,
    MsgAddLiquidityValue.toMsg]

theorem decode_removeLiquidity (msg : MsgRemoveLiquidityValue) :
    decodeMsgRemoveLiquidity codec (encodeMsgRemoveLiquidity codec msg) = some msg.toMsg := by
  obtain ⟨fs, hdecode, hprovider, hpoolId, hliquidityTokens⟩ := decode_encodeEntries codec
    [(1, .text msg.provider), (2, .poolId msg.poolId), (3, .coin msg.liquidityTokens)] (by simp) (by simp)
  have hdecode : decode (encodeMsgRemoveLiquidity codec msg) = some fs := hdecode
  simp only [Entry.Reads, List.Forall] at hprovider hpoolId hliquidityTokens
  simp [decodeMsgRemoveLiquidity, hdecode, hprovider, hpoolId, hliquidityTokens, MsgRemoveLiquidityValue.toMsg]

theorem decode_swap (msg : MsgSwapValue) :
    decodeMsgSwap codec (encodeMsgSwap codec msg) = some msg.toMsg := by
  obtain ⟨fs, hdecode, hsender, hpoolId, htokenIn, htokenOutDenom, hminTokenOut⟩ := decode_encodeEntries codec
    [(1, .text msg.sender), (2, .poolId msg.poolId), (3, .coin msg.tokenIn), (4, .text msg.tokenOutDenom),
      (5, .coin msg.minTokenOut)] (by simp) (by simp)
  have hdecode : decode (encodeMsgSwap codec msg) = some fs := hdecode
  simp only [Entry.Reads, List.Forall] at hsender hpoolId htokenIn htokenOutDenom hminTokenOut
  simp [decodeMsgSwap, hdecode, hsender, hpoolId, htokenIn, htokenOutDenom, hminTokenOut, MsgSwapValue.toMsg]

theorem decode_transferMallcoin (msg : MsgTransferMallcoinValue) :
    decodeMsgTransferMallcoin (encodeMsgTransferMallcoin msg) = some msg.toMsg := by
  obtain ⟨fs, hdecode, hcreator, hamount, hto⟩ := decode_encodeEntries standardCodec
    [(1, .definedText msg.creator), (2, .definedUint64 msg.amount), (3, .definedText msg.to)] (by simp) (by simp)
  have hdecode : decode (encodeMsgTransferMallcoin msg) = some fs := hdecode
  simp only [Entry.Reads, List.Forall] at hcreator hamount hto
  simp [decodeMsgTransferMallcoin, hdecode, hcreator, hamount, hto, MsgTransferMallcoinValue.toMsg]

theorem decode_stake (msg : MsgStakeValue) :
    decodeMsgStake (encodeMsgStake msg) = some msg.toMsg := by
  obtain ⟨fs, hdecode, hcreator, hamount⟩ := decode_encodeEntries standardCodec
    [(1, .text msg.creator), (2, .uint64 msg.amount)] (by simp) (by simp)
  have hdecode : decode (encodeMsgStake msg) = some fs := hdecode
  simp only [Entry.Reads, List.Forall] at hcreator hamount
  simp [decodeMsgStake, hdecode, hcreator, hamount, MsgStakeValue.toMsg]

theorem decode_unstake (msg : MsgUnstakeValue) :
    decodeMsgUnstake (encodeMsgUnstake msg) = some msg.toMsg := by
  obtain ⟨fs, hdecode, hcreator, hstakeId⟩ := decode_encodeEntries standardCodec
    [(1, .text msg.creator), (2, .text msg.stakeId)] (by simp) (by simp)
  have hdecode : decode (encodeMsgUnstake msg) = some fs := hdecode
  simp only [Entry.Reads, List.Forall] at hcreator hstakeId
  simp [decodeMsgUnstake, hdecode, hcreator, hstakeId, MsgUnstakeValue.toMsg]

theorem decode_createEscrow (msg : MsgCreateEscrowValue) :
    decodeMsgCreateEscrow (encodeMsgCreateEscrow msg) = some msg.toMsg := by
  obtain ⟨fs, hdecode, hbuyer, hseller, hamount, hdenom, hdescription,
      hdisputeWindowSeconds⟩ := decode_encodeEntries standardCodec
    [(1, .text msg.buyer), (2, .text msg.seller), (3, .text msg.amount), (4, .text msg.denom),
      (5, .text msg.description), (6, .uint64 msg.disputeWindowSeconds)] (by simp) (by simp)
  have hdecode : decode (encodeMsgCreateEscrow msg) = some fs := hdecode
  simp only [Entry.Reads, List.Forall] at hbuyer hseller hamount hdenom hdescription hdisputeWindowSeconds
  simp [decodeMsgCreateEscrow, hdecode, hbuyer, hseller, hamount, hdenom,
    hdescription, hdisputeWindowSeconds, MsgCreateEscrowValue.toMsg]

theorem decode_releaseFunds (msg : MsgReleaseFundsValue) :
    decodeMsgReleaseFunds (encodeMsgReleaseFunds msg) = some msg.toMsg := by
  obtain ⟨fs, hdecode, hescrowId, hreleaseBy⟩ := decode_encodeEntries standardCodec
    [(1, .text msg.escrowId), (2, .text msg.releaseBy)] (by simp) (by simp)
  have hdecode : decode (encodeMsgReleaseFunds msg) = some fs := hdecode
  simp only [Entry.Reads, List.Forall] at hescrowId hreleaseBy
  simp [decodeMsgReleaseFunds, hdecode, hescrowId, hreleaseBy, MsgReleaseFundsValue.toMsg]

theorem decode_refundBuyer (msg : MsgRefundBuyerValue) :
    decodeMsgRefundBuyer (encodeMsgRefundBuyer msg) = some msg.toMsg := by
  obtain ⟨fs, hdecode, hescrowId, hrequestedBy⟩ := decode_encodeEntries standardCodec
    [(1, .text msg.escrowId), (2, .text msg.requestedBy)] (by simp) (by simp)
  have hdecode : decode (encodeMsgRefundBuyer msg) = some fs := hdecode
  simp only [Entry.Reads, List.Forall] at hescrowId hrequestedBy
  simp [decodeMsgRefundBuyer, hdecode, hescrowId, hrequestedBy, MsgRefundBuyerValue.toMsg]

theorem decode_openDispute (msg : MsgOpenDisputeValue) :
    decodeMsgOpenDispute (encodeMsgOpenDispute msg) = some msg.toMsg := by
  obtain ⟨fs, hdecode, hescrowId, hopener⟩ := decode_encodeEntries standardCodec
    [(1, .text msg.escrowId), (2, .text msg.opener)] (by simp) (by simp)
  have hdecode : decode (encodeMsgOpenDispute msg) = some fs := hdecode
  simp only [Entry.Reads, List.Forall] at hescrowId hopener
  simp [decodeMsgOpenDispute, hdecode, hescrowId, hopener, MsgOpenDisputeValue.toMsg]

theorem decode_setupVault (msg : MsgSetupVaultValue) :
    decodeMsgSetupVault (encodeMsgSetupVault msg) = some msg.toMsg := by
  obtain ⟨fs, hdecode, hauthority, hsalt, hkdfTime, hkdfMemory, hkdfThreads,
      hkdfKeyLen, hnonceTotp, hencryptedTotpSecret⟩ := decode_encodeEntries standardCodec
    [(1, .text msg.authority), (2, .text msg.salt), (3, .uint32 msg.kdfTime), (4, .uint32 msg.kdfMemory),
      (5, .uint32 msg.kdfThreads), (6, .uint32 msg.kdfKeyLen), (7, .text msg.nonceTotp),
      (8, .text msg.encryptedTotpSecret)] (by simp) (by simp)
  have hdecode : decode (encodeMsgSetupVault msg) = some fs := hdecode
  simp only [Entry.Reads] at hauthority hsalt hkdfTime hkdfMemory hkdfThreads hkdfKeyLen hnonceTotp
  simp only [Entry.Reads, List.Forall] at hencryptedTotpSecret
  simp [decodeMsgSetupVault, hdecode, hauthority, hsalt, hkdfTime, hkdfMemory,
    hkdfThreads, hkdfKeyLen, hnonceTotp, hencryptedTotpSecret, MsgSetupVaultValue.toMsg]

theorem decode_confirmVault (msg : MsgConfirmVaultValue) :
    decodeMsgConfirmVault (encodeMsgConfirmVault msg) = some msg.toMsg := by
  obtain ⟨fs, hdecode, hauthority, hnoncePriv, hciphertext, hpublicKey⟩ := decode_encodeEntries standardCodec
    [(1, .text msg.authority), (2, .text msg.noncePriv), (3, .text msg.ciphertext),
      (4, .text msg.publicKey)] (by simp) (by simp)
  have hdecode : decode (encodeMsgConfirmVault msg) = some fs := hdecode
  simp only [Entry.Reads, List.Forall] at hauthority hnoncePriv hciphertext hpublicKey
  simp [decodeMsgConfirmVault, hdecode, hauthority, hnoncePriv, hciphertext, hpublicKey,
    MsgConfirmVaultValue.toMsg]

theorem decode_disableVault (msg : MsgDisableVaultValue) :
    decodeMsgDisableVault (encodeMsgDisableVault msg) = some msg.toMsg := by
  obtain ⟨fs, hdecode, hauthority⟩ := decode_encodeEntries standardCodec
    [(1, .text msg.authority)] (by simp) (by simp)
  have hdecode : decode (encodeMsgDisableVault msg) = some fs := hdecode
  simp only [Entry.Reads, List.Forall] at hauthority
  simp [decodeMsgDisableVault, hdecode, hauthority, MsgDisableVaultValue.toMsg]

-- Every encoder writes a message that is read as what was passed, by the field numbers of the chain.
theorem encoders_decode (codec : CoinCodec) :
    (∀ msg, decodeMsgCreatePool codec (encodeMsgCreatePool codec msg) = some msg.toMsg) ∧
    (∀ msg, decodeMsgAddLiquidity codec (encodeMsgAddLiquidity codec msg) = some msg.toMsg) ∧
    (∀ msg, decodeMsgRemoveLiquidity codec (encodeMsgRemoveLiquidity codec msg) = some msg.toMsg) ∧
    (∀ msg, decodeMsgSwap codec (encodeMsgSwap codec msg) = some msg.toMsg) ∧
    (∀ msg, decodeMsgTransferMallcoin (encodeMsgTransferMallcoin msg) = some msg.toMsg) ∧
    (∀ msg, decodeMsgStake (encodeMsgStake msg) = some msg.toMsg) ∧
    (∀ msg, decodeMsgUnstake (encodeMsgUnstake msg) = some msg.toMsg) ∧
    (∀ msg, decodeMsgCreateEscrow (encodeMsgCreateEscrow msg) = some msg.toMsg) ∧
    (∀ msg, decodeMsgReleaseFunds (encodeMsgReleaseFunds msg) = some msg.toMsg) ∧
    (∀ msg, decodeMsgRefundBuyer (encodeMsgRefundBuyer msg) = some msg.toMsg) ∧
    (∀ msg, decodeMsgOpenDispute (encodeMsgOpenDispute msg) = some msg.toMsg) ∧
    (∀ msg, decodeMsgSetupVault (encodeMsgSetupVault msg) = some msg.toMsg) ∧
    (∀ msg, decodeMsgConfirmVault (encodeMsgConfirmVault msg) = some msg.toMsg) ∧
    (∀ msg, decodeMsgDisableVault (encodeMsgDisableVault msg) = some msg.toMsg) :=
  ⟨decode_createPool, decode_addLiquidity, decode_removeLiquidity, decode_swap,
    decode_transferMallcoin, decode_stake, decode_unstake, decode_createEscrow,
    decode_releaseFunds, decode_refundBuyer, decode_openDispute, decode_setupVault,
    decode_confirmVault, decode_disableVault⟩

end Proto
