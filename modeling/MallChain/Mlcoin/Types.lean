import MallChain.Lib.KVStore
import MallChain.Sdk.Bank

namespace Mlcoin

open Sdk

structure WalletBalance where
  index      : String := ""
  address    : String
  balance    : UInt64
  locked     : UInt64 := 0
  unlockTime : ℤ := 0
  deriving DecidableEq, Repr

structure FeesAccumulated where
  transactionFees      : UInt64 := 0
  tradingFees          : UInt64 := 0
  conversionFees       : UInt64 := 0
  lastDistributionTime : ℤ := 0
  deriving DecidableEq, Repr

structure Transaction where
  txId        : String
  fromAddr    : String
  toAddr      : String
  amount      : UInt64
  txType      : String
  timestamp   : ℤ
  blockHeight : UInt64
  memo        : String
  deriving DecidableEq, Repr

structure ActivityMetrics where
  totalTransactions     : UInt64 := 0
  totalVolume           : UInt64 := 0
  activeUsers           : UInt64 := 0
  engagementScore       : UInt64 := 0
  priceImpactMultiplier : ℤ := 0
  lastResetHeight       : UInt64 := 0
  currentPeriod         : String := ""
  deriving DecidableEq, Repr

structure EmissionState where
  totalSupply  : UInt64
  circulating  : UInt64
  monthlyCap   : UInt64 := 0
  dailyLimit   : UInt64
  currentMonth : UInt64 := 1
  currentDay   : UInt64 := 1
  emittedTotal : UInt64 := 0
  burnedTotal  : UInt64 := 0
  burnWallet   : String := ""
  burnRateBps  : UInt64 := 0
  deriving DecidableEq, Repr

-- Prices are in cents of a KES.
structure MarketPrice where
  buyPrice         : UInt64
  sellPrice        : UInt64
  totalBuyVolume   : UInt64 := 0
  totalSellVolume  : UInt64 := 0
  lastUpdateHeight : UInt64 := 0
  deriving DecidableEq, Repr

structure KesBalance where
  address : String
  balance : UInt64
  deriving DecidableEq, Repr

structure Trade where
  txId        : String
  trader      : String
  tradeType   : String
  mlcnAmount  : UInt64
  kesAmount   : UInt64
  price       : UInt64
  timestamp   : ℤ
  blockHeight : UInt64
  deriving DecidableEq, Repr

structure StakingInfo where
  address       : String
  stakedAmount  : UInt64
  stakeDate     : Int64
  rewardsEarned : UInt64 := 0
  isActive      : Bool
  unlockHeight  : UInt64
  deriving DecidableEq

structure TreasurySnapshot where
  blockHeight       : ℤ
  totalSupply       : UInt64
  circulatingSupply : UInt64
  burnedSupply      : UInt64
  stakedSupply      : UInt64
  treasuryBalance   : UInt64
  timestamp         : ℤ
  deriving DecidableEq, Repr

structure ModuleIntervals where
  dynamicPricingBlocks : UInt64 := 100
  emissionTickBlocks   : UInt64 := 12000
  conversionTickBlocks : UInt64 := 12000
  stakingLockBlocks    : UInt64 := 1555200
  blocksPerDay         : UInt64 := 17280
  blocksPerMonth       : UInt64 := 129600
  rewardDivisor        : UInt64 := 18250
  feeRateBps           : UInt64 := 100
  feeSplitPercent      : UInt64 := 50
  deriving DecidableEq, Repr

structure Params where
  burnWallet     : String := ""
  minStakeAmount : UInt64 := 18250
  mlptsPerMlcns  : UInt64 := 3200000
  deriving DecidableEq, Repr

-- The errors of the module that the messages below are wrapped around.
def errInvalidRequest : String := "invalid request"
def errWalletNotFound : String := "wallet not found"
def errInsufficientBalance : String := "insufficient balance"
def errInsufficientAllowance : String := "insufficient allowance"
def errLockedFunds : String := "cannot transfer from locked wallet"
def errInvalidSupply : String := "invalid supply amount"
def errDailyLimitExceeded : String := "daily emission limit exceeded"
def errLiquidityCapExceeded : String := "buy-side KES liquidity cap exceeded"
def errSupplyExhausted : String := "total supply exhausted"
def errUnauthorized : String := "unauthorized"
def errInvalidSigner : String := "expected gov account as only signer for proposal message"
def errStakeBelowMinimum : String := "stake amount below minimum required to earn rewards"

-- `errorsmod.Wrap`
def wrap (err text : String) : Failure :=
  .error s!"{text}: {err}"

-- The block in which a message runs, with its time in Unix seconds.
structure Context where
  blockTime   : ℤ
  blockHeight : UInt64

-- The address codec decides which strings are addresses.
structure Keeper where
  stringToBytes   : String → Option AccAddress
  authority       : AccAddress
  authorityString : String
  moduleAddr      : AccAddress
  treasuryAddr    : AccAddress
  mintAddr        : AccAddress

-- The collections of the module, and the bank. A number of the staking sequence is handed out once.
structure State where
  walletBalance       : KVStore String WalletBalance := .empty
  allowances          : KVStore String UInt64 := .empty
  transactions        : KVStore String Transaction := .empty
  transactionCount    : UInt64 := 0
  activityMetrics     : Option ActivityMetrics := none
  feesAccumulated     : Option FeesAccumulated := none
  emissionState       : Option EmissionState := none
  emissionMonthAnchor : Option UInt64 := none
  marketPrice         : Option MarketPrice := none
  kesBalance          : KVStore String KesBalance := .empty
  tradeHistory        : KVStore String Trade := .empty
  totalBuyKesCache    : Option UInt64 := none
  stakingRecords      : KVStore String StakingInfo := .empty
  stakingSequence     : ℕ := 0
  treasurySnapshots   : KVStore ℤ TreasurySnapshot := .empty
  intervals           : Option ModuleIntervals := none
  params              : Option Params := none
  bank                : Bank := .empty

namespace State

def setWallet (s : State) (addr : String) (w : WalletBalance) : State :=
  { s with walletBalance := s.walletBalance.set addr w }

-- What a wallet holds, vested or not. An address without a wallet holds nothing.
def worth : Option WalletBalance → ℤ
  | none => 0
  | some w => w.balance.toNat + w.locked.toNat

def transactionFees (s : State) : UInt64 :=
  (s.feesAccumulated.getD {}).transactionFees

-- All coins that are in wallets or that were taken from them as transaction fees.
def value (s : State) : ℤ :=
  s.walletBalance.sum (fun _ w => worth (some w)) + s.transactionFees.toNat

variable {s : State} {addr : String} {w : WalletBalance}

theorem value_setWallet :
    (s.setWallet addr w).value = s.value - worth (s.walletBalance.get addr) + worth (some w) := by
  have hp : KVStore.part (fun _ w => worth (some w)) addr (s.walletBalance.get addr) =
      worth (s.walletBalance.get addr) := by
    cases s.walletBalance.get addr <;> rfl
  simp only [value, setWallet, KVStore.sum_set, hp, transactionFees]
  ring

@[simp]
theorem get_setWallet : (s.setWallet addr w).walletBalance.get addr = some w :=
  KVStore.get_set_self

end State

-- What an addition of two uint64 values drops when it wraps around.
def dropped (a b : UInt64) : ℤ :=
  if a.toNat + b.toNat < 2 ^ 64 then 0 else 2 ^ 64

variable {a b : UInt64}

theorem toNat_add : ((a + b).toNat : ℤ) = a.toNat + b.toNat - dropped a b := by
  have ha := a.toNat_lt
  have hb := b.toNat_lt
  rw [UInt64.toNat_add, dropped]
  split_ifs <;> omega

theorem dropped_eq_zero_iff : dropped a b = 0 ↔ a.toNat + b.toNat < 2 ^ 64 := by
  rw [dropped]
  split_ifs <;> simp_all

theorem dropped_nonneg : 0 ≤ dropped a b := by
  rw [dropped]
  split_ifs <;> simp

theorem toNat_sub (h : b.toNat ≤ a.toNat) : ((a - b).toNat : ℤ) = a.toNat - b.toNat := by
  rw [UInt64.toNat_sub_of_le _ _ (UInt64.le_iff_toNat_le.mpr h)]
  omega

theorem toNat_ofInt {x : ℤ} (h₀ : 0 ≤ x) (h : x < 2 ^ 64) : ((UInt64.ofInt x).toNat : ℤ) = x := by
  have hx : (x % 2 ^ 64).toNat < 2 ^ 64 := by omega
  rw [UInt64.ofInt, UInt64.toNat_ofNat_of_lt' hx]
  omega

end Mlcoin
