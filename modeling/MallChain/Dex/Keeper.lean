import MallChain.Dex.Types

namespace Dex

open Sdk

structure Keeper where
  moduleAddr : AccAddress
  authority  : String

-- The stores of the module and the bank it calls.
structure State where
  bank          : Bank
  pools         : KVStore ℕ Pool
  poolLiquidity : KVStore (ℕ ×ₗ AccAddress) Coin
  params        : Option Params
  nextPoolId    : Option ℕ

def State.getNextPoolId (s : State) : ℕ :=
  s.nextPoolId.getD 1

def liquidityDenom (poolId : ℕ) : String :=
  s!"liquidity-{poolId}"

def liquidityKey (poolId : ℕ) (provider : AccAddress) : ℕ ×ₗ AccAddress :=
  toLex (poolId, provider)

def integerSqrt (value : ℤ) : ℤ :=
  if value < 0 then 0 else Nat.sqrt value.toNat

-- `LegacyMustNewDecFromStr`
def mustDecFromStr (str : String) : Result LegacyDec :=
  orFail (LegacyDec.fromStr str) (.panic "invalid decimal")

def validateFee (fee : String) (params : Params) : Result Unit := do
  let minFee ← mustDecFromStr params.minFee
  let maxFee ← mustDecFromStr params.maxFee
  let feeDec ← orFail (LegacyDec.fromStr fee) (.error "invalid fee format")
  failIf (feeDec.i < minFee.i ∨ feeDec.i > maxFee.i)
    (.error s!"fee {fee} outside allowed range [{params.minFee}, {params.maxFee}]")

def Keeper.createPool (k : Keeper) (creator : AccAddress) (tokenA tokenB : Coin) (fee : String)
    (s : State) : Result (State × ℕ) := do
  failIf (tokenA.denom = tokenB.denom) (.error "token denominations must be different")
  let poolId := s.getNextPoolId
  let params ← orFail s.params (.error "collections: not found")
  let fee := if fee = "" then params.defaultFee else fee
  validateFee fee params
  -- the uint64 parameter is read as an int64
  let minLiquidity := params.minLiquidity.toInt64.toInt
  failIf (tokenA.amount < minLiquidity ∨ tokenB.amount < minLiquidity)
    (.error "initial liquidity too low")
  let bank ← s.bank.sendCoins creator k.moduleAddr (← Coins.new [tokenA, tokenB])
  let liquidityAmount := integerSqrt (← MathInt.mul tokenA.amount tokenB.amount)
  let liquidityTokens ← Coin.new (liquidityDenom poolId) liquidityAmount
  let bank ← bank.mintCoins k.moduleAddr (← Coins.new [liquidityTokens])
  let bank ← bank.sendCoinsFromModuleToAccount k.moduleAddr creator (← Coins.new [liquidityTokens])
  let pool : Pool := {
    id             := poolId
    tokenADenom    := tokenA.denom
    tokenBDenom    := tokenB.denom
    tokenAReserve  := tokenA
    tokenBReserve  := tokenB
    totalLiquidity := liquidityTokens
    fee            := fee
    creator        := creator
  }
  let s' : State := {
    bank          := bank
    pools         := s.pools.set poolId pool
    poolLiquidity := s.poolLiquidity.set (liquidityKey poolId creator) liquidityTokens
    params        := s.params
    nextPoolId    := some (poolId + 1)
  }
  return (s', poolId)

def Keeper.addLiquidity (k : Keeper) (provider : AccAddress) (poolId : ℕ)
    (tokenAAmount tokenBAmount : Coin) (s : State) : Result State := do
  let pool ← orFail (s.pools.get poolId) (.error "pool not found")
  failIf (tokenAAmount.denom ≠ pool.tokenADenom ∨ tokenBAmount.denom ≠ pool.tokenBDenom)
    (.error "token denominations do not match pool")
  failIf (pool.tokenAReserve.amount = 0 ∨ pool.tokenBReserve.amount = 0)
    (.error "pool has been fully drained and can no longer accept liquidity")
  let liquidityA ← MathInt.quo
    (← MathInt.mul tokenAAmount.amount pool.totalLiquidity.amount) pool.tokenAReserve.amount
  let liquidityB ← MathInt.quo
    (← MathInt.mul tokenBAmount.amount pool.totalLiquidity.amount) pool.tokenBReserve.amount
  let liquidityToMint := if liquidityA < liquidityB then liquidityA else liquidityB
  failIf (liquidityToMint = 0) (.error "insufficient liquidity provided")
  let liquidityTokens ← Coin.new pool.totalLiquidity.denom liquidityToMint
  let bank ← s.bank.sendCoins provider k.moduleAddr (← Coins.new [tokenAAmount, tokenBAmount])
  let bank ← bank.mintCoins k.moduleAddr (← Coins.new [liquidityTokens])
  let bank ← bank.sendCoinsFromModuleToAccount k.moduleAddr provider (← Coins.new [liquidityTokens])
  let pool := { pool with
    tokenAReserve  := ← pool.tokenAReserve.add tokenAAmount
    tokenBReserve  := ← pool.tokenBReserve.add tokenBAmount
    totalLiquidity := ← pool.totalLiquidity.add liquidityTokens
  }
  let existingLiquidity := (s.poolLiquidity.get (liquidityKey poolId provider)).getD
    ⟨liquidityTokens.denom, 0⟩
  let newLiquidity ← existingLiquidity.add liquidityTokens
  return { s with
    bank          := bank
    pools         := s.pools.set poolId pool
    poolLiquidity := s.poolLiquidity.set (liquidityKey poolId provider) newLiquidity
  }

def Keeper.removeLiquidity (k : Keeper) (provider : AccAddress) (poolId : ℕ)
    (liquidityTokens : Coin) (s : State) : Result (State × Coin × Coin) := do
  let pool ← orFail (s.pools.get poolId) (.error "pool not found")
  let providerLiquidity ← orFail (s.poolLiquidity.get (liquidityKey poolId provider))
    (.error "insufficient liquidity tokens")
  failIf (providerLiquidity.amount < liquidityTokens.amount)
    (.error "insufficient liquidity tokens")
  let tokenAAmount ← MathInt.quo
    (← MathInt.mul liquidityTokens.amount pool.tokenAReserve.amount) pool.totalLiquidity.amount
  let tokenBAmount ← MathInt.quo
    (← MathInt.mul liquidityTokens.amount pool.tokenBReserve.amount) pool.totalLiquidity.amount
  let tokenAOut ← Coin.new pool.tokenADenom tokenAAmount
  let tokenBOut ← Coin.new pool.tokenBDenom tokenBAmount
  let bank ← s.bank.sendCoins provider k.moduleAddr (← Coins.new [liquidityTokens])
  let bank ← bank.burnCoins k.moduleAddr (← Coins.new [liquidityTokens])
  let bank ← bank.sendCoinsFromModuleToAccount k.moduleAddr provider
    (← Coins.new [tokenAOut, tokenBOut])
  let pool := { pool with
    tokenAReserve  := ← pool.tokenAReserve.sub tokenAOut
    tokenBReserve  := ← pool.tokenBReserve.sub tokenBOut
    totalLiquidity := ← pool.totalLiquidity.sub liquidityTokens
  }
  let newLiquidity ← providerLiquidity.sub liquidityTokens
  let s' := { s with
    bank          := bank
    pools         := s.pools.set poolId pool
    poolLiquidity :=
      if newLiquidity.amount = 0 then s.poolLiquidity.remove (liquidityKey poolId provider)
      else s.poolLiquidity.set (liquidityKey poolId provider) newLiquidity
  }
  return (s', tokenAOut, tokenBOut)

-- The `parseFeeDec` of the keeper package.
def parseFeeDec (fee : String) : LegacyDec :=
  let defaultFee := LegacyDec.withPrec 3 3
  if fee = "" then defaultFee else (LegacyDec.fromStr fee).getD defaultFee

def calculateSwap (tokenIn reserveIn reserveOut : Coin) (fee : String)
    (maxPoolDrainPercent : UInt32) : Result Coin := do
  let feeDec := parseFeeDec fee
  let amountInDec := LegacyDec.ofInt tokenIn.amount
  let reserveInDec := LegacyDec.ofInt reserveIn.amount
  let reserveOutDec := LegacyDec.ofInt reserveOut.amount
  let amountInAfterFee ← amountInDec.mul (← (LegacyDec.ofInt 1).sub feeDec)
  let numerator ← amountInAfterFee.mul reserveOutDec
  let denominator ← reserveInDec.add amountInAfterFee
  let amountOut ← numerator.quo denominator
  let maxDrainDec ← reserveOutDec.mul
    (← (LegacyDec.ofInt maxPoolDrainPercent.toNat).quo (LegacyDec.ofInt 100))
  let amountOut := if amountOut.i > maxDrainDec.i then maxDrainDec else amountOut
  Coin.new reserveOut.denom (← amountOut.truncateInt)

-- The source prints the percentage of the blocked swap's message with one decimal.
def swapBlocked (maxPoolDrainPercent : UInt32) (max requested : ℤ) : Failure :=
  .error <| s!"swap blocked: would drain {maxPoolDrainPercent}/100% of pool reserves " ++
    s!"(max: {max}, requested: {requested})"

-- The branches of `Swap` on the direction of the trade: the coin paid out and the reserve it is
-- taken from.
def Pool.quote (pool : Pool) (tokenIn : Coin) (tokenOutDenom : String)
    (maxPoolDrainPercent : UInt32) : Result (Coin × Coin) :=
  if tokenIn.denom = pool.tokenADenom ∧ tokenOutDenom = pool.tokenBDenom then do
    return (← calculateSwap tokenIn pool.tokenAReserve pool.tokenBReserve pool.fee
      maxPoolDrainPercent, pool.tokenBReserve)
  else if tokenIn.denom = pool.tokenBDenom ∧ tokenOutDenom = pool.tokenADenom then do
    return (← calculateSwap tokenIn pool.tokenBReserve pool.tokenAReserve pool.fee
      maxPoolDrainPercent, pool.tokenAReserve)
  else .error (.error "invalid token pair for swap")

def Pool.trade (pool : Pool) (tokenIn tokenOut : Coin) : Result Pool :=
  if tokenIn.denom = pool.tokenADenom then do
    return { pool with
      tokenAReserve := ← pool.tokenAReserve.add tokenIn
      tokenBReserve := ← pool.tokenBReserve.sub tokenOut
    }
  else do
    return { pool with
      tokenBReserve := ← pool.tokenBReserve.add tokenIn
      tokenAReserve := ← pool.tokenAReserve.sub tokenOut
    }

def Keeper.swap (k : Keeper) (sender : AccAddress) (poolId : ℕ) (tokenIn : Coin)
    (tokenOutDenom : String) (minTokenOut : Coin) (s : State) : Result (State × Coin) := do
  let pool ← orFail (s.pools.get poolId) (.error "pool not found")
  let params ← orFail s.params (.error "failed to get DEX parameters: collections: not found")
  let (tokenOut, reserveOut) ← pool.quote tokenIn tokenOutDenom params.maxPoolDrainPercent
  failIf (tokenOut.amount < minTokenOut.amount)
    (.error "insufficient output amount (slippage protection)")
  let maxDrainAmount ← MathInt.quo
    (← MathInt.mul reserveOut.amount params.maxPoolDrainPercent.toNat) 100
  failIf (tokenOut.amount > maxDrainAmount)
    (swapBlocked params.maxPoolDrainPercent maxDrainAmount tokenOut.amount)
  let bank ← s.bank.sendCoins sender k.moduleAddr (← Coins.new [tokenIn])
  let bank ← bank.sendCoinsFromModuleToAccount k.moduleAddr sender (← Coins.new [tokenOut])
  let pool ← pool.trade tokenIn tokenOut
  return ({ s with bank := bank, pools := s.pools.set poolId pool }, tokenOut)

def Keeper.updateParams (k : Keeper) (authority : String) (params : Params) (s : State) :
    Result State := do
  failIf (k.authority ≠ authority)
    (.error s!"invalid authority; expected {k.authority}, got {authority}")
  params.validate
  return { s with params := some params }

-- The messages of the module, with the accounts that signed them.
inductive Msg
  | createPool (creator : AccAddress) (tokenA tokenB : Coin) (fee : String)
  | addLiquidity (provider : AccAddress) (poolId : ℕ) (tokenAAmount tokenBAmount : Coin)
  | removeLiquidity (provider : AccAddress) (poolId : ℕ) (liquidityTokens : Coin)
  | swap (sender : AccAddress) (poolId : ℕ) (tokenIn : Coin) (tokenOutDenom : String)
    (minTokenOut : Coin)
  | updateParams (authority : String) (params : Params)

def Keeper.deliver (k : Keeper) (s : State) : Msg → Result State
  | .createPool creator tokenA tokenB fee => return (← k.createPool creator tokenA tokenB fee s).1
  | .addLiquidity provider poolId tokenA tokenB => k.addLiquidity provider poolId tokenA tokenB s
  | .removeLiquidity provider poolId tokens => return (← k.removeLiquidity provider poolId tokens s).1
  | .swap sender poolId tokenIn tokenOutDenom minTokenOut =>
    return (← k.swap sender poolId tokenIn tokenOutDenom minTokenOut s).1
  | .updateParams authority params => k.updateParams authority params s

end Dex
