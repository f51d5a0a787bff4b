import MallChain.Lib.Interleaving
import MallChain.Lib.KVStore

namespace Liquidity

open Interleaving

-- The numbers of the language. None of the operations is taken to be exact.
structure Arithmetic (ν : Type) where
  ofRat    : ℚ → ν
  nan      : ν
  parse    : String → ν
  text     : ν → String
  toFixed  : ν → ℕ → String
  add      : ν → ν → ν
  sub      : ν → ν → ν
  mul      : ν → ν → ν
  div      : ν → ν → ν
  pow      : ν → ν → ν
  max      : ν → ν → ν
  sqrt     : ν → ν
  round    : ν → ν
  eq       : ν → ν → Bool
  lt       : ν → ν → Bool
  le       : ν → ν → Bool
  isFinite : ν → Bool
  isNaN    : ν → Bool

-- A value of a request or of an answer.
inductive Value (ν : Type)
  | undefined
  | null
  | boolean (b : Bool)
  | number (x : ν)
  | string (s : String)
  -- an array or an object, with the text that it is converted to
  | object (text : String)
  deriving DecidableEq, Repr

structure MarketPrice (ν : Type) where
  buyPrice  : Value ν
  sellPrice : Value ν

structure Trade (ν : Type) where
  timestamp  : Value ν
  price      : Value ν
  mlcnAmount : Value ν
  kesAmount  : Value ν

-- What the chain answers, where that can be read. The trades are seen at a time of their own.
structure Fetched (ν : Type) where
  marketPrice : Option (MarketPrice ν)
  balances    : Option (List (String × Value ν))
  trades      : Option (List (Trade ν))
  tradesAt    : ℤ
  fails       : Bool := false

structure Config (ν : Type) where
  poolToken0Denom    : String
  poolToken1Denom    : String
  poolToken0Decimals : ν
  poolToken1Decimals : ν
  cacheDuration      : ν
  poolAccountAddress : String
  liqDefaultApy      : ν
  liqDefaultFee      : ν
  operatorMnemonic   : String

-- The names that every object inherits are no addresses.
structure LiquidityPool (ν : Type) where
  id               : ν
  name             : String
  token0           : String
  token1           : String
  reserve0         : ν
  reserve1         : ν
  tvl              : ν
  apy              : ν
  volume24h        : ν
  fee              : ν
  totalLiquidity   : ν
  userPositions    : KVStore String ν := .empty
  priceMlcn        : ν
  priceKes         : ν
  blockchainSource : Bool
  fetchedAt        : Option ℤ := none
  source           : Option String := none

variable {ν : Type} (A : Arithmetic ν) (config : Config ν)

namespace Arithmetic

def zero : ν :=
  A.ofRat 0

def isTruthyNumber (x : ν) : Bool :=
  !(A.isNaN x || A.eq x A.zero)

def or (x y : ν) : ν :=
  if A.isTruthyNumber x then x else y

def isTruthy : Value ν → Bool
  | .undefined | .null => false
  | .boolean b         => b
  | .number x          => A.isTruthyNumber x
  | .string s          => s ≠ ""
  | .object _          => true

-- `Number(value)`
def toNumber : Value ν → ν
  | .undefined            => A.nan
  | .null                 => A.zero
  | .boolean b            => A.ofRat (if b then 1 else 0)
  | .number x             => x
  | .string s | .object s => A.parse s

-- `String(value)`
def toText : Value ν → String
  | .undefined            => "undefined"
  | .null                 => "null"
  | .boolean b            => if b then "true" else "false"
  | .number x             => A.text x
  | .string s | .object s => s

-- `Number(value || 0)`
def numberOrZero (value : Value ν) : ν :=
  if A.isTruthy value then A.toNumber value else A.zero

def sumOf : List ν → ν :=
  List.foldl A.add A.zero

end Arithmetic

-- An error with the text that it is converted to.
structure Failure where
  message : String
  text    : String
  deriving DecidableEq, Repr

def Failure.new (message : String) : Failure where
  message
  text := s!"Error: {message}"

def asAmount (value : Value ν) (field : String) : Except Failure ν :=
  let n := A.toNumber value
  if !A.isFinite n || A.le n A.zero then
    .error (.new s!"Invalid {field}: must be a positive numeric value")
  else .ok n

def parseAmount (amount : Value ν) (decimals : ν) : ν :=
  let num := A.numberOrZero amount
  if !A.isFinite num || A.lt num A.zero then A.zero
  else
    let factor := A.pow (A.ofRat 10) (A.or decimals A.zero)
    if A.isTruthyNumber factor then A.div num factor else num

def Trade.valueKes (t : Trade ν) : ν :=
  let price := A.div (A.numberOrZero t.price) (A.ofRat 100)
  let valueKes := A.or (A.numberOrZero t.kesAmount) (A.mul (A.numberOrZero t.mlcnAmount) price)
  if A.isFinite valueKes then valueKes else A.zero

def fetchTradeVolume24h (trades : Option (List (Trade ν))) (now : ℤ) : ν :=
  match trades with
  | none        => A.zero
  | some trades =>
    let dayAgo := A.sub (A.div (A.ofRat now) (A.ofRat 1000)) (A.ofRat 86400)
    A.sumOf ((trades.filter fun t => A.le dayAgo (A.numberOrZero t.timestamp)).map (·.valueKes A))

def fetchPoolReserves (balances : Option (List (String × Value ν))) : ν × ν :=
  match balances with
  | none          => (A.zero, A.zero)
  | some balances =>
    if config.poolAccountAddress = "" then (A.zero, A.zero)
    else
      let findAmount (denom : String) (decimals : ν) : ν :=
        parseAmount A ((balances.lookup denom).getD .undefined) decimals
      (findAmount config.poolToken0Denom config.poolToken0Decimals,
        findAmount config.poolToken1Denom config.poolToken1Decimals)

def fetchMarketPrices : Option (MarketPrice ν) → ν × ν
  | none    => (A.ofRat 0.6, A.ofRat 1)
  | some mp =>
    (A.div (A.add (A.toNumber mp.buyPrice) (A.toNumber mp.sellPrice)) (A.ofRat 200), A.ofRat 1)

def calculateTVL (reserve0 reserve1 priceMlcn priceKes : ν) : ν :=
  A.add (A.mul reserve0 priceMlcn) (A.mul reserve1 priceKes)

-- The only pool that is built, as an object of its own.
def fetchPoolsFromBlockchain (fetched : Fetched ν) (now : ℤ) : LiquidityPool ν :=
  if fetched.fails then {
    id               := A.ofRat 2
    name             := "MLCN/KES"
    token0           := "MLCN"
    token1           := "KES"
    reserve0         := A.zero
    reserve1         := A.zero
    tvl              := A.zero
    apy              := A.zero
    volume24h        := A.zero
    fee              := A.ofRat 0.3
    totalLiquidity   := A.zero
    priceMlcn        := A.zero
    priceKes         := A.ofRat 1
    blockchainSource := false
    source           := some "calculated-fallback"
  }
  else
    let (priceMlcn, priceKes) := fetchMarketPrices A fetched.marketPrice
    let (reserve0, reserve1) := fetchPoolReserves A config fetched.balances
    let volume24h := fetchTradeVolume24h A fetched.trades fetched.tradesAt
    {
      id               := A.ofRat 2
      name             := "MLCN/KES"
      token0           := "MLCN"
      token1           := "KES"
      reserve0
      reserve1
      tvl              := A.round (calculateTVL A reserve0 reserve1 priceMlcn priceKes)
      apy              := config.liqDefaultApy
      volume24h        := A.round (A.or volume24h A.zero)
      fee              := config.liqDefaultFee
      totalLiquidity   := A.add reserve0 reserve1
      priceMlcn
      priceKes
      blockchainSource := true
      fetchedAt        := some now
    }

namespace LiquidityPool

variable (pool : LiquidityPool ν) (user : String)

-- `pool.userPositions[userAddress] || 0`
def position : ν :=
  match pool.userPositions.get user with
  | some x => A.or x A.zero
  | none   => A.zero

def poolTokenPrice : ν :=
  A.or pool.priceMlcn (A.ofRat 0.6)

def calculatedTvl : ν :=
  A.round (A.add (A.mul pool.reserve0 (pool.poolTokenPrice A)) pool.reserve1)

def shareOfPool (lpTokens : ν) : ν :=
  if A.lt A.zero pool.totalLiquidity then
    A.mul (A.div lpTokens pool.totalLiquidity) (A.ofRat 100)
  else A.zero

-- The changes of `addLiquidityToPool`.
def addLiquidity (a0 a1 : ν) : LiquidityPool ν :=
  let lpTokens := A.sqrt (A.mul a0 a1)
  let pool := { pool with
    reserve0       := A.add pool.reserve0 a0
    reserve1       := A.add pool.reserve1 a1
    totalLiquidity := A.add pool.totalLiquidity lpTokens
    userPositions  := pool.userPositions.set user (A.add (pool.position A user) lpTokens)
  }
  { pool with tvl := pool.calculatedTvl A }

-- The changes of `removeLiquidity`, with the position and the amounts that were read before.
def removeLiquidity (lp userLiquidity amount0 amount1 : ν) : LiquidityPool ν :=
  let pool := { pool with
    reserve0       := A.max A.zero (A.sub pool.reserve0 amount0)
    reserve1       := A.max A.zero (A.sub pool.reserve1 amount1)
    totalLiquidity := A.max A.zero (A.sub pool.totalLiquidity lp)
    userPositions  := pool.userPositions.set user (A.max A.zero (A.sub userLiquidity lp))
  }
  { pool with tvl := pool.calculatedTvl A }

end LiquidityPool

inductive Reply (ν : Type)
  | pools (pools : List (LiquidityPool ν)) (cached : Bool)
  | pool (pool : LiquidityPool ν)
  | position (poolName : String) (lpTokens shareOfPool estimatedValue : String)
  | added (message : String) (pool : LiquidityPool ν)
    (lpTokens txHash userPosition shareOfPool : String) (slippage : ν)
  | removed (message : String) (pool : LiquidityPool ν)
    (amountReceived0 amountReceived1 txHash remainingPosition shareOfPool : String) (slippage : ν)
  | error (statusCode : ℕ) (error : String) (details : Option String) (available : Option ν)

-- The module with all objects that were built for pools. The pools themselves are references.
structure World (ν : Type) where
  objects        : List (LiquidityPool ν) := []
  pools          : List ℕ := []
  poolsCache     : Option (List ℕ) := none
  poolsCacheTime : ℤ := 0
  now            : ℤ
  replies        : List (Reply ν) := []

namespace World

variable (w : World ν)

def reply (r : Reply ν) : World ν :=
  { w with replies := r :: w.replies }

def refuse (statusCode : ℕ) (error : String) (details : Option String) (available : Option ν) :
    World ν :=
  w.reply (.error statusCode error details available)

-- `pools.find(p => p.id === poolId)`, with the reference of the object.
def findPool (poolId : ν) : Option (ℕ × LiquidityPool ν) :=
  w.pools.findSome? fun r => (w.objects[r]?.filter fun pool => A.eq pool.id poolId).map (r, ·)

-- The position that is recorded for a user.
def recorded (poolId : ν) (user : String) : ν :=
  match w.findPool A poolId with
  | some (_, pool) => pool.position A user
  | none           => A.zero

def modify (r : ℕ) (f : LiquidityPool ν → LiquidityPool ν) : World ν :=
  { w with objects := w.objects.modify r f }

def replacePools (fresh : LiquidityPool ν) (time : ℤ) : World ν :=
  { w with
    objects        := w.objects ++ [fresh]
    pools          := [w.objects.length]
    poolsCache     := some [w.objects.length]
    poolsCacheTime := time
  }

def cachedPools : Option (List ℕ) :=
  w.poolsCache.filter fun _ => A.lt (A.ofRat (w.now - w.poolsCacheTime)) config.cacheDuration

def replyCached : World ν :=
  match w.cachedPools A config with
  | some pools => w.reply (.pools (pools.filterMap (w.objects[·]?)) true)
  | none       => w

end World

inductive Label
  -- the pools stay as they are
  | other
  -- `pools` is assigned
  | replacing
  | adding (pool : ℕ) (user : String)
  | removing (pool : ℕ) (user : String)
  deriving DecidableEq, Repr

abbrev Handler (ν : Type) := Prog Label (World ν)

def ensurePoolsLoaded (fetched : Fetched ν) : Handler ν Unit := do
  if ← .read .other (·.pools.isEmpty) then
    let fresh ← .read .other fun w => fetchPoolsFromBlockchain A config fetched w.now
    .write .replacing fun w => w.replacePools fresh w.now
  else .done ()

def getAllPools (fetched : Fetched ν) : Handler ν Unit := do
  let (cached, now) ←
    .act .other (·.replyCached A config) fun w => ((w.cachedPools A config).isSome, w.now)
  if cached then .done ()
  else
    let fresh ← .read .other fun w => fetchPoolsFromBlockchain A config fetched w.now
    .write .replacing fun w => (w.replacePools fresh now).reply (.pools [fresh] false)

def getPool (poolId : Value ν) (fetched : Fetched ν) : Handler ν Unit := do
  ensurePoolsLoaded A config fetched
  .write .other fun w =>
    match w.findPool A (A.toNumber poolId) with
    | none           => w.refuse 404 "Pool not found" none none
    | some (_, pool) => w.reply (.pool pool)

def getUserPosition (poolId userAddress : Value ν) (fetched : Fetched ν) : Handler ν Unit :=
  if !A.isTruthy poolId || !A.isTruthy userAddress then
    .write .other (·.refuse 400 "Missing required fields: poolId, userAddress" none none)
  else do
    ensurePoolsLoaded A config fetched
    .write .other fun w =>
      match w.findPool A (A.toNumber poolId) with
      | none           => w.refuse 404 "Pool not found" none none
      | some (_, pool) =>
        let user := A.toText userAddress
        let lpTokens := pool.position A user
        let estimatedValue := A.mul lpTokens (pool.poolTokenPrice A)
        w.reply (.position pool.name (A.toFixed lpTokens 6) (A.toFixed (pool.shareOfPool A lpTokens) 2)
          (A.toFixed estimatedValue 2))

-- What the wallet and the chain answer: how either fails, or the hash of the transaction.
structure OnChain where
  addressFails : Option Failure := none
  transaction  : Except Failure String

structure AddRequest (ν : Type) where
  poolId      : Value ν
  amount0     : Value ν
  amount1     : Value ν
  userAddress : Value ν
  fetched     : Fetched ν
  onChain     : OnChain

structure RemoveRequest (ν : Type) where
  poolId      : Value ν
  lpTokens    : Value ν
  slippage    : Value ν
  userAddress : Value ν
  fetched     : Fetched ν
  onChain     : OnChain

-- What `addLiquidityToPool` returns, with the pool by its reference.
structure Addition where
  message      : String
  pool         : ℕ
  lpTokens     : String
  txHash       : String
  userPosition : String
  shareOfPool  : String

def isUndefined : Value ν → Bool
  | .undefined => true
  | _          => false

-- The checks of an addition after the pools are loaded.
def checkAddition (req : AddRequest ν) (found : Option (ℕ × LiquidityPool ν)) :
    Except Failure (ℕ × LiquidityPool ν × ν × ν) :=
  match found with
  | none           => .error (.new "Pool not found")
  | some (r, pool) => do
    if isUndefined req.amount0 || isUndefined req.amount1 then
      .error (.new "Both amount0 and amount1 are required to add liquidity")
    else
      let a0 ← asAmount A req.amount0 "amount0"
      let a1 ← asAmount A req.amount1 "amount1"
      if config.operatorMnemonic = "" then
        .error (.new "Missing OPERATOR_MNEMONIC for on-chain liquidity additions")
      else .ok (r, pool, a0, a1)

def addition (r : ℕ) (pool : LiquidityPool ν) (a0 a1 : ν) (user txHash : String) : Addition :=
  let position := (pool.userPositions.get user).getD A.zero
  {
    message      := s!"Liquidity added on-chain to {pool.name}"
    pool         := r
    lpTokens     := A.toFixed (A.sqrt (A.mul a0 a1)) 6
    txHash
    userPosition := A.toFixed position 6
    shareOfPool  := A.toFixed (pool.shareOfPool A position) 2
  }

def addLiquidityToPool (req : AddRequest ν) : Handler ν (Except Failure Addition) :=
  if !A.isTruthy req.poolId then .done (.error (.new "Missing required field: poolId"))
  else if !A.isTruthy req.userAddress then .done (.error (.new "Missing required field: userAddress"))
  else do
    ensurePoolsLoaded A config req.fetched
    let found ← .read .other (·.findPool A (A.toNumber req.poolId))
    match checkAddition A config req found with
    | .error e             => .done (.error e)
    | .ok (r, pool, a0, a1) =>
      .skip .other
      match req.onChain.addressFails, req.onChain.transaction with
      | some e, _           => .done (.error e)
      | none, .error e      => do
        .skip .other
        .done (.error e)
      | none, .ok txHash    => do
        .skip .other
        let user := A.toText req.userAddress
        .act (.adding r user) (·.modify r (·.addLiquidity A user a0 a1)) fun w =>
          .ok (addition A r ((w.objects[r]?.getD pool).addLiquidity A user a0 a1) a0 a1 user txHash)

def addLiquidity (req : AddRequest ν) (slippage : Value ν) : Handler ν Unit :=
  if !A.isTruthy req.poolId then
    .write .other (·.refuse 400 "Missing required field: poolId" none none)
  else if !A.isTruthy req.userAddress then
    .write .other (·.refuse 400 "Missing required field: userAddress" none none)
  else if isUndefined req.amount0 || isUndefined req.amount1 then
    .write .other (·.refuse 400
      "Missing required fields: amount0 and amount1 are required for liquidity addition" none none)
  else do
    match ← addLiquidityToPool A config req with
    | .error e      => .write .other (·.refuse 500 "Failed to add liquidity" (some e.text) none)
    | .ok liquidity => .write .other fun w =>
      match w.objects[liquidity.pool]? with
      | none      => w
      | some pool => w.reply (.added liquidity.message pool liquidity.lpTokens liquidity.txHash
        liquidity.userPosition liquidity.shareOfPool (A.numberOrZero slippage))

-- What is known of a removal before the first call to the chain.
structure Removal (ν : Type) where
  lp            : ν
  slip          : ν
  userLiquidity : ν
  amount0       : ν
  amount1       : ν

-- A refusal with its status, and what else is said.
structure Refusal (ν : Type) where
  statusCode : ℕ
  error      : String
  available  : Option ν := none

-- The checks of a removal after the pools are loaded.
def checkRemoval (req : RemoveRequest ν) (pool : LiquidityPool ν) :
    Except (Refusal ν) (Removal ν) :=
  match asAmount A req.lpTokens "lpTokens" with
  | .error e => .error { statusCode := 400, error := e.message }
  | .ok lp   =>
    let slip := A.numberOrZero req.slippage
    if A.isNaN slip || A.lt slip A.zero || A.lt (A.ofRat 5) slip then
      .error { statusCode := 400, error := "invalid slippage (0-5 allowed)" }
    else
      let userLiquidity := pool.position A (A.toText req.userAddress)
      if A.le userLiquidity A.zero then
        .error { statusCode := 400, error := "No liquidity found for user" }
      else if A.lt (A.add userLiquidity (A.ofRat 1e-8)) lp then
        .error {
          statusCode := 400
          error      := "Insufficient liquidity to remove"
          available  := some userLiquidity
        }
      else if config.operatorMnemonic = "" then
        .error { statusCode := 500, error := "Missing OPERATOR_MNEMONIC for on-chain liquidity removal" }
      else
        let shareRatio := A.div lp pool.totalLiquidity
        .ok {
          lp
          slip
          userLiquidity
          amount0 := A.mul pool.reserve0 shareRatio
          amount1 := A.mul pool.reserve1 shareRatio
        }

def removalReply (pool : LiquidityPool ν) (removal : Removal ν) (user txHash : String) : Reply ν :=
  let position := pool.position A user
  .removed s!"Successfully removed {A.toFixed removal.lp 2} LP tokens from {pool.name}" pool
    (A.toFixed removal.amount0 6) (A.toFixed removal.amount1 6) txHash
    (A.toFixed position 6) (A.toFixed (pool.shareOfPool A position) 2) removal.slip

-- The step that changes the pool and answers.
def finishRemoval (r : ℕ) (pool : LiquidityPool ν) (removal : Removal ν) (user txHash : String)
    (w : World ν) : World ν :=
  let f (pool : LiquidityPool ν) : LiquidityPool ν :=
    pool.removeLiquidity A user removal.lp removal.userLiquidity removal.amount0 removal.amount1
  (w.modify r f).reply (removalReply A (f (w.objects[r]?.getD pool)) removal user txHash)

def removeLiquidity (req : RemoveRequest ν) : Handler ν Unit :=
  if !A.isTruthy req.poolId then
    .write .other (·.refuse 400 "Missing required field: poolId" none none)
  else if !A.isTruthy req.userAddress then
    .write .other (·.refuse 400 "Missing required field: userAddress" none none)
  else do
    ensurePoolsLoaded A config req.fetched
    match ← .read .other (·.findPool A (A.toNumber req.poolId)) with
    | none           => .write .other (·.refuse 404 "Pool not found" none none)
    | some (r, pool) =>
      match checkRemoval A config req pool with
      | .error e    => .write .other (·.refuse e.statusCode e.error none e.available)
      | .ok removal =>
        .skip .other
        match req.onChain.addressFails, req.onChain.transaction with
        | some e, _        => .write .other (·.refuse 500 "Failed to remove liquidity" (some e.text) none)
        | none, .error e   => do
          .skip .other
          .write .other (·.refuse 502 "Failed to remove liquidity on-chain" (some e.message) none)
        | none, .ok txHash => do
          .skip .other
          let user := A.toText req.userAddress
          .write (.removing r user) (finishRemoval A r pool removal user txHash)

inductive Request (ν : Type)
  | clock (now : ℤ)
  | getAllPools (fetched : Fetched ν)
  | getPool (poolId : Value ν) (fetched : Fetched ν)
  | getUserPosition (poolId userAddress : Value ν) (fetched : Fetched ν)
  | addLiquidity (req : AddRequest ν) (slippage : Value ν)
  | addLiquidityToPool (req : AddRequest ν)
  | removeLiquidity (req : RemoveRequest ν)

def handler : Request ν → Handler ν Unit
  | .clock now                                   => .write .other fun w => { w with now }
  | .getAllPools fetched                         => getAllPools A config fetched
  | .getPool poolId fetched                      => getPool A config poolId fetched
  | .getUserPosition poolId userAddress fetched  => getUserPosition A config poolId userAddress fetched
  | .addLiquidity req slippage                   => addLiquidity A config req slippage
  | .addLiquidityToPool req                      => do
    let _ ← addLiquidityToPool A config req
    .done ()
  | .removeLiquidity req                         => removeLiquidity A config req

def liquiditySystem : TransitionSystem (Pool Label (World ν)) (Action (Request ν)) :=
  system (fun w => ∃ now, w = { now }) (handler A config)

end Liquidity
