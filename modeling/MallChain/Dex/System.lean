import MallChain.Lib.Transition
import MallChain.Dex.Effects

namespace Dex

open Sdk

-- What can happen between two states: a message of the module, or something that the rest of the
-- chain does with its coins.
inductive Action
  | deliver (m : Msg)
  | send (fromAddr toAddr : AccAddress) (amt : Coins)
  | mint (addr : AccAddress) (amt : Coins)
  | burn (addr : AccAddress) (amt : Coins)

namespace Msg

def signer : Msg → Option AccAddress
  | createPool creator .. => some creator
  | addLiquidity provider .. => some provider
  | removeLiquidity provider .. => some provider
  | swap sender .. => some sender
  | updateParams .. => none

end Msg

namespace Action

def signer : Action → Option AccAddress
  | deliver m => m.signer
  | send fromAddr .. => some fromAddr
  | mint .. => none
  | burn addr _ => some addr

-- Coins that are moved are valid, and only the module mints and burns its shares.
def Allowed : Action → Prop
  | deliver _ => True
  | send _ _ amt => amt.isValid = true
  | mint _ amt => amt.isValid = true ∧ ∀ c ∈ amt, ∀ id, c.denom ≠ liquidityDenom id
  | burn _ amt => amt.isValid = true ∧ ∀ c ∈ amt, ∀ id, c.denom ≠ liquidityDenom id

end Action

def Keeper.act (k : Keeper) (s : State) : Action → Result State
  | .deliver m => k.deliver s m
  | .send fromAddr toAddr amt => return { s with bank := ← s.bank.sendCoins fromAddr toAddr amt }
  | .mint addr amt => return { s with bank := ← s.bank.mintCoins addr amt }
  | .burn addr amt => return { s with bank := ← s.bank.burnCoins addr amt }

-- An action that fails is reverted.
def Keeper.next (k : Keeper) (s : State) (a : Action) : State :=
  match k.act s a with
  | .ok s' => s'
  | .error _ => s

-- The module before its first pool.
structure State.Empty (k : Keeper) (s : State) : Prop where
  pools   : s.pools = .empty
  records : s.poolLiquidity = .empty
  params  : ∀ params, s.params = some params → params.validate = .ok ()
  supply  : ∀ id, s.bank.supply (liquidityDenom id) = 0
  balance : ∀ d, 0 ≤ s.bank.balances k.moduleAddr d

def system (k : Keeper) : TransitionSystem State Action where
  init s      := s.Empty k
  step s a s' := a.Allowed ∧ s' = k.next s a

-- The module account has no key, so nobody signs for it.
def Keeper.Foreign (k : Keeper) (_ : State) (a : Action) : Prop :=
  a.signer ≠ some k.moduleAddr

-- The effects of an action of one account that succeeds. A message adds one pool, changes one, or
-- leaves all pools as they are; everything else only touches the bank.
inductive Effect (k : Keeper) (s s' : State) : Option AccAddress → Prop
  | created {creator : AccAddress} {pool : Pool} (h : Created k creator pool s s') :
    Effect k s s' (some creator)
  | replaced {user : AccAddress} {poolId : ℕ} {pool pool' : Pool}
    (h : Replaced k user poolId pool pool' s s')
    (change : (∃ a b, Deposited pool pool' a b) ∨ (∃ l, Withdrawn pool pool' l) ∨
      ∃ params a, s.params = some params ∧ Traded pool pool' params.maxPoolDrainPercent a) :
    Effect k s s' (some user)
  | params {params : Params} (valid : params.validate = .ok ())
    (h : s' = { s with params := some params }) : Effect k s s' none
  | bank {b : Bank} {signer : Option AccAddress} (h : s' = { s with bank := b })
    (balances : signer ≠ some k.moduleAddr →
      ∀ d, s.bank.balances k.moduleAddr d ≤ b.balances k.moduleAddr d)
    (supply : ∀ id, b.supply (liquidityDenom id) = s.bank.supply (liquidityDenom id)) :
    Effect k s s' signer

variable {k : Keeper} {s s' : State} {m : Msg} {a : Action}

theorem of_deliver (h : k.deliver s m = .ok s') : Effect k s s' m.signer := by
  cases m with
  | createPool creator tokenA tokenB fee =>
    simp only [Keeper.deliver, Result.bind_eq_ok, Result.pure_eq_ok] at h
    obtain ⟨_, h, he⟩ := h
    obtain ⟨_, _, hc⟩ := of_createPool h
    exact .created (he ▸ hc)
  | addLiquidity provider poolId tokenA tokenB =>
    obtain ⟨_, _, hr, hd⟩ := of_addLiquidity h
    exact .replaced hr <| .inl ⟨_, _, hd⟩
  | removeLiquidity provider poolId tokens =>
    simp only [Keeper.deliver, Result.bind_eq_ok, Result.pure_eq_ok] at h
    obtain ⟨_, h, he⟩ := h
    obtain ⟨_, _, hr, hw⟩ := of_removeLiquidity h
    exact .replaced (he ▸ hr) <| .inr <| .inl ⟨_, hw⟩
  | swap sender poolId tokenIn tokenOutDenom minTokenOut =>
    simp only [Keeper.deliver, Result.bind_eq_ok, Result.pure_eq_ok] at h
    obtain ⟨_, h, he⟩ := h
    obtain ⟨_, _, params, hp, hr, ht⟩ := of_swap h
    exact .replaced (he ▸ hr) <| .inr <| .inr ⟨params, _, hp, ht⟩
  | updateParams authority params =>
    simp only [Keeper.deliver, Keeper.updateParams, Result.bind_eq_ok, Result.pure_eq_ok] at h
    obtain ⟨_, _, _, hv, he⟩ := h
    exact .params hv he.symm

theorem amountOf_eq_zero {cs : Coins} {d : String} (h : ∀ c ∈ cs, c.denom ≠ d) :
    cs.amountOf d = 0 := by
  refine List.sum_eq_zero fun x hx => ?_
  obtain ⟨c, hc, he⟩ := List.mem_map.mp hx
  simpa [h c hc] using he.symm

theorem of_act (h : k.act s a = .ok s') (ha : a.Allowed) : Effect k s s' a.signer := by
  cases a with
  | deliver m => exact of_deliver h
  | send fromAddr toAddr amt =>
    simp only [Keeper.act, Result.bind_eq_ok, Result.pure_eq_ok] at h
    obtain ⟨b, hb, he⟩ := h
    have hc := Bank.of_sendCoins hb
    refine .bank he.symm (fun hs d => ?_) fun id => by simp [hc.supply]
    have hne : k.moduleAddr ≠ fromAddr := fun h => hs (h ▸ rfl)
    have hn := Coins.amountOf_nonneg_of_isValid ha d
    simp only [hc.balances, Pi.sub_apply, Bank.held, hne, if_false]
    split_ifs <;> omega
  | mint addr amt =>
    simp only [Keeper.act, Result.bind_eq_ok, Result.pure_eq_ok] at h
    obtain ⟨b, hb, he⟩ := h
    have hc := Bank.of_mintCoins hb
    refine .bank he.symm (fun _ d => ?_) fun id => ?_
    · have hn := Coins.amountOf_nonneg_of_isValid ha.1 d
      simp only [hc.balances, Bank.held]
      split_ifs <;> omega
    · simp [hc.supply, amountOf_eq_zero fun c hm => ha.2 c hm id]
  | burn addr amt =>
    simp only [Keeper.act, Result.bind_eq_ok, Result.pure_eq_ok] at h
    obtain ⟨b, hb, he⟩ := h
    have hc := Bank.of_burnCoins hb
    refine .bank he.symm (fun hs d => ?_) fun id => ?_
    · have hne : k.moduleAddr ≠ addr := fun h => hs (h ▸ rfl)
      simp [hc.balances, Bank.held, hne]
    · simp [hc.supply, amountOf_eq_zero fun c hm => ha.2 c hm id]

-- A step either has an effect or is reverted.
theorem of_step (h : (system k).step s a s') : Effect k s s' a.signer ∨ s' = s := by
  obtain ⟨ha, hs⟩ := h
  rw [Keeper.next] at hs
  split at hs
  case h_1 _ h => exact .inl (hs ▸ of_act h ha)
  case h_2 => exact .inr hs

theorem next_of_isOk (h : (k.act s a).isOk = true) : k.act s a = .ok (k.next s a) := by
  rw [Keeper.next]
  cases hs : k.act s a <;> simp_all [Except.isOk, Except.toBool]

-- A chain on which one account lists a pool and trades against it.
namespace Sample

def keeper : Keeper where
  moduleAddr := .ofBytes [100]
  authority  := "gov"

def alice : AccAddress :=
  .ofBytes [1]

def genesis : State where
  bank          := {
    balances     := fun a d => if a = alice ∧ (d = "uatom" ∨ d = "umlcn") then 1000000 else 0
    supply       := fun d => if d = "uatom" ∨ d = "umlcn" then 1000000 else 0
    blockedAddrs := fun _ => false
  }
  pools         := .empty
  poolLiquidity := .empty
  params        := some defaultParams
  nextPoolId    := some 1

def list : Msg :=
  .createPool alice ⟨"uatom", 5000⟩ ⟨"umlcn", 8000⟩ ""

def trade : Msg :=
  .swap alice 1 ⟨"uatom", 1000⟩ "umlcn" ⟨"umlcn", 1⟩

def listed : State :=
  keeper.next genesis (.deliver list)

def traded : State :=
  keeper.next listed (.deliver trade)

theorem genesis_empty : genesis.Empty keeper where
  pools     := rfl
  records   := rfl
  params _ h := by
    cases h
    exact Params.defaultParams_validate
  supply id := by
    have hne : ∀ d, d ∈ ["uatom", "umlcn"] → liquidityDenom id ≠ d := by
      intro d hd he
      have hl := congrArg (fun d => d.toList.take 1) he
      simp only [List.mem_cons, List.not_mem_nil, or_false] at hd
      rcases hd with rfl | rfl <;> simp [liquidityDenom, toString] at hl
    simp [genesis, hne "uatom", hne "umlcn"]
  balance d := by
    simp only [genesis]
    split_ifs <;> decide

theorem listed_run : (system keeper).Run keeper.Foreign listed :=
  .step (a := .deliver list) (.init genesis_empty) (by decide : _ ≠ _) ⟨trivial, rfl⟩

theorem traded_run : (system keeper).Run keeper.Foreign traded :=
  .step (a := .deliver trade) listed_run (by decide : _ ≠ _) ⟨trivial, rfl⟩

end Sample

end Dex
