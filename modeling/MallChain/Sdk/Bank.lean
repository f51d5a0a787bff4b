import MallChain.Sdk.Coins

namespace Sdk

structure AccAddress where
  bytes : List (Fin 256)
  deriving DecidableEq, Repr

-- An address with its bytes as numbers.
def AccAddress.ofBytes (bytes : List ℕ) : AccAddress :=
  ⟨bytes.map (Fin.ofNat 256)⟩

instance linearOrderAccAddress : LinearOrder AccAddress :=
  LinearOrder.lift' AccAddress.bytes fun a b h => by cases a; cases b; simp_all

-- The bank keeper: balances, supplies and the accounts that module accounts must not pay.
structure Bank where
  balances     : AccAddress → String → ℤ
  supply       : String → ℤ
  blockedAddrs : AccAddress → Bool

namespace Bank

def empty : Bank where
  balances _ _   := 0
  supply _       := 0
  blockedAddrs _ := false

def setBalance (b : Bank) (addr : AccAddress) (denom : String) (amount : ℤ) : Bank :=
  { b with balances := fun a d => if a = addr ∧ d = denom then amount else b.balances a d }

def setSupply (b : Bank) (denom : String) (amount : ℤ) : Bank :=
  { b with supply := fun d => if d = denom then amount else b.supply d }

def subUnlockedCoins (addr : AccAddress) : Coins → Bank → Result Bank
  | [], b => .ok b
  | c :: cs, b => do
    failIf (b.balances addr c.denom < c.amount) (.error "insufficient funds")
    subUnlockedCoins addr cs <| b.setBalance addr c.denom (b.balances addr c.denom - c.amount)

def addCoins (addr : AccAddress) : Coins → Bank → Result Bank
  | [], b => .ok b
  | c :: cs, b => do
    let newBalance ← MathInt.add (b.balances addr c.denom) c.amount
    addCoins addr cs <| b.setBalance addr c.denom newBalance

def addSupply : Coins → Bank → Result Bank
  | [], b => .ok b
  | c :: cs, b => do
    addSupply cs <| b.setSupply c.denom (← MathInt.add (b.supply c.denom) c.amount)

def subSupply : Coins → Bank → Result Bank
  | [], b => .ok b
  | c :: cs, b => do
    subSupply cs <| b.setSupply c.denom (← MathInt.sub (b.supply c.denom) c.amount)

def sendCoins (b : Bank) (fromAddr toAddr : AccAddress) (amt : Coins) : Result Bank := do
  addCoins toAddr amt (← subUnlockedCoins fromAddr amt b)

def sendCoinsFromModuleToAccount (b : Bank) (moduleAddr recipient : AccAddress) (amt : Coins) :
    Result Bank := do
  failIf (b.blockedAddrs recipient = true) (.error "not allowed to receive funds")
  b.sendCoins moduleAddr recipient amt

def mintCoins (b : Bank) (moduleAddr : AccAddress) (amt : Coins) : Result Bank := do
  addSupply amt (← addCoins moduleAddr amt b)

def burnCoins (b : Bank) (moduleAddr : AccAddress) (amt : Coins) : Result Bank := do
  subSupply amt (← subUnlockedCoins moduleAddr amt b)

-- `b'` is `b` with `δ` added to the balances and `σ` to the supplies.
structure Changed (b b' : Bank) (δ : AccAddress → String → ℤ) (σ : String → ℤ) : Prop where
  balances     : ∀ a d, b'.balances a d = b.balances a d + δ a d
  supply       : ∀ d, b'.supply d = b.supply d + σ d
  blockedAddrs : b'.blockedAddrs = b.blockedAddrs

-- The coins as a change of the balances of one account.
def held (addr : AccAddress) (cs : Coins) (a : AccAddress) (d : String) : ℤ :=
  if a = addr then cs.amountOf d else 0

variable {b b' b'' : Bank} {addr addr' : AccAddress} {cs : Coins}
variable {δ δ' : AccAddress → String → ℤ} {σ σ' : String → ℤ}

namespace Changed

theorem refl (b : Bank) : Changed b b 0 0 where
  balances _ _ := by simp
  supply _     := by simp
  blockedAddrs := rfl

theorem trans (h : Changed b b' δ σ) (h' : Changed b' b'' δ' σ') :
    Changed b b'' (δ + δ') (σ + σ') where
  balances a d := by simp [h'.balances, h.balances, add_assoc]
  supply d     := by simp [h'.supply, h.supply, add_assoc]
  blockedAddrs := h'.blockedAddrs.trans h.blockedAddrs

theorem congr (h : Changed b b' δ σ) (hδ : ∀ a d, δ a d = δ' a d) (hσ : ∀ d, σ d = σ' d) :
    Changed b b' δ' σ' where
  balances a d := hδ a d ▸ h.balances a d
  supply d     := hσ d ▸ h.supply d
  blockedAddrs := h.blockedAddrs

end Changed

theorem setBalance_changed (b : Bank) (addr : AccAddress) (denom : String) (amount : ℤ) :
    Changed b (b.setBalance addr denom (b.balances addr denom + amount))
      (held addr [⟨denom, amount⟩]) 0 where
  balances a d := by
    by_cases ha : a = addr <;> by_cases hd : d = denom <;>
      simp [setBalance, held, ha, hd, eq_comm (a := denom)]
  supply _     := by simp [setBalance]
  blockedAddrs := rfl

theorem setSupply_changed (b : Bank) (denom : String) (amount : ℤ) :
    Changed b (b.setSupply denom (b.supply denom + amount)) 0 (Coins.amountOf [⟨denom, amount⟩]) where
  balances _ _ := by simp [setSupply]
  supply d     := by by_cases hd : d = denom <;> simp [setSupply, hd, eq_comm (a := denom)]
  blockedAddrs := rfl

theorem held_cons (c : Coin) (cs : Coins) : held addr (c :: cs) = held addr [c] + held addr cs := by
  funext a d
  by_cases ha : a = addr <;> simp [held, ha]

theorem held_neg {c : Coin} : held addr [⟨c.denom, -c.amount⟩] = -held addr [c] := by
  funext a d
  by_cases ha : a = addr <;> by_cases hd : c.denom = d <;> simp [held, ha, hd]

theorem amountOf_neg {c : Coin} :
    Coins.amountOf [⟨c.denom, -c.amount⟩] = -Coins.amountOf [c] := by
  funext d
  by_cases hd : c.denom = d <;> simp [hd]

theorem of_subUnlockedCoins : {cs : Coins} → {b : Bank} → subUnlockedCoins addr cs b = .ok b' →
    Changed b b' (-held addr cs) 0
  | [], b, h => by
    cases h
    exact (Changed.refl _).congr (by simp [held]) (by simp)
  | c :: cs, b, h => by
    simp only [subUnlockedCoins, Result.bind_eq_ok] at h
    obtain ⟨_, _, h⟩ := h
    have hc := setBalance_changed b addr c.denom (-c.amount)
    have hcs := hc.trans (of_subUnlockedCoins h)
    exact hcs.congr (by simp [held_cons c cs, held_neg, add_comm]) (by simp)

-- Nothing but missing coins can keep an account from paying.
theorem subUnlockedCoins_ok (hn : (cs.map Coin.denom).Nodup)
    (hf : ∀ c ∈ cs, c.amount ≤ b.balances addr c.denom) :
    ∃ b', subUnlockedCoins addr cs b = .ok b' := by
  induction cs generalizing b with
  | nil => exact ⟨b, rfl⟩
  | cons c cs ih =>
    obtain ⟨hc, hn⟩ := List.nodup_cons.mp hn
    have hlt : ¬b.balances addr c.denom < c.amount := not_lt.mpr (hf c (List.mem_cons_self ..))
    obtain ⟨b', hb⟩ := ih (b := b.setBalance addr c.denom (b.balances addr c.denom - c.amount)) hn
      fun c' hc' => by
        have hne : c'.denom ≠ c.denom := fun he => hc (he ▸ List.mem_map_of_mem hc')
        simpa [setBalance, hne] using hf c' (List.mem_cons_of_mem _ hc')
    exact ⟨b', by simp [subUnlockedCoins, failIf, hlt, hb, Result.ok_bind]⟩

theorem of_addCoins : {cs : Coins} → {b : Bank} → addCoins addr cs b = .ok b' →
    Changed b b' (held addr cs) 0
  | [], b, h => by
    cases h
    exact (Changed.refl _).congr (by simp [held]) (by simp)
  | c :: cs, b, h => by
    simp only [addCoins, Result.bind_eq_ok] at h
    obtain ⟨_, hx, h⟩ := h
    cases MathInt.of_add hx
    exact ((setBalance_changed ..).trans (of_addCoins h)).congr (by simp [held_cons c cs]) (by simp)

theorem of_addSupply : {cs : Coins} → {b : Bank} → addSupply cs b = .ok b' →
    Changed b b' 0 (Coins.amountOf cs)
  | [], b, h => by
    cases h
    exact (Changed.refl _).congr (by simp) (by simp)
  | c :: cs, b, h => by
    simp only [addSupply, Result.bind_eq_ok] at h
    obtain ⟨_, hx, h⟩ := h
    cases MathInt.of_add hx
    exact ((setSupply_changed ..).trans (of_addSupply h)).congr (by simp) (by simp)

theorem of_subSupply : {cs : Coins} → {b : Bank} → subSupply cs b = .ok b' →
    Changed b b' 0 (-Coins.amountOf cs)
  | [], b, h => by
    cases h
    exact (Changed.refl _).congr (by simp) (by simp)
  | c :: cs, b, h => by
    simp only [subSupply, Result.bind_eq_ok] at h
    obtain ⟨_, hx, h⟩ := h
    cases MathInt.of_sub hx
    have hc := setSupply_changed b c.denom (-c.amount)
    exact (hc.trans (of_subSupply h)).congr (by simp) fun d => by
      simp [amountOf_neg, add_comm]

-- Sums only fail by a panic.
theorem addCoins_ne_error {text : String} : addCoins addr cs b ≠ .error (.error text) := by
  induction cs generalizing b with
  | nil => simp [addCoins]
  | cons c cs ih => exact Result.bind_ne_error MathInt.inRange_ne_error fun _ => ih

theorem subSupply_ne_error {text : String} : subSupply cs b ≠ .error (.error text) := by
  induction cs generalizing b with
  | nil => simp [subSupply]
  | cons c cs ih => exact Result.bind_ne_error MathInt.inRange_ne_error fun _ => ih

theorem of_sendCoins (h : b.sendCoins addr addr' cs = .ok b') :
    Changed b b' (held addr' cs - held addr cs) 0 := by
  simp only [sendCoins, Result.bind_eq_ok] at h
  obtain ⟨_, hs, ha⟩ := h
  refine ((of_subUnlockedCoins hs).trans (of_addCoins ha)).congr (fun a d => ?_) (by simp)
  simp [sub_eq_neg_add]

theorem of_sendCoinsFromModuleToAccount
    (h : b.sendCoinsFromModuleToAccount addr addr' cs = .ok b') :
    Changed b b' (held addr' cs - held addr cs) 0 := by
  simp only [sendCoinsFromModuleToAccount, Result.bind_eq_ok] at h
  obtain ⟨_, _, h⟩ := h
  exact of_sendCoins h

theorem of_mintCoins (h : b.mintCoins addr cs = .ok b') :
    Changed b b' (held addr cs) (Coins.amountOf cs) := by
  simp only [mintCoins, Result.bind_eq_ok] at h
  obtain ⟨_, ha, hs⟩ := h
  exact ((of_addCoins ha).trans (of_addSupply hs)).congr (by simp) (by simp)

theorem of_burnCoins (h : b.burnCoins addr cs = .ok b') :
    Changed b b' (-held addr cs) (-Coins.amountOf cs) := by
  simp only [burnCoins, Result.bind_eq_ok] at h
  obtain ⟨_, ha, hs⟩ := h
  exact ((of_subUnlockedCoins ha).trans (of_subSupply hs)).congr (by simp) (by simp)

-- With enough coins a burn or a payment to an account that is not blocked can only panic.
theorem burnCoins_ne_error {text : String} (hn : (cs.map Coin.denom).Nodup)
    (hf : ∀ c ∈ cs, c.amount ≤ b.balances addr c.denom) :
    b.burnCoins addr cs ≠ .error (.error text) := by
  obtain ⟨b', hb⟩ := subUnlockedCoins_ok hn hf
  rw [burnCoins, hb, Result.ok_bind]
  exact subSupply_ne_error

theorem sendCoinsFromModuleToAccount_ne_error {text : String} (hn : (cs.map Coin.denom).Nodup)
    (hf : ∀ c ∈ cs, c.amount ≤ b.balances addr c.denom) (hb : b.blockedAddrs addr' = false) :
    b.sendCoinsFromModuleToAccount addr addr' cs ≠ .error (.error text) := by
  obtain ⟨b', hs⟩ := subUnlockedCoins_ok hn hf
  simp only [sendCoinsFromModuleToAccount, failIf, hb, Bool.false_eq_true, if_false, sendCoins, hs,
    Result.ok_bind]
  exact addCoins_ne_error

end Bank

end Sdk
