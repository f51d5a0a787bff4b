import MallChain.Mlcoin.System

namespace Mlcoin

open Sdk State

namespace Trade

-- The KES that a trade brings in, and the KES that it pays out.

def bought (t : Trade) : ℤ :=
  if t.tradeType = "buy" then t.kesAmount.toNat else 0

def sold (t : Trade) : ℤ :=
  if t.tradeType = "sell" then t.kesAmount.toNat else 0

end Trade

namespace State

def bought (s : State) : ℤ :=
  s.tradeHistory.sum fun _ t => t.bought

def sold (s : State) : ℤ :=
  s.tradeHistory.sum fun _ t => t.sold

-- What the reserve must hold.
def reserve (s : State) : ℤ :=
  s.bought - s.sold

def kesTotal (s : State) : ℤ :=
  s.kesBalance.sum fun _ b => b.balance.toNat

-- A total that is cached is the total of the history.
def CacheRight (s : State) : Prop :=
  ∀ total, s.totalBuyKesCache = some total → (total.toNat : ℤ) = s.reserve

-- The recomputation of the total adds up buys and leaves out sells.
def ColdStartRight (s : State) : Prop :=
  s.totalBuyKesCache = none → s.sold = 0

-- A trade that is recorded under an id does not replace another one that counts.
def Unrecorded (s : State) (id : String) : Prop :=
  (s.tradeHistory.get id).elim 0 (fun t => t.bought - t.sold) = 0

end State

-- The trades that keep the total: a sell must be covered by it.
def ReserveKept (p : Chain) : Action → Prop
  | .call (.buyMallcoin _ mlcn) => p.state.ColdStartRight ∧ ∀ e, p.state.emissionState = some e →
    p.state.Unrecorded s!"TR-{p.state.transactionCount + e.records mlcn}"
  | .call (.sellMallcoin _ mlcn) => p.state.ColdStartRight ∧
    p.state.Unrecorded s!"TR-{p.state.transactionCount}" ∧
    (p.state.totalBuyKesCache = none → p.state.bought < 2 ^ 64) ∧
    (mlcn.toNat * p.state.market.sellPrice.toNat : ℤ) ≤ p.state.reserve
  | _ => True

def Call.Trades : Call → Prop
  | buyMallcoin .. | sellMallcoin .. => True
  | _ => False

variable {ctx : Context} {s s' : State} {total a b c : UInt64} {addr id : String}

theorem safeAdd_eq_ok : safeAdd a b = .ok c ↔ c.toNat = a.toNat + b.toNat := by
  have ha := a.toNat_lt
  have hb := b.toNat_lt
  have hc := c.toNat_lt
  simp only [safeAdd, Result.bind_eq_ok, failIf_eq_ok, Result.pure_eq_ok]
  constructor
  · rintro ⟨_, hle, rfl⟩
    rw [UInt64.toNat_add]
    omega
  · intro h
    refine ⟨(), by omega, ?_⟩
    rw [← UInt64.toNat_inj, UInt64.toNat_add]
    omega

-- The walk over the history from one of its trades on.
theorem foldlM_totalBuyKes {l : List (String × Trade)} {start : UInt64} :
    l.foldlM (fun total e =>
      if e.2.tradeType = "buy" then
        orWrap (safeAdd total e.2.kesAmount)
          (wrap errInvalidRequest "total buy KES overflow during migration")
      else
        return total) start = .ok total ↔
      (total.toNat : ℤ) = start.toNat + (l.map fun e => e.2.bought).sum := by
  induction l generalizing start with
  | nil =>
    simp only [List.foldlM_nil, Result.pure_eq_ok, List.map_nil, List.sum_nil, add_zero,
      Nat.cast_inj, UInt64.toNat_inj]
    exact eq_comm
  | cons e l ih =>
    have hnonneg : 0 ≤ (l.map fun e => e.2.bought).sum := by
      refine List.sum_nonneg fun x hx => ?_
      obtain ⟨e, _, rfl⟩ := List.mem_map.mp hx
      rw [Trade.bought]
      split_ifs <;> omega
    simp only [List.foldlM_cons, Result.bind_eq_ok, ih, List.map_cons, List.sum_cons, Trade.bought]
    by_cases hbuy : e.2.tradeType = "buy"
    case pos =>
      simp only [hbuy, if_true, orWrap_eq_ok, safeAdd_eq_ok]
      constructor
      · rintro ⟨next, hnext, htotal⟩
        omega
      · intro htotal
        have hlt := total.toNat_lt
        simp only [Trade.bought] at hnonneg
        have hnext := toNat_ofInt (x := start.toNat + e.2.kesAmount.toNat) (by omega) (by omega)
        generalize UInt64.ofInt _ = next at hnext
        exact ⟨next, by omega, by omega⟩
    case neg =>
      simp only [hbuy, if_false, Result.pure_eq_ok, exists_eq_left', zero_add]

theorem iterateTotalBuyKes_eq_ok :
    Keeper.iterateTotalBuyKes s = .ok total ↔ (total.toNat : ℤ) = s.bought := by
  refine foldlM_totalBuyKes.trans ?_
  simp [bought, KVStore.sum, KVStore.sumOf]

-- What is read is what the reserve must hold.
theorem totalBuyKes_eq_ok (hc : s.CacheRight) (hs : s.ColdStartRight) :
    s.totalBuyKes = .ok total ↔ (total.toNat : ℤ) = s.reserve := by
  cases h : s.totalBuyKesCache with
  | none =>
    have hsold := hs h
    simp only [totalBuyKes, h, iterateTotalBuyKes_eq_ok, reserve]
    omega
  | some cached =>
    have hcached := hc cached h
    simp only [totalBuyKes, h, Except.ok.injEq, ← hcached, Nat.cast_inj, UInt64.toNat_inj]
    exact eq_comm

theorem reserve_recorded {t : Trade} (h : s.Unrecorded id)
    (hs : s'.tradeHistory = s.tradeHistory.set id t) :
    s'.reserve = s.reserve + t.bought - t.sold := by
  rw [Unrecorded] at h
  simp only [reserve, bought, sold, hs, KVStore.sum_set]
  cases hg : s.tradeHistory.get id with
  | none =>
    simp only [KVStore.part]
    ring
  | some t₀ =>
    simp only [hg, Option.elim] at h
    simp only [KVStore.part]
    omega

theorem kesTotal_set {balance : UInt64}
    (hs : s'.kesBalance = s.kesBalance.set addr { s.kesOf addr with balance }) :
    s'.kesTotal = s.kesTotal - (s.kesOf addr).balance.toNat + balance.toNat := by
  simp only [kesTotal, hs, KVStore.sum_set]
  cases hg : s.kesBalance.get addr <;> simp [kesOf, hg, KVStore.part]

-- What is known after a trade: the total is cached, it is right, and no KES are lost or created.
structure Reserved (s s' : State) : Prop where
  cached    : ∃ total, s'.totalBuyKesCache = some total ∧ (total.toNat : ℤ) = s'.reserve
  read      : ∃ current, s.totalBuyKes = .ok current ∧ (current.toNat : ℤ) = s.reserve
  conserved : s'.kesTotal + s'.reserve = s.kesTotal + s.reserve

theorem Bought.reserved {buyer : String} {mlcn : UInt64} {e : EmissionState} {kesBal : KesBalance}
    {current : UInt64} {r : TradeResponse} (h : Bought ctx buyer mlcn e kesBal current r s s')
    (hc : s.CacheRight) (hg : ReserveKept ⟨ctx, s⟩ (.call (.buyMallcoin buyer mlcn))) :
    Reserved s s' := by
  obtain ⟨hcold, hid⟩ := hg
  have hcurrent := (totalBuyKes_eq_ok hc hcold).mp h.total
  have hr : s'.reserve = s.reserve + r.kes.toNat := by
    refine (reserve_recorded (h.tradeId ▸ hid e h.emission)
      (congrArg tradeHistory h.state)).trans ?_
    simp [Trade.bought, Trade.sold]
  have hk : s.kesOf buyer = kesBal := by
    rw [kesOf, h.payer, Option.getD_some]
  have ht := kesTotal_set (hk.symm ▸ congrArg kesBalance h.state)
  have hpaid := toNat_sub h.pays
  have hcap := h.cap
  have hsum := toNat_add (a := current) (b := r.kes)
  rw [dropped_eq_zero_iff.mpr (by omega)] at hsum
  rw [hk] at ht
  exact {
    cached    := ⟨_, (congrArg totalBuyKesCache h.state).trans rfl, by omega⟩
    read      := ⟨_, h.total, hcurrent⟩
    conserved := by omega
  }

theorem Sold.reserved {seller : String} {mlcn : UInt64} {w : WalletBalance} {r : TradeResponse}
    (h : Sold ctx seller mlcn w r s s') (hc : s.CacheRight)
    (hg : ReserveKept ⟨ctx, s⟩ (.call (.sellMallcoin seller mlcn))) : Reserved s s' := by
  obtain ⟨hcold, hid, hlt, hcovered⟩ := hg
  dsimp only at hcovered
  have hkes : (r.kes.toNat : ℤ) ≤ s.reserve := by
    rw [h.kes]
    exact_mod_cast hcovered
  have hbound : s.reserve < 2 ^ 64 := by
    cases hcache : s.totalBuyKesCache with
    | none =>
      rw [reserve, hcold hcache, sub_zero]
      exact hlt hcache
    | some cached =>
      have hcached := hc cached hcache
      have := cached.toNat_lt
      omega
  have hcurrent := toNat_ofInt (by omega) hbound
  generalize UInt64.ofInt s.reserve = current at hcurrent
  have hread := (totalBuyKes_eq_ok hc hcold).mpr hcurrent
  have hr : s'.reserve = s.reserve - r.kes.toNat := by
    refine (reserve_recorded (h.tradeId ▸ hid) (congrArg tradeHistory h.state)).trans ?_
    simp [Trade.bought, Trade.sold]
  have ht := kesTotal_set (congrArg kesBalance h.state)
  have hgot := toNat_add (a := (s.kesOf seller).balance) (b := r.kes)
  rw [dropped_eq_zero_iff.mpr h.receives] at hgot
  have hle : r.kes.toNat ≤ current.toNat := by omega
  have hsub := toNat_sub hle
  have hcache : s'.totalBuyKesCache = some (current - r.kes) := by
    rw [h.state]
    simp only [soldKes, hread, UInt64.le_iff_toNat_le.mpr hle, if_true]
  exact {
    cached    := ⟨_, hcache, by omega⟩
    read      := ⟨_, hread, hcurrent⟩
    conserved := by omega
  }

theorem reserve_congr (h : s'.tradeHistory = s.tradeHistory) : s'.reserve = s.reserve := by
  rw [reserve, bought, sold, h, reserve, bought, sold]

-- What other steps leave alone.
structure SameReserve (s s' : State) : Prop where
  cache   : s'.totalBuyKesCache = s.totalBuyKesCache
  history : s'.tradeHistory = s.tradeHistory
  kes     : s'.kesBalance = s.kesBalance

theorem SameReserve.cacheRight (h : SameReserve s s') (hc : s.CacheRight) : s'.CacheRight := by
  intro total ht
  rw [reserve_congr h.history]
  exact hc total (h.cache ▸ ht)

theorem SameReserve.conserved (h : SameReserve s s') :
    s'.kesTotal + s'.reserve = s.kesTotal + s.reserve := by
  rw [reserve_congr h.history, kesTotal, h.kes, kesTotal]

theorem Called.sameReserve {c : Call} (h : Called ctx s s' c) (hc : ¬c.Trades) :
    SameReserve s s' := by
  cases h with
  | framed plain h =>
    exact ⟨(congrArg totalBuyKesCache h).trans rfl, (congrArg tradeHistory h).trans rfl,
      (congrArg kesBalance h).trans rfl⟩
  | bought h => exact absurd trivial hc
  | sold h => exact absurd trivial hc
  | staked h =>
    exact ⟨(congrArg totalBuyKesCache h.state).trans rfl,
      (congrArg tradeHistory h.state).trans rfl, (congrArg kesBalance h.state).trans rfl⟩
  | unstaked h =>
    exact ⟨(congrArg totalBuyKesCache h.framed).trans rfl,
      (congrArg tradeHistory h.framed).trans rfl, (congrArg kesBalance h.framed).trans rfl⟩
  | minted h =>
    exact ⟨(congrArg totalBuyKesCache h.state).trans rfl,
      (congrArg tradeHistory h.state).trans rfl, (congrArg kesBalance h.state).trans rfl⟩

theorem Called.reserved {c : Call} (h : Called ctx s s' c) (hr : s.CacheRight)
    (hg : ReserveKept ⟨ctx, s⟩ (.call c)) (hc : c.Trades) : Reserved s s' := by
  cases h with
  | framed plain h => cases c <;> first | exact plain.elim | exact hc.elim
  | bought h => exact h.reserved hr hg
  | sold h => exact h.reserved hr hg
  | staked => exact hc.elim
  | unstaked => exact hc.elim
  | minted => exact hc.elim

theorem Reserved.cacheRight (h : Reserved s s') : s'.CacheRight := by
  intro total ht
  obtain ⟨total', ht', he⟩ := h.cached
  cases ht.symm.trans ht'
  exact he

theorem Stepped.reserve {p p' : Chain} {a : Action} (h : Stepped p p' a)
    (hc : p.state.CacheRight) (hg : ReserveKept p a) : p'.state.CacheRight ∧
      p'.state.kesTotal + p'.state.reserve = p.state.kesTotal + p.state.reserve := by
  cases h with
  | @called c h =>
    by_cases ht : c.Trades
    case pos => exact ⟨(h.reserved hc hg ht).cacheRight, (h.reserved hc hg ht).conserved⟩
    case neg => exact ⟨(h.sameReserve ht).cacheRight hc, (h.sameReserve ht).conserved⟩
  | ended h =>
    have hs : SameReserve p.state p'.state := ⟨(congrArg totalBuyKesCache h.state).trans rfl,
      (congrArg tradeHistory h.state).trans rfl, (congrArg kesBalance h.state).trans rfl⟩
    exact ⟨hs.cacheRight hc, hs.conserved⟩
  | rest h =>
    subst h
    exact ⟨hc, rfl⟩

-- The cached total is right, and covers what sells pay out.
theorem reserve_solvent (k : Keeper) (p₀ p : Chain) (h₀ : p₀.state.CacheRight)
    (h : (chain k (· = p₀)).Run ReserveKept p) :
    p.state.CacheRight ∧
    p.state.kesTotal + p.state.reserve = p₀.state.kesTotal + p₀.state.reserve ∧
    (p.state.totalBuyKesCache ≠ none → p.state.sold ≤ p.state.bought) ∧
    ∀ c p', c.Trades → ReserveKept p (.call c) → (chain k (· = p₀)).step p (.call c) p' →
      Reserved p.state p'.state := by
  have hinv : (chain k (· = p₀)).Invariant ReserveKept fun p => p.state.CacheRight ∧
      p.state.kesTotal + p.state.reserve = p₀.state.kesTotal + p₀.state.reserve := {
    init := by
      rintro _ rfl
      exact ⟨h₀, rfl⟩
    step := fun hp hg hs => by
      obtain ⟨hc, hk⟩ := (of_act hs.2).reserve hp.1 hg
      exact ⟨hc, hk.trans hp.2⟩
  }
  obtain ⟨hc, hk⟩ := hinv.holds h
  refine ⟨hc, hk, fun hcache => ?_, fun c p' ht hg hs => ?_⟩
  · obtain ⟨total, htotal⟩ := Option.ne_none_iff_exists'.mp hcache
    have hr := hc total htotal
    rw [reserve] at hr
    omega
  · cases of_act hs.2 with
    | called h => exact h.reserved hc hg ht

namespace Sample

-- A chain that starts again with a history and no cached total.
def coldStart : Chain where
  ctx   := block
  state := {
    kesBalance       := KVStore.empty.set "trader" { address := "trader", balance := 1000000 }
    walletBalance    := KVStore.empty.set "seller" { address := "seller", balance := 2000000 }
    emissionState    := some { totalSupply := 670000000, circulating := 1000000, dailyLimit := 100000 }
    transactionCount := 2
    tradeHistory     := (KVStore.empty.set "TR-0" ⟨"TR-0", "trader", "buy", 10000, 620000, 62, 0, 1⟩).set
      "TR-1" ⟨"TR-1", "trader", "sell", 10000, 580000, 58, 0, 1⟩
  }

-- The same chain before its sell.
def noSells : Chain := { coldStart with
  state := { coldStart.state with tradeHistory := coldStart.state.tradeHistory.remove "TR-1" } }

end Sample

-- After a buy the total has all that buys brought in, and not what the sell paid out.
theorem cold_start_wrong : ¬∀ p₀ p : Chain, p₀.state.CacheRight →
    (chain Sample.keeper (· = p₀)).Reachable p → p.state.CacheRight := by
  intro h
  have h₀ : Sample.coldStart.state.CacheRight := fun _ hn => by cases hn
  have hinit : (chain Sample.keeper (· = Sample.coldStart)).Reachable Sample.coldStart := .init rfl
  have ha : Allowed Sample.coldStart (.call (.buyMallcoin "trader" 1)) := trivial
  have h₁ := Sample.run_step hinit trivial ha (by decide +kernel)
  have hc := h _ _ h₀ h₁ 620062 (by decide +kernel)
  revert hc
  decide +kernel

theorem sample_reserve_solvent :
    let p := Sample.keeper.next Sample.noSells (.call (.sellMallcoin "seller" 1000))
    p.state.totalBuyKesCache = some 562000 ∧ p.state.CacheRight := by
  have h₀ : Sample.noSells.state.CacheRight := fun _ hn => by cases hn
  have hinit : (chain Sample.keeper (· = Sample.noSells)).Run ReserveKept Sample.noSells := .init rfl
  have hg : ReserveKept Sample.noSells (.call (.sellMallcoin "seller" 1000)) :=
    ⟨fun _ => by decide +kernel, by rw [Unrecorded]; decide +kernel, fun _ => by decide +kernel,
      by decide +kernel⟩
  have ha : Allowed Sample.noSells (.call (.sellMallcoin "seller" 1000)) := trivial
  have h₁ := Sample.run_step hinit hg ha (by decide +kernel)
  exact ⟨by decide +kernel, (reserve_solvent Sample.keeper _ _ h₀ h₁).1⟩

end Mlcoin
