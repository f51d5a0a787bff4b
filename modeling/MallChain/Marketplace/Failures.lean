import MallChain.Marketplace.Payouts

namespace Marketplace

open Sdk

-- What a call leaves behind that returns an error. Before its first write that is what it found.
def returnedError (s : State) : Result (State × Option Failure) → Option (State × Failure)
  | .ok (s', some e) => some (s', e)
  | .ok (_, none) => none
  | .error (.error text) => some (s, .error text)
  | .error (.panic _) => none

structure Unchanged (s s' : State) : Prop where
  escrows : ∀ id, s'.escrows.get id = s.escrows.get id
  bank    : s'.bank = s.bank
  seq     : s'.escrowSeq = s.escrowSeq

-- A call that returns an error leaves the escrows and the balances as they were.
def Restores (s : State) (r : Result (State × Option Failure)) : Prop :=
  ∀ s' e, returnedError s r = some (s', e) → Unchanged s s'

-- What the two calls check before they write.

def Escrow.Releasable (ctx : Context) (releaseBy : String) (e : Escrow) : Prop :=
  releaseBy = e.buyer ∧ (e.status = .held ∨ e.status = .disputed) ∧
    ¬(e.status = .disputed ∧ 0 < e.releaseTime ∧ Context.unix ctx.blockTime < e.releaseTime)

def Escrow.Refundable (requestedBy : String) (e : Escrow) : Prop :=
  requestedBy = e.seller ∧ e.status ≠ .released ∧ e.status ≠ .refunded

-- The funds of an escrow make a coin.
def Keeper.Priced (k : Keeper) (e : Escrow) (n : ℤ) : Prop :=
  k.newIntFromString e.amount = some n ∧ 0 ≤ n ∧ validDenom e.denom = true

-- The bank does not pay an account that is blocked, nor more coins than there are.
def Refuses (b : Bank) (moduleAddr addr : AccAddress) (denom : String) (n : ℤ) : Prop :=
  b.blockedAddrs addr = true ∨ 0 < n ∧ b.balances moduleAddr denom < n

-- A payout that fails after the status was written, and does not bring it back: the recipient is no
-- address, or the bank refuses and the escrow was not held.
def Keeper.Loses (k : Keeper) (s : State) (e : Escrow) (recipient : String) : Prop :=
  ∃ n, k.Priced e n ∧ (k.accAddressFromBech32 recipient = none ∨
    e.status ≠ .held ∧ ∃ addr, k.accAddressFromBech32 recipient = some addr ∧
      Refuses s.bank k.moduleAddr addr e.denom n)

variable {k : Keeper} {ctx : Context} {s s' : State} {id account recipient denom : String}
variable {escrow : Escrow} {status : Status} {b : Bank} {moduleAddr addr : AccAddress} {n : ℤ}

theorem Unchanged.refl : Unchanged s s :=
  ⟨fun _ => rfl, rfl, rfl⟩

-- A status that is written over another one is seen.
theorem unchanged_set_iff (hg : s.escrows.get id = some escrow) :
    Unchanged s { s with escrows := s.escrows.set id { escrow with status } } ↔
      escrow.status = status := by
  constructor
  · intro h
    have he := h.escrows id
    rw [KVStore.get_set, if_pos rfl, hg, Option.some.injEq] at he
    rw [← he]
  · rintro rfl
    refine ⟨fun id' => ?_, rfl, rfl⟩
    rw [KVStore.get_set]
    split_ifs with h
    · rw [h, hg]
    · rfl

-- The coins of an amount: none for zero.
def coinsOf (denom : String) (n : ℤ) : Coins :=
  if n = 0 then [] else [⟨denom, n⟩]

theorem coins_ok (hn : 0 ≤ n) (hd : validDenom denom = true) :
    Coin.new denom n = .ok ⟨denom, n⟩ ∧ Coins.new [⟨denom, n⟩] = .ok (coinsOf denom n) := by
  constructor
  · simp [Coin.new, failIf, hd, not_lt.mpr hn, Result.ok_bind]
  · rcases eq_or_ne n 0 with rfl | hz
    · rfl
    · have hpos : 0 < n := lt_of_le_of_ne hn hz.symm
      simp [Coins.new, Coins.isValid, failIf, coinsOf, hz, hd, hpos]

theorem coin_panic (h : ¬(0 ≤ n ∧ validDenom denom = true)) :
    ∃ text, Coin.new denom n = .error (.panic text) := by
  cases hd : validDenom denom with
  | false => exact ⟨_, by simp only [Coin.new, failIf, hd, if_true]; rfl⟩
  | true =>
    have hn : n < 0 := not_le.mp fun hn => h ⟨hn, hd⟩
    exact ⟨_, by simp only [Coin.new, failIf, hd, hn, if_true]; rfl⟩

theorem refuses_iff (hn : 0 ≤ n) :
    (∃ text, b.sendCoinsFromModuleToAccount moduleAddr addr (coinsOf denom n) =
      .error (.error text)) ↔ Refuses b moduleAddr addr denom n := by
  constructor
  · rintro ⟨text, h⟩
    by_contra hne
    rw [Refuses, not_or, not_and, not_lt, Bool.not_eq_true] at hne
    refine Bank.sendCoinsFromModuleToAccount_ne_error ?_ ?_ hne.1 h
    · rw [coinsOf]
      split_ifs <;> simp
    · intro c hc
      rw [coinsOf] at hc
      split_ifs at hc with hz
      · cases hc
      · cases List.mem_singleton.mp hc
        exact hne.2 (lt_of_le_of_ne hn (Ne.symm hz))
  · intro h
    simp only [Bank.sendCoinsFromModuleToAccount, failIf]
    split_ifs with hb
    · exact ⟨_, rfl⟩
    · obtain ⟨hpos, hlt⟩ := h.resolve_left hb
      rw [coinsOf, if_neg hpos.ne', Bank.sendCoins, Bank.subUnlockedCoins, failIf, if_pos hlt]
      exact ⟨_, rfl⟩

-- A check before the rest of a handler.
theorem failIf_bind {α : Type} {c : Prop} [Decidable c] {e : Failure} {f : Unit → Result α} :
    (failIf c e >>= f) = if c then .error e else f () := by
  rw [failIf]
  split_ifs <;> rfl

namespace Keeper

-- An amount that makes no coin ends in a panic.
theorem payOut_panic (h : ∀ n, ¬ k.Priced escrow n) :
    ∃ text, k.payOut id escrow status recipient s = .error (.panic text) := by
  simp only [payOut]
  cases hn : k.newIntFromString escrow.amount with
  | none => exact ⟨_, rfl⟩
  | some n =>
    obtain ⟨text, hc⟩ := coin_panic fun hc => h n ⟨hn, hc⟩
    simp only [orFail, Option.elim_some, Result.ok_bind, hc]
    exact ⟨text, rfl⟩

-- What is left behind depends on the payment alone.
theorem returnedError_payOut (hp : k.Priced escrow n) :
    returnedError s (k.payOut id escrow status recipient s) =
      match k.accAddressFromBech32 recipient with
      | none => some ({ s with escrows := s.escrows.set id { escrow with status } },
          .error "decoding bech32 failed")
      | some addr =>
        match s.bank.sendCoinsFromModuleToAccount k.moduleAddr addr (coinsOf escrow.denom n) with
        | .error (.error text) => some ({ s with
            escrows := s.escrows.set id { escrow with status := .held } }, .error text)
        | _ => none := by
  obtain ⟨hn, hpos, hd⟩ := hp
  obtain ⟨hc, hcs⟩ := coins_ok hpos hd
  simp only [payOut, hn, orFail, Option.elim_some, Result.ok_bind, hc, hcs]
  cases k.accAddressFromBech32 recipient with
  | none => rfl
  | some addr =>
    simp only
    rcases s.bank.sendCoinsFromModuleToAccount k.moduleAddr addr (coinsOf escrow.denom n) with
      (text | text) | bank
    · simp only [returnedError, KVStore.set_set, pure, Except.pure]
    · rfl
    · rfl

theorem payOut_restores_iff (hg : s.escrows.get id = some escrow) (hne : escrow.status ≠ status) :
    Restores s (k.payOut id escrow status recipient s) ↔ ¬ k.Loses s escrow recipient := by
  by_cases hp : ∃ n, k.Priced escrow n
  case neg =>
    rw [not_exists] at hp
    obtain ⟨text, ht⟩ : ∃ text, k.payOut id escrow status recipient s = .error (.panic text) :=
      payOut_panic hp
    refine iff_of_true ?_ fun ⟨n, hn, _⟩ => hp n hn
    simp [Restores, ht, returnedError]
  case pos =>
    obtain ⟨n, hp⟩ := hp
    have hloses : k.Loses s escrow recipient ↔ k.accAddressFromBech32 recipient = none ∨
        escrow.status ≠ .held ∧ ∃ addr, k.accAddressFromBech32 recipient = some addr ∧
          Refuses s.bank k.moduleAddr addr escrow.denom n := by
      obtain ⟨hn, hpos, hd⟩ := hp
      simp only [Loses, Priced, hn, Option.some.injEq, and_assoc, exists_eq_left', hpos, hd, true_and]
    rw [hloses, Restores, returnedError_payOut hp]
    cases ha : k.accAddressFromBech32 recipient with
    | none =>
      simp only [Option.some.injEq, Prod.mk.injEq, true_or, not_true_eq_false, iff_false]
      exact fun h => hne ((unchanged_set_iff hg).mp (h _ _ ⟨rfl, rfl⟩))
    | some addr =>
      have hrefuses : _ ↔ Refuses s.bank k.moduleAddr addr escrow.denom n := refuses_iff hp.2.1
      simp only [reduceCtorEq, false_or, Option.some.injEq, exists_eq_left', ← hrefuses]
      rcases s.bank.sendCoinsFromModuleToAccount k.moduleAddr addr (coinsOf escrow.denom n) with
        (text | text) | bank
      · simp only [Option.some.injEq, Prod.mk.injEq, Except.error.injEq, Failure.error.injEq,
          exists_eq', and_true, not_not]
        rw [← unchanged_set_iff hg]
        constructor
        · exact fun h => h _ _ ⟨rfl, rfl⟩
        · rintro h s' e ⟨rfl, -⟩
          exact h
      · simp
      · simp

-- The guards pass, or the call returns an error before it writes anything.
theorem releaseFunds_cases (k : Keeper) (ctx : Context) (account : String)
    (hg : s.escrows.get id = some escrow) :
    escrow.Releasable ctx account ∧
      k.releaseFunds ctx id account s = k.payOut id escrow .released escrow.seller s ∨
    ¬ escrow.Releasable ctx account ∧
      ∃ text, k.releaseFunds ctx id account s = .error (.error text) := by
  simp only [releaseFunds, hg, orFail, Option.elim_some, Result.ok_bind, failIf_bind]
  split_ifs with h₁ h₂ h₃ h₄
  · exact .inr ⟨fun h => h₁ h.1, _, rfl⟩
  · exact .inr ⟨fun h => h.2.1.elim h₂.1 h₂.2, _, rfl⟩
  · exact .inr ⟨fun h => by rcases h₃ with h₃ | h₃ <;> simp [h₃] at h₂, _, rfl⟩
  · exact .inr ⟨fun h => h.2.2 h₄, _, rfl⟩
  · exact .inl ⟨⟨not_not.mp h₁, by tauto, h₄⟩, rfl⟩

theorem refundBuyer_cases (k : Keeper) (account : String)
    (hg : s.escrows.get id = some escrow) :
    escrow.Refundable account ∧
      k.refundBuyer id account s = k.payOut id escrow .refunded escrow.buyer s ∨
    ¬ escrow.Refundable account ∧ ∃ text, k.refundBuyer id account s = .error (.error text) := by
  simp only [refundBuyer, hg, orFail, Option.elim_some, Result.ok_bind, failIf_bind]
  split_ifs with h₁ h₂
  · exact .inr ⟨fun h => h₁ h.1, _, rfl⟩
  · exact .inr ⟨fun h => h₂.elim h.2.1 h.2.2, _, rfl⟩
  · exact .inl ⟨⟨not_not.mp h₁, not_or.mp h₂⟩, rfl⟩

end Keeper

theorem restores_error {text : String} : Restores s (.error (.error text)) := by
  intro s' e h
  cases h
  exact .refl

-- A failed call leaves everything as it was, unless its payout fails and does not bring the status
-- back.
theorem errors_restore_iff (k : Keeper) (s : State) (ctx : Context) (id account : String) :
    (Restores s (k.releaseFunds ctx id account s) ↔ ¬ ∃ escrow, s.escrows.get id = some escrow ∧
      escrow.Releasable ctx account ∧ k.Loses s escrow escrow.seller) ∧
    (Restores s (k.refundBuyer id account s) ↔ ¬ ∃ escrow, s.escrows.get id = some escrow ∧
      escrow.Refundable account ∧ k.Loses s escrow escrow.buyer) := by
  cases hg : s.escrows.get id with
  | none =>
    constructor
    · refine iff_of_true ?_ (by simp)
      rw [Keeper.releaseFunds, hg]
      exact restores_error
    · refine iff_of_true ?_ (by simp)
      rw [Keeper.refundBuyer, hg]
      exact restores_error
  | some escrow =>
    simp only [Option.some.injEq, exists_eq_left']
    constructor
    · rcases Keeper.releaseFunds_cases k ctx account hg with ⟨hr, he⟩ | ⟨hr, text, he⟩
      · have hne : escrow.status ≠ .released := by
          rcases hr.2.1 with h | h <;> simp [h]
        rw [he, Keeper.payOut_restores_iff hg hne]
        simp [hr]
      · rw [he]
        exact iff_of_true restores_error fun h => hr h.1
    · rcases Keeper.refundBuyer_cases k account hg with ⟨hr, he⟩ | ⟨hr, text, he⟩
      · rw [he, Keeper.payOut_restores_iff hg hr.2.2]
        simp [hr]
      · rw [he]
        exact iff_of_true restores_error fun h => hr h.1

-- The seller is an account that the bank does not pay, and the buyer has opened a dispute.
namespace Sample

def blocked : State :=
  { genesis with bank := { genesis.bank with blockedAddrs := fun a => a = bob } }

def contested : State := keeper.next (keeper.next blocked buy) dispute

theorem contested_reachable : (system keeper).Reachable contested := by
  have hinit : (system keeper).Reachable blocked := .init ⟨rfl, genesis_empty.balance⟩
  have hbuy := hinit.step trivial (step (a := buy) (by decide : _ ≠ _) (by decide +kernel))
  exact hbuy.step trivial (step (a := dispute) trivial (by decide +kernel))

end Sample

-- The payment after the dispute fails, and the escrow is held again as if there had been none.
theorem failed_release_ends_dispute :
    (system Sample.keeper).Reachable Sample.contested ∧
    (Sample.contested.escrows.get "alice-1-1000000000-0").map (·.status) = some .disputed ∧
    (returnedError Sample.contested (Sample.keeper.releaseFunds (Sample.block 62)
      "alice-1-1000000000-0" "alice" Sample.contested)).map (fun p =>
        (p.2, (p.1.escrows.get "alice-1-1000000000-0").map (·.status))) =
      some (.error "not allowed to receive funds", some .held) ∧
    ¬ Restores Sample.contested (Sample.keeper.releaseFunds (Sample.block 62)
      "alice-1-1000000000-0" "alice" Sample.contested) := by
  have hstatus : (Sample.contested.escrows.get "alice-1-1000000000-0").map (·.status) =
      some .disputed := by
    decide +kernel
  have hleft : (returnedError Sample.contested (Sample.keeper.releaseFunds (Sample.block 62)
      "alice-1-1000000000-0" "alice" Sample.contested)).map (fun p =>
        (p.2, (p.1.escrows.get "alice-1-1000000000-0").map (·.status))) =
      some (.error "not allowed to receive funds", some .held) := by
    decide +kernel
  refine ⟨Sample.contested_reachable, hstatus, hleft, fun h => ?_⟩
  obtain ⟨⟨s', e⟩, he, hs⟩ := Option.map_eq_some_iff.mp hleft
  have hsame := (h s' e he).escrows "alice-1-1000000000-0"
  rw [Prod.mk.injEq, hsame, hstatus] at hs
  cases hs.2

end Marketplace
