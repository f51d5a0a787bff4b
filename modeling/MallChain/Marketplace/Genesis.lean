import MallChain.Lib.Snapshot
import MallChain.Marketplace.Payouts

namespace Marketplace

open Sdk TransitionSystem

variable {k : Keeper} {ctx ctx' : Context} {s s' s'' : State} {id id' : String} {escrow escrow' : Escrow}
variable {msg : MsgCreateEscrow} {a : Action} {d : String}

structure GenesisState where
  escrows : List Escrow

def initGenesis (genState : GenesisState) (s : State) : State :=
  { s with escrows := genState.escrows.foldl (fun m e => m.set e.id e) s.escrows }

def exportGenesis (s : State) : GenesisState where
  escrows := s.escrows.values

-- The chain that starts from an export: the bank has what it had, and the sequence, which is not
-- exported, starts again.
def State.restarted (s : State) : State :=
  initGenesis (exportGenesis s) { bank := s.bank, escrows := .empty, escrowSeq := 0 }

-- A chain with the time of its latest block, and the time at which it was last restarted.
structure Chain where
  state : State
  now   : ℤ
  since : ℤ

inductive Event
  | act (a : Action)
  | restart

-- The time of the block in which an action is taken, for the handlers that read it.
def Action.time : Action → Option ℤ
  | .createEscrow ctx _ => some ctx.blockTime
  | .releaseFunds ctx _ => some ctx.blockTime
  | .openDispute ctx _ => some ctx.blockTime
  | .refundBuyer _ => none
  | .rest _ => none

def restarting (k : Keeper) : TransitionSystem Chain Event where
  init c      := c.state.Empty k ∧ c.now = 0 ∧ c.since < 0
  step c e c' :=
    match e with
    | .act a => (system k).step c.state a c'.state ∧ c'.now = a.time.getD c.now ∧ c'.since = c.since
    | .restart => c' = { state := c.state.restarted, now := c.now, since := c.now }

-- Time goes on, also over a restart, and is a 64-bit number of nanoseconds.
def Chain.Admits (c : Chain) : Event → Prop
  | .act a => ∀ t ∈ a.time, c.now ≤ t ∧ c.since < t ∧ t < 2 ^ 63
  | .restart => True

-- The escrows are kept with their terms, and those that are settled as they are.
def State.Keeps (s s' : State) : Prop :=
  ∀ id e, s.escrows.get id = some e → ∃ e', s'.escrows.get id = some e' ∧
    e'.id = e.id ∧ e'.buyer = e.buyer ∧ e'.seller = e.seller ∧ e'.amount = e.amount ∧
    e'.denom = e.denom ∧ (e.live = false → e' = e)

theorem State.Keeps.refl : s.Keeps s :=
  fun _ e hg => ⟨e, hg, rfl, rfl, rfl, rfl, rfl, fun _ => rfl⟩

theorem State.Keeps.trans (h : s.Keeps s') (h' : s'.Keeps s'') : s.Keeps s'' := by
  intro id e hg
  obtain ⟨e', hg', hid, hb, hs, ha, hd, hl⟩ := h id e hg
  obtain ⟨e'', hg'', hid', hb', hs', ha', hd', hl'⟩ := h' id e' hg'
  refine ⟨e'', hg'', hid'.trans hid, hb'.trans hb, hs'.trans hs, ha'.trans ha, hd'.trans hd, ?_⟩
  intro hn
  have he : e' = e := hl hn
  rw [hl' (he ▸ hn), he]

-- A live escrow may get another status and another release time.
theorem keeps_set {status : Status} {releaseTime : Int64} (hg : s.escrows.get id = some escrow)
    (hl : escrow.live = true)
    (h : s'.escrows = s.escrows.set id { escrow with status, releaseTime }) : s.Keeps s' := by
  intro id' e hg'
  by_cases he : id' = id
  case pos =>
    subst he
    cases hg.symm.trans hg'
    refine ⟨{ escrow with status, releaseTime }, ?_, rfl, rfl, rfl, rfl, rfl, by simp [hl]⟩
    rw [h, KVStore.get_set_self]
  case neg => exact ⟨e, by rw [h, KVStore.get_set_ne he, hg'], rfl, rfl, rfl, rfl, rfl, fun _ => rfl⟩

theorem keeps_new (hg : s.escrows.get id = none) (h : s'.escrows = s.escrows.set id escrow) :
    s.Keeps s' := by
  intro id' e hg'
  have he : id' ≠ id := by
    rintro rfl
    cases hg.symm.trans hg'
  exact ⟨e, by rw [h, KVStore.get_set_ne he, hg'], rfl, rfl, rfl, rfl, rfl, fun _ => rfl⟩

-- The id of an escrow gives away its time and its number.
theorem escrowID_inj {buyer buyer' : String} {n n' : ℕ} (h0 : 0 ≤ ctx.blockTime)
    (ht : ctx.blockTime < 2 ^ 63) (h0' : 0 ≤ ctx'.blockTime) (ht' : ctx'.blockTime < 2 ^ 63)
    (h : escrowID ctx buyer n = escrowID ctx' buyer' n') :
    ctx.blockTime = ctx'.blockTime ∧ n = n' := by
  have hlist : ∀ {ctx : Context} {buyer : String} {n : ℕ}, 0 ≤ ctx.blockTime →
      ctx.blockTime < 2 ^ 63 → (escrowID ctx buyer n).toList =
        s!"{buyer}-{ctx.blockHeight.toInt}".toList ++
          '-' :: Decimal.digits ctx.blockTime.toNat ++ '-' :: Decimal.digits n := by
    intro ctx buyer n h0 ht
    have hnano : (Context.unixNano ctx.blockTime).toInt = (ctx.blockTime.toNat : ℤ) := by
      rw [Context.unixNano, Int64.toInt_ofInt_of_le (by omega) ht, Int.toNat_of_nonneg h0]
    rw [escrowID, hnano]
    simp only [String.toList_append, ← Decimal.toList_toString, List.append_assoc]
    rfl
  have h := congrArg String.toList h
  rw [hlist h0 ht, hlist h0' ht'] at h
  have hn : n = n' := Decimal.append_digits_inj (by decide) h
  subst hn
  have hp := Decimal.append_digits_inj (by decide) (List.append_cancel_right h)
  exact ⟨by omega, rfl⟩

-- The id was given out at a time, with a number.
def IssuedAt (id : String) (t : ℤ) (n : ℕ) : Prop :=
  ∃ ctx buyer, id = escrowID ctx buyer n ∧ ctx.blockTime = t ∧ 0 ≤ t ∧ t < 2 ^ 63

theorem IssuedAt.inj {t t' : ℤ} {n n' : ℕ} (h : IssuedAt id t n) (h' : IssuedAt id t' n') :
    t = t' ∧ n = n' := by
  obtain ⟨ctx, buyer, hid, rfl, h0, ht⟩ := h
  obtain ⟨ctx', buyer', hid', rfl, h0', ht'⟩ := h'
  exact escrowID_inj h0 ht h0' ht' (hid.symm.trans hid')

-- The escrows can be paid and are covered. Each is stored under its id, which was given out before the
-- last restart or with a number that the sequence has passed.
structure Chain.Founded (k : Keeper) (c : Chain) : Prop where
  payable : c.state.Payable k
  keyed   : c.state.escrows.Keyed Escrow.id
  covered : ∀ d, k.owed c.state d ≤ c.state.bank.balances k.moduleAddr d
  dated   : ∀ id e, c.state.escrows.get id = some e → ∃ t n, IssuedAt id t n ∧ t ≤ c.now ∧
    (t ≤ c.since ∨ n < c.state.escrowSeq)
  time    : 0 ≤ c.now

theorem of_created {escrow : Escrow} {payer : AccAddress} (h : Created k ctx msg escrow payer s s')
    (ha : k.act s (.createEscrow ctx msg) = .ok s') : escrow.id = escrowID ctx msg.buyer s.escrowSeq := by
  have hg : s'.escrows.get (escrowID ctx msg.buyer s.escrowSeq) = some escrow := by
    rw [h.escrows, KVStore.get_set_self]
  simp only [Keeper.act, MsgServer.createEscrow, Keeper.createEscrow, Result.bind_eq_ok,
    Result.pure_eq_ok, Prod.exists] at ha
  obtain ⟨_, _, ⟨_, _, _, _, _, _, _, _, _, _, _, _, _, _, _, _, _, _, he⟩, rfl⟩ := ha
  cases he
  rw [KVStore.get_set_self] at hg
  cases hg
  rfl

section Steps

variable {c c' : Chain} {escrow escrow' : Escrow} {payer addr : AccAddress} {status : Status}

theorem Chain.Founded.fresh {t : ℤ} (h : c.Founded k) (hi : IssuedAt id t c.state.escrowSeq)
    (hs : c.since < t) : c.state.escrows.get id = none := by
  by_contra hne
  obtain ⟨e, hg⟩ := Option.ne_none_iff_exists'.mp hne
  obtain ⟨t', n, hi', _, hold⟩ := h.dated id e hg
  obtain ⟨rfl, rfl⟩ := hi.inj hi'
  omega

theorem Created.keeps (h : Created k ctx msg escrow payer s s')
    (hnew : s.escrows.get (escrowID ctx msg.buyer s.escrowSeq) = none) : s.Keeps s' :=
  keeps_new hnew h.escrows

theorem Created.covered (h : Created k ctx msg escrow payer s s') (hpay : payer ≠ k.moduleAddr)
    (hnew : s.escrows.get (escrowID ctx msg.buyer s.escrowSeq) = none)
    (hc : k.owed s d ≤ s.bank.balances k.moduleAddr d) :
    k.owed s' d ≤ s'.bank.balances k.moduleAddr d := by
  have hbal : s'.bank.balances k.moduleAddr d =
      s.bank.balances k.moduleAddr d + (k.funds escrow.amount escrow.denom).amountOf d := by
    simp [h.bank.balances, Bank.held, hpay.symm, h.terms.amount, h.terms.denom]
  rw [owed_set_new hnew h.escrows, if_pos h.live, hbal]
  omega

theorem Paid.keeps (h : Paid k id escrow status addr s s') : s.Keeps s' :=
  keeps_set h.get h.live h.escrows

-- A payout takes no more than what was owed for its escrow.
theorem Paid.covered (h : Paid k id escrow status addr s s') (hp : k.Payable escrow)
    (hst : status = .released ∨ status = .refunded)
    (hc : k.owed s d ≤ s.bank.balances k.moduleAddr d) :
    k.owed s' d ≤ s'.bank.balances k.moduleAddr d := by
  have hdead : Escrow.live { escrow with status } = false := by
    rcases hst with rfl | rfl <;> rfl
  have hn := hp.funds_nonneg d
  simp only [owed_set_old h.get h.escrows, h.live, hdead, h.bank.balances, Pi.sub_apply, Bank.held,
    if_true, Bool.false_eq_true, if_false]
  split_ifs <;> omega

theorem Stayed.escrows (h : Stayed id escrow escrow' s s') :
    s'.escrows = s.escrows.set id
      { escrow with status := escrow'.status, releaseTime := escrow'.releaseTime } := by
  rw [h.state, ← h.change]

theorem Stayed.keeps (h : Stayed id escrow escrow' s s') : s.Keeps s' :=
  keeps_set h.get h.live.1 h.escrows

theorem Stayed.covered (h : Stayed id escrow escrow' s s')
    (hc : k.owed s d ≤ s.bank.balances k.moduleAddr d) :
    k.owed s' d ≤ s'.bank.balances k.moduleAddr d := by
  have hesc : s'.escrows = s.escrows.set id escrow' := by rw [h.state]
  have hbank : s'.bank = s.bank := by rw [h.state]
  have hfunds : k.funds escrow'.amount escrow'.denom = k.funds escrow.amount escrow.denom := by
    rw [h.change]
  rw [owed_set_old h.get hesc, if_pos h.live.1, if_pos h.live.2, hfunds, hbank, sub_add_cancel]
  exact hc

theorem Chain.Founded.rewrite {releaseTime : Int64} (h : c.Founded k)
    (hg : c.state.escrows.get id = some escrow)
    (hesc : c'.state.escrows = c.state.escrows.set id { escrow with status, releaseTime })
    (hseq : c'.state.escrowSeq = c.state.escrowSeq) (hnow : c.now ≤ c'.now)
    (hsince : c'.since = c.since)
    (hcov : ∀ d, k.owed c'.state d ≤ c'.state.bank.balances k.moduleAddr d) : c'.Founded k where
  payable id' e hg' := by
    rw [hesc, KVStore.get_set] at hg'
    split_ifs at hg'
    case pos =>
      cases hg'
      obtain ⟨hb, hs, ha⟩ := h.payable id escrow hg
      exact ⟨hb, hs, ha⟩
    case neg => exact h.payable id' e hg'
  keyed := hesc ▸ h.keyed.set (h.keyed id escrow hg)
  covered := hcov
  dated id' e hg' := by
    have hold : ∃ e', c.state.escrows.get id' = some e' := by
      rw [hesc, KVStore.get_set] at hg'
      split_ifs at hg' with he
      case pos => exact ⟨escrow, he ▸ hg⟩
      case neg => exact ⟨e, hg'⟩
    obtain ⟨e', hold⟩ := hold
    obtain ⟨t, n, hi, ht, hn⟩ := h.dated id' e' hold
    exact ⟨t, n, hi, ht.trans hnow, by rwa [hsince, hseq]⟩
  time := h.time.trans hnow

theorem Chain.Founded.created (h : c.Founded k)
    (hc : Created k ctx msg escrow payer c.state c'.state)
    (ha : k.act c.state (.createEscrow ctx msg) = .ok c'.state)
    (hcov : ∀ d, k.owed c'.state d ≤ c'.state.bank.balances k.moduleAddr d)
    (hnow : c'.now = ctx.blockTime) (hsince : c'.since = c.since) (hle : c.now ≤ ctx.blockTime)
    (hlt : ctx.blockTime < 2 ^ 63) : c'.Founded k where
  payable id e hg := by
    rw [hc.escrows, KVStore.get_set] at hg
    split_ifs at hg
    case pos => exact Option.some.inj hg ▸ hc.payable
    case neg => exact h.payable id e hg
  keyed := hc.escrows ▸ h.keyed.set (of_created hc ha)
  covered := hcov
  dated id e hg := by
    rw [hc.escrows, KVStore.get_set] at hg
    rw [hnow, hsince, hc.seq]
    split_ifs at hg with he
    case pos =>
      exact ⟨ctx.blockTime, c.state.escrowSeq, ⟨ctx, msg.buyer, he, rfl, h.time.trans hle, hlt⟩,
        le_rfl, .inr (Nat.lt_succ_self _)⟩
    case neg =>
      obtain ⟨t, n, hi, ht, hn⟩ := h.dated id e hg
      exact ⟨t, n, hi, ht.trans hle, hn.imp_right (Nat.lt_succ_of_lt ·)⟩
  time := hnow ▸ h.time.trans hle

-- A restart restores every escrow, and the ids that were given out are in the past.
theorem restarted_eq (h : c.Founded k) : c.state.restarted = { c.state with escrowSeq := 0 } := by
  have he : c.state.escrows.values.foldl (fun m e => m.set e.id e) .empty = c.state.escrows :=
    KVStore.ofValues_values h.keyed
  simp only [State.restarted, initGenesis, exportGenesis, he]

theorem Chain.Founded.restart (h : c.Founded k) : Chain.Founded k
    { state := c.state.restarted, now := c.now, since := c.now } := by
  rw [restarted_eq h]
  exact {
    payable := h.payable
    keyed   := h.keyed
    covered := h.covered
    dated   := fun id e hg => by
      obtain ⟨t, n, hi, ht, _⟩ := h.dated id e hg
      exact ⟨t, n, hi, ht, .inl ht⟩
    time    := h.time
  }

-- One event keeps the escrows, and what is needed for the next one.
theorem founded_step {e : Event} (h : c.Founded k) (hg : c.Admits e)
    (hs : (restarting k).step c e c') : c'.Founded k ∧ c.state.Keeps c'.state := by
  cases e with
  | restart =>
    cases hs
    refine ⟨h.restart, ?_⟩
    rw [restarted_eq h]
    exact .refl
  | act a =>
    obtain ⟨⟨hl, ha⟩, hnow, hsince⟩ := hs
    have hle : c.now ≤ c'.now := by
      rw [hnow]
      cases ht : a.time with
      | none => exact le_rfl
      | some t => exact (hg t ht).1
    cases of_act h.payable ha with
    | @created ctx msg escrow payer hc =>
      obtain ⟨hct, hst, hlt⟩ := hg ctx.blockTime rfl
      have hnew : c.state.escrows.get (escrowID ctx msg.buyer c.state.escrowSeq) = none :=
        h.fresh ⟨ctx, msg.buyer, rfl, rfl, h.time.trans hct, hlt⟩ hst
      have hpay : payer ≠ k.moduleAddr := fun hp => hl (hp ▸ hc.buyer)
      exact ⟨h.created hc ha (fun d => hc.covered hpay hnew (h.covered d)) hnow hsince hct hlt,
        hc.keeps hnew⟩
    | @released ctx msg escrow addr _ _ hp =>
      refine ⟨h.rewrite hp.get hp.escrows hp.seq hle hsince fun d => ?_, hp.keeps⟩
      exact hp.covered (h.payable _ _ hp.get) (.inl rfl) (h.covered d)
    | @refunded msg escrow addr _ _ hp =>
      refine ⟨h.rewrite hp.get hp.escrows hp.seq hle hsince fun d => ?_, hp.keeps⟩
      exact hp.covered (h.payable _ _ hp.get) (.inr rfl) (h.covered d)
    | @stayed _ id escrow escrow' _ hst =>
      have hseq : c'.state.escrowSeq = c.state.escrowSeq := by rw [hst.state]
      exact ⟨h.rewrite hst.get hst.escrows hseq hle hsince fun d => hst.covered (h.covered d),
        hst.keeps⟩
    | @rest bank hr =>
      have hesc : c'.state.escrows = c.state.escrows := by rw [hr]
      have hseq : c'.state.escrowSeq = c.state.escrowSeq := by rw [hr]
      have hbank : c'.state.bank = bank := by rw [hr]
      refine ⟨{
        payable := by simpa only [State.Payable, hesc] using h.payable
        keyed   := hesc ▸ h.keyed
        covered := fun d => ?_
        dated   := fun id e hg => ?_
        time    := h.time.trans hle
      }, ?_⟩
      · rw [Keeper.owed, hesc, hbank]
        exact (h.covered d).trans (hl d)
      · obtain ⟨t, n, hi, ht, hn⟩ := h.dated id e (hesc ▸ hg)
        exact ⟨t, n, hi, ht.trans hle, by rwa [hsince, hseq]⟩
      · intro id e hg
        exact ⟨e, hesc ▸ hg, rfl, rfl, rfl, rfl, rfl, fun _ => rfl⟩

theorem founded (k : Keeper) : (restarting k).Invariant Chain.Admits (Chain.Founded k) where
  init := by
    intro c hc
    obtain ⟨hi, hnow, _⟩ := hc
    exact {
      payable := fun id e hg => by simp [hi.escrows] at hg
      keyed   := hi.escrows ▸ .empty
      covered := fun d => by simpa [Keeper.owed, hi.escrows] using hi.balance d
      dated   := fun id e hg => by simp [hi.escrows] at hg
      time    := hnow.ge
    }
  step h hg hs := (founded_step h hg hs).1

-- In every run with any number of restarts, an escrow that was once stored is stored from then on with
-- its terms. Once it is released or refunded it never changes again, and the module account always
-- covers all that are neither.
theorem escrows_outlive_restarts (k : Keeper) (h : (restarting k).Run Chain.Admits c)
    (h' : ((restarting k).startingAt c).Run Chain.Admits c') :
    c.state.Keeps c'.state ∧ ∀ d, k.owed c'.state d ≤ c'.state.bank.balances k.moduleAddr d := by
  have hinv : ((restarting k).startingAt c).Invariant Chain.Admits fun x =>
      x.Founded k ∧ c.state.Keeps x.state := {
    init := by
      rintro x rfl
      exact ⟨(founded k).holds h, .refl⟩
    step := fun hx hg hs => by
      obtain ⟨hf, hk⟩ := founded_step hx.1 hg hs
      exact ⟨hf, hx.2.trans hk⟩
  }
  obtain ⟨hf, hk⟩ := hinv.holds h'
  exact ⟨hk, hf.covered⟩

end Steps

-- The same account buys before and after a restart, both times with the first number.
namespace Sample

def buyAgain : Action :=
  .createEscrow (block 2) ⟨"alice", "bob", "100", "uatom", "a pen", 60⟩

def founding : Chain where
  state := genesis
  now   := 0
  since := -1

def bought : Chain where
  state := keeper.next genesis buy
  now   := 1000000000
  since := -1

def reopened : Chain where
  state := bought.state.restarted
  now   := 1000000000
  since := 1000000000

def boughtAgain : Chain where
  state := keeper.next reopened.state buyAgain
  now   := 2000000000
  since := 1000000000

theorem buy_step : (restarting keeper).step founding (.act buy) bought :=
  ⟨step (by decide : _ ≠ _) (by decide +kernel), rfl, rfl⟩

theorem buyAgain_step : (restarting keeper).step reopened (.act buyAgain) boughtAgain :=
  ⟨step (by decide : _ ≠ _) (by decide +kernel), rfl, rfl⟩

end Sample

theorem sample_escrows_outlive_restarts :
    (Sample.boughtAgain.state.escrows.get "alice-2-2000000000-0").isSome = true ∧
      Sample.bought.state.Keeps Sample.boughtAgain.state ∧
      ∀ d, Sample.keeper.owed Sample.boughtAgain.state d ≤
        Sample.boughtAgain.state.bank.balances Sample.keeper.moduleAddr d := by
  have hbuy : Sample.founding.Admits (.act Sample.buy) := by
    rintro t ⟨rfl⟩
    decide
  have hagain : Sample.reopened.Admits (.act Sample.buyAgain) := by
    rintro t ⟨rfl⟩
    decide
  have h : (restarting Sample.keeper).Run Chain.Admits Sample.bought :=
    .step (.init ⟨Sample.genesis_empty, rfl, by decide⟩) hbuy Sample.buy_step
  have h' : ((restarting Sample.keeper).startingAt Sample.bought).Run Chain.Admits
      Sample.boughtAgain :=
    .step (.step (a := .restart) (.init rfl) trivial rfl) hagain Sample.buyAgain_step
  exact ⟨by decide +kernel, escrows_outlive_restarts Sample.keeper h h'⟩

end Marketplace
