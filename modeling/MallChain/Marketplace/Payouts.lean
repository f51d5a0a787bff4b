import MallChain.Marketplace.Effects

namespace Marketplace

open Sdk TransitionSystem

-- The funds of the escrows that are neither released nor refunded.
def Keeper.owed (k : Keeper) (s : State) (d : String) : ℤ :=
  s.escrows.sum fun _ e => if e.live then (k.funds e.amount e.denom).amountOf d else 0

def State.settled (s : State) (id : String) : Bool :=
  (s.escrows.get id).any fun e => !e.live

-- A step of a run.
structure Entry where
  before : State
  action : Action
  after  : State

namespace Entry

def settles (e : Entry) (id : String) : Bool :=
  e.before.live id && !e.after.live id

-- The id that `CreateEscrow` returns.
def createdId (k : Keeper) (e : Entry) : Option String :=
  match e.action with
  | .createEscrow ctx msg => (MsgServer.createEscrow k ctx msg e.before).toOption.map (·.2)
  | _ => none

-- The payout of an escrow that was opened with a message: all its funds go to the seller through a
-- release by the buyer, or to the buyer through a refund by the seller.
inductive PaysOut (k : Keeper) (id : String) (msg : MsgCreateEscrow) (e : Entry) : Prop
  | release {ctx : Context} {addr : AccAddress} (action : e.action = .releaseFunds ctx ⟨id, msg.buyer⟩)
    (seller : k.accAddressFromBech32 msg.seller = some addr)
    (bank : Bank.Changed e.before.bank e.after.bank
      (Bank.held addr (k.funds msg.amount msg.denom) -
        Bank.held k.moduleAddr (k.funds msg.amount msg.denom)) 0)
  | refund {addr : AccAddress} (action : e.action = .refundBuyer ⟨id, msg.seller⟩)
    (buyer : k.accAddressFromBech32 msg.buyer = some addr)
    (bank : Bank.Changed e.before.bank e.after.bank
      (Bank.held addr (k.funds msg.amount msg.denom) -
        Bank.held k.moduleAddr (k.funds msg.amount msg.denom)) 0)

end Entry

def Opened (k : Keeper) (history : List Entry) (id : String) (msg : MsgCreateEscrow) : Prop :=
  ∃ e ∈ history, ∃ ctx, e.action = .createEscrow ctx msg ∧ e.createdId k = some id

def Keeper.chain (k : Keeper) : TransitionSystem (State × List Entry) Action :=
  (system k).traced Entry.mk

-- An id ends with its number in the sequence.
def Numbered (id : String) (n : ℕ) : Prop :=
  ∃ p : String, id.toList = p.toList ++ '-' :: Decimal.digits n

-- How the history fits the store and the bank.
structure Booked (k : Keeper) (s : State) (history : List Entry) : Prop where
  records : ∀ id escrow, s.escrows.get id = some escrow →
    k.Payable escrow ∧ ∃ msg, Opened k history id msg ∧ escrow.Of msg
  ids     : (history.filterMap (Entry.createdId k)).Nodup
  numbers : ∀ id ∈ history.filterMap (Entry.createdId k), ∃ n < s.escrowSeq, Numbered id n
  covered : ∀ d, k.owed s d ≤ s.bank.balances k.moduleAddr d
  once    : ∀ id, history.countP (·.settles id) ≤ (s.settled id).toNat
  paid    : ∀ e ∈ history, ∀ id, e.settles id = true → ∃ msg, Opened k history id msg ∧
    e.PaysOut k id msg
  falls   : ∀ e ∈ history, ∀ d,
    e.after.bank.balances k.moduleAddr d < e.before.bank.balances k.moduleAddr d →
      ∃ id, e.settles id = true

variable {k : Keeper} {ctx : Context} {s s' : State} {id id' : String} {escrow escrow' : Escrow}
variable {history : List Entry} {msg : MsgCreateEscrow} {e : Entry} {a : Action} {d : String}

theorem Numbered.inj {n m : ℕ} (hn : Numbered id n) (hm : Numbered id m) : n = m := by
  obtain ⟨p, hp⟩ := hn
  obtain ⟨q, hq⟩ := hm
  exact Decimal.append_digits_inj (by decide) (hp.symm.trans hq)

theorem escrowID_numbered (ctx : Context) (buyer : String) (seq : ℕ) :
    Numbered (escrowID ctx buyer seq) seq := by
  refine ⟨s!"{buyer}-{ctx.blockHeight.toInt}-{(Context.unixNano ctx.blockTime).toInt}", ?_⟩
  simp only [escrowID, String.toList_append, ← Decimal.toList_toString, List.append_assoc]
  rfl

-- The statuses after a write.

theorem live_set (h : s'.escrows = s.escrows.set id escrow) :
    s'.live id' = if id' = id then escrow.live else s.live id' := by
  rw [State.live, h, KVStore.get_set]
  split_ifs <;> rfl

theorem settled_set (h : s'.escrows = s.escrows.set id escrow) :
    s'.settled id' = if id' = id then !escrow.live else s.settled id' := by
  rw [State.settled, h, KVStore.get_set]
  split_ifs <;> rfl

theorem live_of_get (h : s.escrows.get id = some escrow) : s.live id = escrow.live := by
  rw [State.live, h, Option.any_some]

theorem settled_of_get (h : s.escrows.get id = some escrow) : s.settled id = !escrow.live := by
  rw [State.settled, h, Option.any_some]

theorem not_settled_of_live (h : s.live id = true) : s.settled id = false := by
  cases hg : s.escrows.get id <;> simp_all [State.live, State.settled]

theorem Opened.cons (h : Opened k history id msg) : Opened k (e :: history) id msg := by
  obtain ⟨e', he, h⟩ := h
  exact ⟨e', List.mem_cons_of_mem _ he, h⟩

-- One more step. The escrows that it settles are settled from then on, and it opens new ones only.
theorem Booked.cons (h : Booked k s history) (hseq : s.escrowSeq ≤ s'.escrowSeq)
    (hrec : ∀ id escrow, s'.escrows.get id = some escrow →
      k.Payable escrow ∧ ∃ msg, Opened k (⟨s, a, s'⟩ :: history) id msg ∧ escrow.Of msg)
    (hid : ∀ id, Entry.createdId k ⟨s, a, s'⟩ = some id →
      Numbered id s.escrowSeq ∧ s.escrowSeq < s'.escrowSeq)
    (hcov : ∀ d, k.owed s' d ≤ s'.bank.balances k.moduleAddr d)
    (hset : ∀ id, s.settled id = true → s'.settled id = true)
    (hpaid : ∀ id, Entry.settles ⟨s, a, s'⟩ id = true → s'.settled id = true ∧
      ∃ msg, Opened k history id msg ∧ Entry.PaysOut k id msg ⟨s, a, s'⟩)
    (hfall : ∀ d, s'.bank.balances k.moduleAddr d < s.bank.balances k.moduleAddr d →
      ∃ id, Entry.settles ⟨s, a, s'⟩ id = true) : Booked k s' (⟨s, a, s'⟩ :: history) where
  records := hrec
  covered := hcov
  ids     := by
    cases hc : Entry.createdId k ⟨s, a, s'⟩ with
    | none => simpa [hc] using h.ids
    | some id =>
      rw [List.filterMap_cons_some hc, List.nodup_cons]
      refine ⟨fun hmem => ?_, h.ids⟩
      obtain ⟨n, hlt, hn⟩ := h.numbers id hmem
      exact hlt.ne (hn.inj (hid id hc).1)
  numbers := by
    have hold : ∀ id ∈ history.filterMap (Entry.createdId k), ∃ n < s'.escrowSeq, Numbered id n := by
      intro id hmem
      obtain ⟨n, hlt, hn⟩ := h.numbers id hmem
      exact ⟨n, hlt.trans_le hseq, hn⟩
    cases hc : Entry.createdId k ⟨s, a, s'⟩ with
    | none => simpa [hc] using hold
    | some id =>
      rw [List.filterMap_cons_some hc]
      intro id' hmem
      rcases List.mem_cons.mp hmem with rfl | hmem
      · exact ⟨s.escrowSeq, (hid id' hc).2, (hid id' hc).1⟩
      · exact hold id' hmem
  once id := by
    have hle := h.once id
    cases hs : Entry.settles ⟨s, a, s'⟩ id with
    | true =>
      have hlive : s.live id = true := (Bool.and_eq_true_iff.mp hs).1
      rw [not_settled_of_live hlive] at hle
      rw [List.countP_cons, if_pos hs, (hpaid id hs).1]
      exact Nat.succ_le_succ hle
    | false =>
      rw [List.countP_cons, hs, if_neg (by decide), add_zero]
      cases hb : s.settled id with
      | true => rwa [hset id hb, ← hb]
      | false =>
        rw [hb] at hle
        exact hle.trans (Nat.zero_le _)
  paid e he id hs := by
    rcases List.mem_cons.mp he with rfl | he
    · obtain ⟨_, msg, ho, hp⟩ := hpaid id hs
      exact ⟨msg, ho.cons, hp⟩
    · obtain ⟨msg, ho, hp⟩ := h.paid e he id hs
      exact ⟨msg, ho.cons, hp⟩
  falls e he d hd := by
    rcases List.mem_cons.mp he with rfl | he
    · exact hfall d hd
    · exact h.falls e he d hd

-- What a write does to the sum of the funds.

theorem owed_set_old {old : Escrow} (hg : s.escrows.get id = some old)
    (h : s'.escrows = s.escrows.set id escrow) :
    k.owed s' d = k.owed s d
      - (if old.live then (k.funds old.amount old.denom).amountOf d else 0)
      + (if escrow.live then (k.funds escrow.amount escrow.denom).amountOf d else 0) := by
  rw [Keeper.owed, h, KVStore.sum_set_old hg, Keeper.owed]

theorem owed_set_new (hg : s.escrows.get id = none) (h : s'.escrows = s.escrows.set id escrow) :
    k.owed s' d = k.owed s d
      + (if escrow.live then (k.funds escrow.amount escrow.denom).amountOf d else 0) := by
  rw [Keeper.owed, h, KVStore.sum_set_new hg, Keeper.owed]

theorem Keeper.Payable.funds_nonneg (h : k.Payable escrow) (d : String) :
    0 ≤ (k.funds escrow.amount escrow.denom).amountOf d := by
  obtain ⟨n, hn, hpos⟩ := h.amount
  rw [funds_eq hn]
  exact Coins.amountOf_nonneg (by simp [hpos.le])

theorem Booked.payable (h : Booked k s history) : s.Payable k :=
  fun id escrow hg => (h.records id escrow hg).1

-- The next id is not in use.
theorem Booked.fresh (h : Booked k s history) (ctx : Context) (buyer : String) :
    s.escrows.get (escrowID ctx buyer s.escrowSeq) = none := by
  by_contra hne
  obtain ⟨escrow, hg⟩ := Option.ne_none_iff_exists'.mp hne
  obtain ⟨_, msg, ⟨e, he, _, _, hid⟩, _⟩ := h.records _ escrow hg
  obtain ⟨n, hlt, hn⟩ := h.numbers _ (List.mem_filterMap.mpr ⟨e, he, hid⟩)
  exact hlt.ne (hn.inj (escrowID_numbered ctx buyer s.escrowSeq))

-- The effects keep the books.

theorem Created.booked {payer : AccAddress} (h : Created k ctx msg escrow payer s s')
    (ha : k.act s (.createEscrow ctx msg) = .ok s') (hpay : payer ≠ k.moduleAddr)
    (hb : Booked k s history) : Booked k s' (⟨s, .createEscrow ctx msg, s'⟩ :: history) := by
  have hnew := hb.fresh ctx msg.buyer
  have hid : Entry.createdId k ⟨s, .createEscrow ctx msg, s'⟩ =
      some (escrowID ctx msg.buyer s.escrowSeq) := by
    simp only [Keeper.act, Result.bind_eq_ok, Result.pure_eq_ok, Prod.exists] at ha
    obtain ⟨_, id, hc, _⟩ := ha
    simp [Entry.createdId, hc, Except.toOption, (of_createEscrow hc).1]
  have hbal : ∀ d, s'.bank.balances k.moduleAddr d =
      s.bank.balances k.moduleAddr d + (k.funds escrow.amount escrow.denom).amountOf d := by
    intro d
    simp [h.bank.balances, Bank.held, hpay.symm, h.terms.amount, h.terms.denom]
  have hns : ∀ id, Entry.settles ⟨s, .createEscrow ctx msg, s'⟩ id = false := by
    intro id
    simp only [Entry.settles, live_set h.escrows, h.live]
    split_ifs <;> simp
  refine hb.cons (h.seq ▸ Nat.le_succ _) (fun id e hg => ?_) (fun id hc => ?_) (fun d => ?_)
    (fun id hs => ?_) (fun id hs => ?_) fun d hd => ?_
  · rw [h.escrows, KVStore.get_set] at hg
    split_ifs at hg with heq
    · cases hg
      exact ⟨h.payable, msg, ⟨_, List.mem_cons_self .., ctx, rfl, heq ▸ hid⟩, h.terms⟩
    · obtain ⟨hp, msg', ho, ht⟩ := hb.records id e hg
      exact ⟨hp, msg', ho.cons, ht⟩
  · cases hid.symm.trans hc
    exact ⟨escrowID_numbered .., h.seq ▸ Nat.lt_succ_self _⟩
  · rw [owed_set_new hnew h.escrows, if_pos h.live, hbal]
    exact Int.add_le_add_right (hb.covered d) _
  · rw [settled_set h.escrows, if_neg]
    · exact hs
    · rintro rfl
      simp [State.settled, hnew] at hs
  · simp [hns] at hs
  · have hn := h.payable.funds_nonneg d
    rw [hbal] at hd
    omega

theorem Stayed.booked (h : Stayed id escrow escrow' s s') (ha : ∀ ctx msg, a ≠ .createEscrow ctx msg)
    (hb : Booked k s history) : Booked k s' (⟨s, a, s'⟩ :: history) := by
  have hesc : s'.escrows = s.escrows.set id escrow' := by rw [h.state]
  have hbank : s'.bank = s.bank := by rw [h.state]
  have hseq : s'.escrowSeq = s.escrowSeq := by rw [h.state]
  have hnid : Entry.createdId k ⟨s, a, s'⟩ = none := by
    cases a <;> simp_all [Entry.createdId]
  have hfunds : k.funds escrow'.amount escrow'.denom = k.funds escrow.amount escrow.denom := by
    rw [h.change]
  have hns : ∀ id', Entry.settles ⟨s, a, s'⟩ id' = false := by
    intro id'
    simp only [Entry.settles, live_set hesc, h.live.2]
    split_ifs <;> simp
  refine hb.cons hseq.ge (fun id' e hg => ?_) (by simp [hnid]) (fun d => ?_)
    (fun id' hs => ?_) (fun id' hs => ?_) fun d hd => ?_
  · rw [hesc, KVStore.get_set] at hg
    split_ifs at hg with heq
    · cases hg
      obtain ⟨hp, msg, ho, ht⟩ := hb.records id escrow h.get
      rw [h.change]
      exact ⟨⟨hp.buyer, hp.seller, hp.amount⟩, msg, heq ▸ ho.cons,
        ht.buyer, ht.seller, ht.amount, ht.denom⟩
    · obtain ⟨hp, msg, ho, ht⟩ := hb.records id' e hg
      exact ⟨hp, msg, ho.cons, ht⟩
  · rw [owed_set_old h.get hesc, if_pos h.live.1, if_pos h.live.2, hfunds, hbank, sub_add_cancel]
    exact hb.covered d
  · rw [settled_set hesc, if_neg]
    · exact hs
    · rintro rfl
      simp [settled_of_get h.get, h.live.1] at hs
  · simp [hns] at hs
  · simp [hbank] at hd

theorem Paid.booked {status : Status} {addr : AccAddress} (h : Paid k id escrow status addr s s')
    (hst : status = .released ∨ status = .refunded) (ha : ∀ ctx msg, a ≠ .createEscrow ctx msg)
    (hpaid : ∀ msg, escrow.Of msg → Entry.PaysOut k id msg ⟨s, a, s'⟩)
    (hb : Booked k s history) : Booked k s' (⟨s, a, s'⟩ :: history) := by
  have hdead : Escrow.live { escrow with status } = false := by
    rcases hst with rfl | rfl <;> rfl
  have hnid : Entry.createdId k ⟨s, a, s'⟩ = none := by
    cases a <;> simp_all [Entry.createdId]
  have hsettles : Entry.settles ⟨s, a, s'⟩ id = true := by
    simp [Entry.settles, live_set h.escrows, live_of_get h.get, h.live, hdead]
  obtain ⟨hp, msg, ho, ht⟩ := hb.records id escrow h.get
  have hbal : ∀ d, s.bank.balances k.moduleAddr d - (k.funds escrow.amount escrow.denom).amountOf d ≤
      s'.bank.balances k.moduleAddr d := by
    intro d
    have hn := hp.funds_nonneg d
    simp only [h.bank.balances, Pi.sub_apply, Bank.held, if_true]
    split_ifs <;> omega
  refine hb.cons h.seq.ge (fun id' e hg => ?_) (by simp [hnid]) (fun d => ?_)
    (fun id' hs => ?_) (fun id' hs => ?_) fun _ _ => ⟨id, hsettles⟩
  · rw [h.escrows, KVStore.get_set] at hg
    split_ifs at hg with heq
    · cases hg
      exact ⟨⟨hp.buyer, hp.seller, hp.amount⟩, msg, heq ▸ ho.cons,
        ht.buyer, ht.seller, ht.amount, ht.denom⟩
    · obtain ⟨hp, msg, ho, ht⟩ := hb.records id' e hg
      exact ⟨hp, msg, ho.cons, ht⟩
  · have hle := hb.covered d
    have hbal := hbal d
    simp only [owed_set_old h.get h.escrows, h.live, hdead, if_true, Bool.false_eq_true, if_false]
    omega
  · rw [settled_set h.escrows, hdead]
    split_ifs
    · rfl
    · exact hs
  · by_cases heq : id' = id
    case pos =>
      subst heq
      rw [settled_set h.escrows, if_pos rfl, hdead]
      exact ⟨rfl, msg, ho, hpaid msg ht⟩
    case neg => simp [Entry.settles, live_set h.escrows, heq] at hs

theorem Effect.booked (he : Effect k s s' a) (hl : k.Allowed s a) (ha : k.act s a = .ok s')
    (hb : Booked k s history) : Booked k s' (⟨s, a, s'⟩ :: history) := by
  cases he with
  | created h => exact h.booked ha (fun hp => hl (hp ▸ h.buyer)) hb
  | @released ctx msg escrow addr buyer seller h =>
    refine h.booked (.inl rfl) (by simp) (fun msg' ht => ?_) hb
    have hact : Action.releaseFunds ctx msg = .releaseFunds ctx ⟨msg.escrowId, msg'.buyer⟩ := by
      rw [← ht.buyer, ← buyer]
    exact .release hact (ht.seller ▸ seller) (ht.amount ▸ ht.denom ▸ h.bank)
  | @refunded msg escrow addr seller buyer h =>
    refine h.booked (.inr rfl) (by simp) (fun msg' ht => ?_) hb
    refine .refund ?_ (ht.buyer ▸ buyer) (ht.amount ▸ ht.denom ▸ h.bank)
    rw [← ht.seller, ← seller]
  | stayed old h => exact h.booked old hb
  | @rest bank h =>
    subst h
    have hns : ∀ id, Entry.settles ⟨s, .rest bank, { s with bank }⟩ id = false := by
      intro id
      exact Bool.and_not_self (s.live id)
    refine hb.cons le_rfl (fun id e hg => ?_) (by simp [Entry.createdId])
      (fun d => (hb.covered d).trans (hl d)) (fun _ hs => hs) (by simp [hns])
      fun d hd => absurd (hl d) (not_le.mpr hd)
    obtain ⟨hp, msg, ho, ht⟩ := hb.records id e hg
    exact ⟨hp, msg, ho.cons, ht⟩

theorem booked (k : Keeper) : k.chain.Invariant (fun _ _ => True) fun p => Booked k p.1 p.2 :=
  traced_invariant
    (fun hi => {
      records := by simp [hi.escrows]
      ids     := List.nodup_nil
      numbers := by simp
      covered := fun d => by simpa [Keeper.owed, hi.escrows] using hi.balance d
      once    := by simp
      paid    := by simp
      falls   := by simp
    })
    fun hb _ hs => (of_act hb.payable hs.2).booked hs.1 hs.2 hb

-- In every run the module account covers all escrows that are neither released nor refunded. Each
-- escrow pays out at most once, in full and to the side that the other one agreed to, and nothing
-- else takes coins from the module account. No id is returned twice.
theorem escrow_paid_once (k : Keeper) {p : State × List Entry} (h : k.chain.Reachable p) :
    (∀ d, k.owed p.1 d ≤ p.1.bank.balances k.moduleAddr d) ∧
    (∀ id, p.2.countP (·.settles id) ≤ 1) ∧
    (∀ e ∈ p.2, ∀ id, e.settles id = true → ∃ msg, Opened k p.2 id msg ∧ e.PaysOut k id msg) ∧
    (∀ e ∈ p.2, ∀ d, e.after.bank.balances k.moduleAddr d < e.before.bank.balances k.moduleAddr d →
      ∃ id, e.settles id = true) ∧
    (p.2.filterMap (Entry.createdId k)).Nodup := by
  have hb := (booked k).holds h
  exact ⟨hb.covered, fun id => (hb.once id).trans (Bool.toNat_le _), hb.paid, hb.falls, hb.ids⟩

-- A dispute does not keep the buyer from releasing the funds later.
namespace Sample

def opened : State := keeper.next genesis buy
def disputed : State := keeper.next opened dispute
def released : State := keeper.next disputed release

def log : List Entry :=
  [⟨disputed, release, released⟩, ⟨opened, dispute, disputed⟩, ⟨genesis, buy, opened⟩]

theorem released_run : keeper.chain.Reachable (released, log) := by
  have hinit : keeper.chain.Reachable (genesis, []) := Run.traced_init genesis_empty
  have hbuy : keeper.chain.Reachable (opened, log.drop 2) :=
    hinit.traced_step trivial (step (a := buy) (by decide : _ ≠ _) (by decide +kernel))
  have hdispute : keeper.chain.Reachable (disputed, log.drop 1) :=
    hbuy.traced_step trivial (step (a := dispute) trivial (by decide +kernel))
  exact hdispute.traced_step trivial (step (a := release) trivial (by decide +kernel))

end Sample

theorem sample_escrow_paid_once :
    Sample.released.bank.balances Sample.bob "uatom" = 100 ∧
    (∀ d, Sample.keeper.owed Sample.released d ≤
      Sample.released.bank.balances Sample.keeper.moduleAddr d) ∧
    (∀ id, Sample.log.countP (·.settles id) ≤ 1) ∧
    (∀ e ∈ Sample.log, ∀ id, e.settles id = true →
      ∃ msg, Opened Sample.keeper Sample.log id msg ∧ e.PaysOut Sample.keeper id msg) ∧
    (∀ e ∈ Sample.log, ∀ d, e.after.bank.balances Sample.keeper.moduleAddr d <
      e.before.bank.balances Sample.keeper.moduleAddr d → ∃ id, e.settles id = true) ∧
    (Sample.log.filterMap (Entry.createdId Sample.keeper)).Nodup :=
  ⟨by decide +kernel, escrow_paid_once Sample.keeper Sample.released_run⟩

end Marketplace
