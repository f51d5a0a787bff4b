import MallChain.Account.Gdpr

namespace Account

open Interleaving

-- The records that belong to a user, by the id or by the linked wallet.
def Database.recordsOf (id wallet : String) (db : Database) : Database where
  kyc                     := db.kyc.find (·.userId = id)
  settings                := db.settings.find (·.userId = id)
  apiKeys                 := db.apiKeys.find (·.userId = id)
  contracts               := db.contracts.find (·.userId = id)
  notifications           := db.notifications.find (·.userId = id)
  validatorApplications   := db.validatorApplications.find (·.userId = id)
  walletTransactions      := db.walletTransactions.find (·.userId = id)
  transactions            := db.transactions.find (·.userId = id)
  conversations           := db.conversations.find fun r => r.participants.contains id
  messages                := db.messages.find (·.senderId = id)
  badgeIssuances          := db.badgeIssuances.find (·.walletAddress = some wallet)
  badgePurchases          := db.badgePurchases.find (·.walletAddress = some wallet)
  mallcoinPurchases       := db.mallcoinPurchases.find (·.walletAddress = some wallet)
  mallcoinSales           := db.mallcoinSales.find (·.sellerAddress = some wallet)
  withdrawalRequests      := db.withdrawalRequests.find (·.walletAddress = some wallet)
  b2cPayouts              := db.b2cPayouts.find (·.sellerAddress = some wallet)
  liquidityActivity       := db.liquidityActivity.find (·.walletAddress = some wallet)
  liquidityReconciliation := db.liquidityReconciliation.find (·.walletAddress = some wallet)
  amlReviews              := db.amlReviews.find (·.userId = id)

-- Purchases, sales, withdrawals, payouts and liquidity records of a wallet are taken out.
def Database.forget (wallet : String) (db : Database) : Database :=
  { db with
    badgePurchases          := db.badgePurchases.removeMany (·.walletAddress = some wallet)
    mallcoinPurchases       := db.mallcoinPurchases.removeMany (·.walletAddress = some wallet)
    mallcoinSales           := db.mallcoinSales.removeMany (·.sellerAddress = some wallet)
    withdrawalRequests      := db.withdrawalRequests.removeMany (·.walletAddress = some wallet)
    b2cPayouts              := db.b2cPayouts.removeMany (·.sellerAddress = some wallet)
    liquidityActivity       := db.liquidityActivity.removeMany (·.walletAddress = some wallet)
    liquidityReconciliation := db.liquidityReconciliation.removeMany (·.walletAddress = some wallet) }

-- The export is the same whatever the financial records of the wallet are.
def ExportIsolated (cipher : Cipher) (user : ReqUser) (wallet : String) (w : World) : Prop :=
  ∀ db, db.forget wallet = w.db.forget wallet →
    ((exportData cipher user).alone { w with db := db }).1 = ((exportData cipher user).alone w).1

-- The erasure changes nothing of the other user, wherever it fails.
def ErasureIsolated (user : ReqUser) (id wallet : String) (w : World) : Prop :=
  ∀ erasedAt fails,
    let w' := ((eraseUserData user erasedAt fails).alone w).2
    w'.db.recordsOf id wallet = w.db.recordsOf id wallet ∧ w'.users.get id = w.users.get id

-- A record with the phone of the account.
def Database.carries (phone : String) (db : Database) : Bool :=
  db.badgePurchases.any (·.phone = some phone) ||
  db.mallcoinPurchases.any (·.phone = some phone) ||
  db.mallcoinSales.any (·.phone = some phone) ||
  db.withdrawalRequests.any (·.phone = some phone) ||
  db.b2cPayouts.any (·.sellerPhone = some phone) ||
  db.liquidityActivity.any (·.phone = some phone)

-- A record of the other user carries the phone of the account and is not redacted already.
def SharesPhone (user : Profile) (id wallet : String) (w : World) : Prop :=
  ∃ phone, present user.phone = some phone ∧ phone ≠ redacted ∧ (w.db.recordsOf id wallet).carries phone

-- A KYC record of the account cannot be decrypted, and its export fails.
def Undecipherable (cipher : Cipher) (user : ReqUser) (w : World) : Prop :=
  cipher.decryptAll (w.db.kyc.find (·.userId = user.objectId)) = none

theorem present_eq_some {s : Option String} {t : String} (h : present s = some t) : s = some t :=
  (Option.filter_eq_some_iff.mp h).1

section Query

variable {ρ : Type} {user : Profile} {walletField phoneField : ρ → Option String} {query : ρ → Bool}
  {s t : KVStore ℕ ρ} {r : ρ} {redact : ρ → ρ} {wallet phone : String}

theorem of_walletOrPhone (hq : walletOrPhone user walletField phoneField = some query)
    (hr : query r = true) :
    (∃ wallet, user.walletAddress = some wallet ∧ walletField r = some wallet) ∨
      ∃ phone, present user.phone = some phone ∧ phoneField r = some phone := by
  simp only [walletOrPhone] at hq
  split_ifs at hq
  cases hq
  simp only [decide_eq_true_eq] at hr
  cases hr with
  | inl h =>
    obtain ⟨wallet, hw⟩ := Option.isSome_iff_exists.mp h.1
    exact .inl ⟨wallet, present_eq_some hw, h.2.trans hw⟩
  | inr h =>
    obtain ⟨phone, hp⟩ := Option.isSome_iff_exists.mp h.1
    exact .inr ⟨phone, hp, h.2.trans hp⟩

-- A record with the phone is found.
theorem walletOrPhone_of_phone (hp : present user.phone = some phone) :
    ∃ query, walletOrPhone user walletField phoneField = some query ∧
      ∀ r, phoneField r = some phone → query r = true := by
  rw [walletOrPhone, hp]
  refine ⟨_, if_pos (.inr rfl), ?_⟩
  intro r hr
  simp [hr]

-- Without a phone only the records of the own wallet are found.
theorem findBy_of_no_phone (hp : present user.phone = none) (hw : user.walletAddress ≠ some wallet)
    (hst : s.removeMany (walletField · = some wallet) = t.removeMany (walletField · = some wallet)) :
    findBy s (walletOrPhone user walletField phoneField) =
      findBy t (walletOrPhone user walletField phoneField) := by
  cases hq : walletOrPhone user walletField phoneField with
  | none => rfl
  | some query =>
    apply KVStore.find_eq_of_removeMany _ hst
    intro r hr
    cases of_walletOrPhone hq hr with
    | inl h =>
      obtain ⟨own, hown, hfield⟩ := h
      rw [hfield, ← hown]
      exact decide_eq_false hw
    | inr h =>
      obtain ⟨phone, hphone, _⟩ := h
      rw [hp] at hphone
      cases hphone

-- Redaction leaves the records of another wallet as they are exactly if none of them has the phone.
theorem find_updateBy_iff (hw : user.walletAddress ≠ some wallet)
    (hwallet : ∀ r, walletField (redact r) = walletField r)
    (hphone : ∀ r, phoneField (redact r) = some redacted)
    (hsame : ∀ r, phoneField r = some redacted → redact r = r) :
    (updateBy s redact (walletOrPhone user walletField phoneField)).find (walletField · = some wallet) =
        s.find (walletField · = some wallet) ↔
      ∀ phone, present user.phone = some phone → phone ≠ redacted →
        (s.find (walletField · = some wallet)).any (phoneField · = some phone) = false := by
  constructor
  case mp =>
    intro h phone hp hne
    rw [KVStore.any_eq_false]
    intro k r hget
    obtain ⟨query, hq, hfound⟩ := @walletOrPhone_of_phone _ _ walletField phoneField _ hp
    have hk := congrArg (·.get k) h
    rw [hq] at hk
    by_contra hr
    rw [Bool.not_eq_false, decide_eq_true_eq] at hr
    simp only [updateBy, hget] at hk
    rw [KVStore.get_find] at hget hk
    obtain ⟨hget, _⟩ := Option.filter_eq_some_iff.mp hget
    rw [KVStore.get_updateMany, hget, Option.map_some, if_pos (hfound r hr)] at hk
    have hk := (Option.filter_eq_some_iff.mp hk).1
    have hredacted := hphone r
    rw [Option.some.inj hk, hr] at hredacted
    exact hne (Option.some.inj hredacted)
  case mpr =>
    intro h
    cases hq : walletOrPhone user walletField phoneField with
    | none => rfl
    | some query =>
      apply KVStore.find_updateMany
      intro k r hget hr
      by_cases hown : walletField r = some wallet
      case neg => simp [hown, hwallet]
      case pos =>
        apply Or.inr
        cases of_walletOrPhone hq hr with
        | inl hr =>
          obtain ⟨own, hw', hfield⟩ := hr
          rw [hfield, ← hw'] at hown
          exact absurd hown hw
        | inr hr =>
          obtain ⟨phone, hp, hfield⟩ := hr
          by_cases hne : phone = redacted
          case pos => exact hsame r (hne ▸ hfield)
          case neg =>
            have hany := h phone hp hne
            rw [KVStore.any_eq_false] at hany
            have hr := hany k r (by simp [hget, hown])
            simp [hfield] at hr

end Query

section Export

variable {cipher : Cipher} {user : ReqUser} {wallet : String} {w : World} {db : Database}

theorem exportData_alone :
    ((exportData cipher user).alone w).1 =
      (gatherUserData cipher user w.db).elim (.error ⟨500, "export failed"⟩) .ok := by
  rw [exportData, Prog.read_bind, Prog.alone_step]
  cases gatherUserData cipher user w.db <;> rfl

theorem gatherUserData_of_undecipherable (h : Undecipherable cipher user w) :
    gatherUserData cipher user w.db = none := by
  rw [gatherUserData, h]
  rfl

theorem forget_kyc (h : db.forget wallet = w.db.forget wallet) : db.kyc = w.db.kyc :=
  congrArg (·.kyc) h

-- Without a phone, an export reads nothing that belongs to another wallet.
theorem gatherUserData_of_no_phone (hp : present user.stored.phone = none)
    (hw : user.stored.walletAddress ≠ some wallet) (h : db.forget wallet = w.db.forget wallet) :
    gatherUserData cipher user db = gatherUserData cipher user w.db := by
  have hpurchases : findBy db.badgePurchases (financialQuery user.stored) =
      findBy w.db.badgePurchases (financialQuery user.stored) :=
    findBy_of_no_phone hp hw (congrArg (·.badgePurchases) h)
  have hmallcoin : findBy db.mallcoinPurchases (financialQuery user.stored) =
      findBy w.db.mallcoinPurchases (financialQuery user.stored) :=
    findBy_of_no_phone hp hw (congrArg (·.mallcoinPurchases) h)
  have hsales : findBy db.mallcoinSales (saleQuery user.stored) =
      findBy w.db.mallcoinSales (saleQuery user.stored) :=
    findBy_of_no_phone hp hw (congrArg (·.mallcoinSales) h)
  have hwithdrawals : findBy db.withdrawalRequests (financialQuery user.stored) =
      findBy w.db.withdrawalRequests (financialQuery user.stored) :=
    findBy_of_no_phone hp hw (congrArg (·.withdrawalRequests) h)
  have hpayouts : findBy db.b2cPayouts (payoutQuery user.stored) =
      findBy w.db.b2cPayouts (payoutQuery user.stored) :=
    findBy_of_no_phone hp hw (congrArg (·.b2cPayouts) h)
  have hactivity : findBy db.liquidityActivity (financialQuery user.stored) =
      findBy w.db.liquidityActivity (financialQuery user.stored) :=
    findBy_of_no_phone hp hw (congrArg (·.liquidityActivity) h)
  have hreconciliation : findBy db.liquidityReconciliation (walletQuery user.stored) =
      findBy w.db.liquidityReconciliation (walletQuery user.stored) := by
    rw [walletQuery]
    cases hown : present user.stored.walletAddress with
    | none => rfl
    | some own =>
      have hst : db.liquidityReconciliation.removeMany (·.walletAddress = some wallet) =
          w.db.liquidityReconciliation.removeMany (·.walletAddress = some wallet) :=
        congrArg (·.liquidityReconciliation) h
      rw [Option.map_some, findBy, findBy]
      apply KVStore.find_eq_of_removeMany _ hst
      intro r hr
      rw [decide_eq_true_eq] at hr
      rw [hr, ← present_eq_some hown]
      exact decide_eq_false hw
  have hrest : ∀ {α : Type} (f : Database → α), (∀ db, f (db.forget wallet) = f db) → f db = f w.db := by
    intro α f hf
    rw [← hf db, h, hf w.db]
  rw [gatherUserData, gatherUserData, hpurchases, hmallcoin, hsales, hwithdrawals, hpayouts, hactivity,
    hreconciliation, hrest (·.kyc) fun _ => rfl, hrest (·.settings) fun _ => rfl,
    hrest (·.apiKeys) fun _ => rfl, hrest (·.contracts) fun _ => rfl,
    hrest (·.notifications) fun _ => rfl, hrest (·.validatorApplications) fun _ => rfl,
    hrest (·.walletTransactions) fun _ => rfl, hrest (·.transactions) fun _ => rfl,
    hrest (·.conversations) fun _ => rfl, hrest (·.messages) fun _ => rfl,
    hrest (·.badgeIssuances) fun _ => rfl]

theorem exists_fresh (s : KVStore ℕ Financial) : ∃ k, s.get k = none := by
  obtain ⟨k, hk⟩ := Infinite.exists_notMem_finset (s.entries.map (·.1)).toFinset
  refine ⟨k, ?_⟩
  cases hget : s.get k with
  | none => rfl
  | some v =>
    have hmem := List.mem_map_of_mem (f := (·.1)) (KVStore.mem_entries_iff.mpr hget)
    exact absurd (List.mem_toFinset.mpr hmem) hk

-- A purchase of the other wallet is found under the phone of the account.
theorem export_of_phone {phone : String} (hp : present user.stored.phone = some phone)
    (hd : ¬Undecipherable cipher user w) : ¬ExportIsolated cipher user wallet w := by
  intro h
  obtain ⟨k, hk⟩ := exists_fresh w.db.badgePurchases
  obtain ⟨kyc, hkyc⟩ := Option.ne_none_iff_exists'.mp hd
  let r : Financial := { walletAddress := some wallet, phone := some phone }
  have hsame := h { w.db with badgePurchases := w.db.badgePurchases.set k r } ?forget
  case forget =>
    rw [Database.forget, Database.forget, KVStore.removeMany_set (by simp [r]) hk]
  obtain ⟨query, hq, hfound⟩ :=
    @walletOrPhone_of_phone _ _ Financial.walletAddress Financial.phone _ hp
  rw [exportData_alone, exportData_alone, gatherUserData, gatherUserData, hkyc] at hsame
  have hexport := congrArg (fun e : Export => e.badgePurchases.get k) (Except.ok.inj hsame)
  simp only [financialQuery, hq, findBy, KVStore.get_find, KVStore.get_set_self, hk] at hexport
  simp [Option.filter_some, hfound r rfl] at hexport

theorem exportIsolated_iff (hw : user.stored.walletAddress ≠ some wallet) :
    ExportIsolated cipher user wallet w ↔
      present user.stored.phone = none ∨ Undecipherable cipher user w := by
  constructor
  case mp =>
    intro h
    cases hp : present user.stored.phone with
    | none => exact .inl rfl
    | some phone => exact .inr (not_not.mp fun hd => export_of_phone hp hd h)
  case mpr =>
    intro h db hdb
    rw [exportData_alone, exportData_alone]
    cases h with
    | inl hp => rw [gatherUserData_of_no_phone hp hw hdb]
    | inr hd =>
      have hd' : Undecipherable cipher user { w with db := db } := by
        rw [Undecipherable, forget_kyc hdb]
        exact hd
      rw [gatherUserData_of_undecipherable hd, gatherUserData_of_undecipherable hd']

end Export

theorem redactPhone_of_redacted (r : Financial) (h : r.phone = some redacted) : redactPhone r = r := by
  rw [redactPhone, ← h]

theorem redactSale_of_redacted (r : Sale) (h : r.phone = some redacted) : redactSale r = r := by
  rw [redactSale, ← h]

theorem redactPayout_of_redacted (r : Payout) (h : r.sellerPhone = some redacted) :
    redactPayout r = r := by
  rw [redactPayout, ← h]

section Redaction

variable {user : Profile} {wallet : String}

theorem find_financial_iff {s : KVStore ℕ Financial} (hw : user.walletAddress ≠ some wallet) :
    (updateBy s redactPhone (financialQuery user)).find (·.walletAddress = some wallet) =
        s.find (·.walletAddress = some wallet) ↔
      ∀ phone, present user.phone = some phone → phone ≠ redacted →
        (s.find (·.walletAddress = some wallet)).any (·.phone = some phone) = false :=
  find_updateBy_iff hw (fun _ => rfl) (fun _ => rfl) redactPhone_of_redacted

theorem find_sale_iff {s : KVStore ℕ Sale} (hw : user.walletAddress ≠ some wallet) :
    (updateBy s redactSale (saleQuery user)).find (·.sellerAddress = some wallet) =
        s.find (·.sellerAddress = some wallet) ↔
      ∀ phone, present user.phone = some phone → phone ≠ redacted →
        (s.find (·.sellerAddress = some wallet)).any (·.phone = some phone) = false :=
  find_updateBy_iff hw (fun _ => rfl) (fun _ => rfl) redactSale_of_redacted

theorem find_payout_iff {s : KVStore ℕ Payout} (hw : user.walletAddress ≠ some wallet) :
    (updateBy s redactPayout (payoutQuery user)).find (·.sellerAddress = some wallet) =
        s.find (·.sellerAddress = some wallet) ↔
      ∀ phone, present user.phone = some phone → phone ≠ redacted →
        (s.find (·.sellerAddress = some wallet)).any (·.sellerPhone = some phone) = false :=
  find_updateBy_iff hw (fun _ => rfl) (fun _ => rfl) redactPayout_of_redacted

end Redaction

section Erasure

variable {user : ReqUser} {id wallet : String} {w : World} {db : Database} {erasedAt : ℕ}
  {fails : Erasing → Bool}

-- No record of the other user has the phone of the account.
def Unshared (user : Profile) (id wallet : String) (db : Database) : Prop :=
  ∀ phone, present user.phone = some phone → phone ≠ redacted →
    (db.recordsOf id wallet).carries phone = false

theorem not_sharesPhone_iff : ¬SharesPhone user.stored id wallet w ↔ Unshared user.stored id wallet w.db := by
  simp only [SharesPhone, Unshared, not_exists, not_and, Bool.not_eq_true]

theorem find_owned (s : KVStore ℕ Owned) (hid : id ≠ user.objectId) :
    (s.removeMany (ownedBy user)).find (·.userId = id) = s.find (·.userId = id) := by
  apply KVStore.find_removeMany
  intro r hr
  rw [decide_eq_true_eq] at hr
  rw [ownedBy, hr]
  exact decide_eq_false hid

-- One write leaves the records of the other user as they are.
theorem apply_recordsOf (s : Erasing) (hid : id ≠ user.objectId)
    (hw : user.stored.walletAddress ≠ some wallet) (hu : Unshared user.stored id wallet db) :
    (s.apply user erasedAt db).recordsOf id wallet = db.recordsOf id wallet := by
  simp only [Unshared, Database.carries, Bool.or_eq_false_iff] at hu
  cases s with
  | notifications => simp only [Database.recordsOf, Erasing.apply, find_owned _ hid]
  | settings => simp only [Database.recordsOf, Erasing.apply, find_owned _ hid]
  | apiKeys => simp only [Database.recordsOf, Erasing.apply, find_owned _ hid]
  | contracts => simp only [Database.recordsOf, Erasing.apply, find_owned _ hid]
  | kyc =>
    have hkyc : (db.kyc.updateMany (·.userId = user.objectId) (redactKYC erasedAt)).find (·.userId = id) =
        db.kyc.find (·.userId = id) := by
      apply KVStore.find_updateMany
      intro k r _ hr
      rw [decide_eq_true_eq] at hr
      simp [redactKYC, hr, Ne.symm hid]
    simp only [Database.recordsOf, Erasing.apply, hkyc]
  | messages =>
    have hmessages : (db.messages.updateMany (·.senderId = user.objectId) redactMessage).find
        (·.senderId = id) = db.messages.find (·.senderId = id) := by
      apply KVStore.find_updateMany
      intro k r _ hr
      rw [decide_eq_true_eq] at hr
      simp [redactMessage, hr, Ne.symm hid]
    simp only [Database.recordsOf, Erasing.apply, hmessages]
  | badgePurchases =>
    have h := (find_financial_iff (s := db.badgePurchases) hw).mpr fun phone hp hne => (hu phone hp hne).1.1.1.1.1
    simp only [Database.recordsOf, Erasing.apply, h]
  | mallcoinPurchases =>
    have h := (find_financial_iff (s := db.mallcoinPurchases) hw).mpr fun phone hp hne => (hu phone hp hne).1.1.1.1.2
    simp only [Database.recordsOf, Erasing.apply, h]
  | mallcoinSales =>
    have h := (find_sale_iff (s := db.mallcoinSales) hw).mpr fun phone hp hne => (hu phone hp hne).1.1.1.2
    simp only [Database.recordsOf, Erasing.apply, h]
  | withdrawalRequests =>
    have h := (find_financial_iff (s := db.withdrawalRequests) hw).mpr fun phone hp hne => (hu phone hp hne).1.1.2
    simp only [Database.recordsOf, Erasing.apply, h]
  | b2cPayouts =>
    have h := (find_payout_iff (s := db.b2cPayouts) hw).mpr fun phone hp hne => (hu phone hp hne).1.2
    simp only [Database.recordsOf, Erasing.apply, h]
  | liquidityActivity =>
    have h := (find_financial_iff (s := db.liquidityActivity) hw).mpr fun phone hp hne => (hu phone hp hne).2
    simp only [Database.recordsOf, Erasing.apply, h]
  | account => rfl
  | auditLog => rfl

-- What belongs to the other user is as it was.
def Kept (id wallet : String) (w w' : World) : Prop :=
  w'.db.recordsOf id wallet = w.db.recordsOf id wallet ∧ w'.users.get id = w.users.get id

def Keeping (id wallet : String) (w : World) (_ : Label) (update : World → World) : Prop :=
  ∀ w', Kept id wallet w w' → Kept id wallet w (update w')

theorem eraseAll_steps (hid : id ≠ user.objectId) (hw : user.stored.walletAddress ≠ some wallet)
    (hu : Unshared user.stored id wallet w.db) : (l : List Erasing) →
    (eraseAll user erasedAt fails l).Steps (Keeping id wallet w)
  | [] => trivial
  | s :: l => by
    refine ⟨?_, fun _ => eraseAll_steps hid hw hu l⟩
    intro w' hk
    refine ⟨?_, hk.2⟩
    change (if fails s then w'.db else s.apply user erasedAt w'.db).recordsOf id wallet = _
    split_ifs
    case pos => exact hk.1
    case neg =>
      have hu' : Unshared user.stored id wallet w'.db := by
        rw [Unshared, hk.1]
        exact hu
      rw [apply_recordsOf s hid hw hu', hk.1]

theorem eraseRecords_steps (hid : id ≠ user.objectId) (hw : user.stored.walletAddress ≠ some wallet)
    (hu : Unshared user.stored id wallet w.db) : (stages : List (List Erasing)) →
    (eraseRecords user erasedAt fails stages).Steps (Keeping id wallet w)
  | [] => trivial
  | stage :: rest => by
    apply Prog.Steps.bind (eraseAll_steps hid hw hu stage)
    intro _
    exact Prog.Steps.ite (fun _ => trivial) fun _ => eraseRecords_steps hid hw hu rest

theorem eraseAccount_steps (hid : id ≠ user.objectId) :
    (eraseAccount user erasedAt fails).Steps (Keeping id wallet w) := by
  refine Prog.Steps.ite (fun _ => trivial) fun _ => ?_
  apply Prog.Steps.act_bind
  case h =>
    intro w' hk
    simp only [World.updateUser]
    cases w'.users.get user.objectId with
    | none => exact hk
    | some u => exact ⟨hk.1, (KVStore.get_set_ne hid).trans hk.2⟩
  case hf =>
    intro s
    cases s.written user.objectId _ with
    | none => trivial
    | some result =>
      refine ⟨?_, fun _ => ⟨fun w' hk => hk, fun _ => trivial⟩⟩
      intro w' hk
      split_ifs
      case pos => exact hk
      case neg => exact hk

theorem eraseUserData_steps (hid : id ≠ user.objectId) (hw : user.stored.walletAddress ≠ some wallet)
    (hu : Unshared user.stored id wallet w.db) :
    (eraseUserData user erasedAt fails).Steps (Keeping id wallet w) := by
  apply Prog.Steps.bind (eraseRecords_steps hid hw hu _)
  intro _
  exact Prog.Steps.ite (fun _ => eraseAccount_steps hid) fun _ => trivial

-- An erasure of which only the account fails has done all the rest.
theorem eraseUserData_alone_account :
    ((eraseUserData user erasedAt (· = .account)).alone w).2.db =
      applyAll user erasedAt (carriedOut (· = .account) (eraseStages user.stored)) w.db := by
  rw [eraseUserData, Prog.alone_bind, eraseRecords_alone]
  split_ifs
  case pos =>
    rw [eraseAccount, if_pos (.inr rfl)]
    rfl
  case neg => rfl

theorem carriedOut_account {phone : String} (hp : present user.stored.phone = some phone) :
    carriedOut (· = .account) (eraseStages user.stored) =
      [.notifications, .settings, .apiKeys, .contracts, .kyc, .messages, .badgePurchases,
        .mallcoinPurchases, .withdrawalRequests, .liquidityActivity, .mallcoinSales, .b2cPayouts] := by
  rw [eraseStages, redactPhoneOps, if_pos (.inr (by rw [hp]; rfl))]
  rfl

theorem unshared_of_erasureIsolated (hw : user.stored.walletAddress ≠ some wallet)
    (h : ErasureIsolated user id wallet w) : Unshared user.stored id wallet w.db := by
  intro phone hp hne
  have hk := (h 0 (· = .account)).1
  rw [eraseUserData_alone_account, carriedOut_account hp] at hk
  simp only [Database.carries, Bool.or_eq_false_iff]
  refine ⟨⟨⟨⟨⟨?purchases, ?mallcoin⟩, ?sales⟩, ?withdrawals⟩, ?payouts⟩, ?activity⟩
  case purchases =>
    exact (find_financial_iff (s := w.db.badgePurchases) hw).mp (congrArg (·.badgePurchases) hk) phone hp hne
  case mallcoin =>
    exact (find_financial_iff (s := w.db.mallcoinPurchases) hw).mp (congrArg (·.mallcoinPurchases) hk) phone hp hne
  case sales =>
    exact (find_sale_iff (s := w.db.mallcoinSales) hw).mp (congrArg (·.mallcoinSales) hk) phone hp hne
  case withdrawals =>
    exact (find_financial_iff (s := w.db.withdrawalRequests) hw).mp (congrArg (·.withdrawalRequests) hk) phone hp hne
  case payouts =>
    exact (find_payout_iff (s := w.db.b2cPayouts) hw).mp (congrArg (·.b2cPayouts) hk) phone hp hne
  case activity =>
    exact (find_financial_iff (s := w.db.liquidityActivity) hw).mp (congrArg (·.liquidityActivity) hk) phone hp hne

theorem erasureIsolated_iff (hid : id ≠ user.objectId) (hw : user.stored.walletAddress ≠ some wallet) :
    ErasureIsolated user id wallet w ↔ ¬SharesPhone user.stored id wallet w := by
  rw [not_sharesPhone_iff]
  constructor
  case mp => exact unshared_of_erasureIsolated hw
  case mpr =>
    intro hu erasedAt fails
    exact (eraseUserData_steps hid hw hu).alone (I := Kept id wallet w) (fun _ _ w' hs => hs w') ⟨rfl, rfl⟩

end Erasure

-- Two users with different linked wallets are isolated from each other exactly if the export of the one
-- cannot ask for a phone, and no record of the other has it.
theorem isolated_iff {cipher : Cipher} {user : ReqUser} {id wallet : String} {w : World}
    (hid : id ≠ user.objectId) (hw : user.stored.walletAddress ≠ some wallet) :
    ExportIsolated cipher user wallet w ∧ ErasureIsolated user id wallet w ↔
      (present user.stored.phone = none ∨ Undecipherable cipher user w) ∧
        ¬SharesPhone user.stored id wallet w := by
  rw [exportIsolated_iff hw, erasureIsolated_iff hid hw]

namespace Sample

def cipher : Cipher where
  decipher _ _ text := some text

def alice : Profile where
  email         := "alice@example.com"
  walletAddress := some "mall1alice"

def bob : User where
  email         := "bob@example.com"
  walletAddress := some "mall1bob"
  phone         := some "+254700000001"

def purchase : Financial where
  walletAddress := some "mall1bob"
  phone         := some "+254700000001"

def purchased : World where
  users := KVStore.empty.set "bob" bob
  db    := { badgePurchases := KVStore.empty.set 0 purchase }

end Sample

theorem sample_isolated :
    ExportIsolated Sample.cipher ⟨"alice", Sample.alice, true⟩ "mall1bob" Sample.purchased ∧
      ErasureIsolated ⟨"alice", Sample.alice, true⟩ "bob" "mall1bob" Sample.purchased := by
  apply (isolated_iff (by decide) (by decide)).mpr
  refine ⟨.inl rfl, ?_⟩
  intro h
  obtain ⟨phone, hp, _⟩ := h
  cases hp

-- Alice gives the phone of Bob as hers, and her erasure redacts his purchase.
theorem equal_phone_redacted :
    ¬∀ (cipher : Cipher) (user : ReqUser) (id wallet : String) (w : World), id ≠ user.objectId →
      user.stored.walletAddress ≠ some wallet →
        ExportIsolated cipher user wallet w ∧ ErasureIsolated user id wallet w := by
  intro h
  have hk := h Sample.cipher ⟨"alice", { Sample.alice with phone := some "+254700000001" }, true⟩ "bob"
    "mall1bob" Sample.purchased (by decide) (by decide)
  have hfield := congrArg (fun db : Database => db.badgePurchases.get 0) (hk.2 0 fun _ => false).1
  revert hfield
  decide +kernel

end Account
