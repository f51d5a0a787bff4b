import MallChain.Lib.Transition
import MallChain.Ante.Handler

namespace Ante

open Sdk ByteString

-- A transaction in a block, with the verdict of the standard handler that follows.
structure Delivery where
  tx     : Tx
  height : UInt64
  passes : Bool
  deriving DecidableEq

-- The store of the ante handler with the transactions that it accepted, the latest first.
structure World where
  store    : Store := .empty
  height   : UInt64 := 0
  accepted : List Delivery := []

-- A transaction that is rejected leaves nothing in the store.
def World.deliver (handler : UInt64 → Tx → Store → Result Store) (w : World) (d : Delivery) :
    World :=
  match handler d.height d.tx w.store with
  | .ok store =>
    if d.passes then { store := store, height := d.height, accepted := d :: w.accepted }
    else { w with height := d.height }
  | .error _ => { w with height := d.height }

def anteSystem (handler : UInt64 → Tx → Store → Result Store) : TransitionSystem World Delivery where
  init w      := w = {}
  step w d w' := w.height ≤ d.height ∧ w' = w.deliver handler d

def App.production (app : App) (curH : UInt64) (tx : Tx) (store : Store) : Result Store :=
  app.innerAnte curH tx false store

variable {app : App} {handler : UInt64 → Tx → Store → Result Store} {w : World} {d : Delivery}
variable {curH height height' : UInt64} {tx : Tx} {store store' : Store} {log : List Delivery}
variable {key : ByteString} {p : Delivery → Bool}

-- The counter after one more transaction.
def tick (c : UInt64 × UInt64) (curH : UInt64) : UInt64 × UInt64 :=
  if c.1 < curH then (curH, 1) else (c.1, c.2 + 1)

-- A counter that counts the accepted transactions of a kind.
structure Counted (store : Store) (log : List Delivery) (height : UInt64) (key : ByteString)
    (p : Delivery → Bool) : Prop where
  le     : (readCounter (store.get key)).1 ≤ height
  count  : (log.countP fun d => p d && d.height = (readCounter (store.get key)).1) =
    (readCounter (store.get key)).2.toNat
  latest : ∀ d ∈ log, p d = true → d.height ≤ (readCounter (store.get key)).1
  most   : ∀ h, (log.countP fun d => p d && d.height = h) ≤ 10

theorem Counted.empty : Counted .empty [] height key p where
  le           := UInt64.zero_le
  count        := rfl
  latest _ h _ := absurd h (List.not_mem_nil)
  most _       := Nat.zero_le _

theorem Counted.wait (h : Counted store log height key p) (hle : height ≤ height') :
    Counted store log height' key p where
  le     := h.le.trans hle
  count  := h.count
  latest := h.latest
  most   := h.most

theorem Counted.skip (h : Counted store log height key p) (hle : height ≤ d.height)
    (hp : p d = false) (hget : store'.get key = store.get key) :
    Counted store' (d :: log) d.height key p where
  le             := hget ▸ h.le.trans hle
  count          := by simpa [hp, hget] using h.count
  latest d' hd q := by
    rcases List.mem_cons.mp hd with rfl | hd
    · exact absurd (hp.symm.trans q) Bool.false_ne_true
    · exact hget ▸ h.latest d' hd q
  most n         := by simpa [hp] using h.most n

-- No transaction of the kind is counted at a height above the counter's.
theorem Counted.none_after (h : Counted store log height key p)
    (hlt : (readCounter (store.get key)).1 < curH) :
    (log.countP fun d => p d && d.height = curH) = 0 := by
  refine List.countP_eq_zero.mpr fun d hd => ?_
  simp only [Bool.and_eq_true, decide_eq_true_eq, not_and]
  intro hp heq
  have hle := h.latest d hd hp
  rw [heq] at hle
  exact absurd hlt hle.not_gt

-- The count of the next transaction is the number of those at its height, itself included.
theorem Counted.tick_eq (h : Counted store log height key p) (hle : height ≤ curH) :
    (tick (readCounter (store.get key)) curH).1 = curH ∧
    (tick (readCounter (store.get key)) curH).2.toNat =
      (log.countP fun d => p d && d.height = curH) + 1 := by
  rw [tick]
  split
  case isTrue hlt => exact ⟨rfl, by rw [h.none_after hlt]; rfl⟩
  case isFalse hge =>
    have heq : (readCounter (store.get key)).1 = curH :=
      le_antisymm (h.le.trans hle) (not_lt.mp hge)
    have hmost := h.most curH
    have hcount := h.count
    rw [heq] at hcount
    refine ⟨heq, ?_⟩
    rw [UInt64.toNat_add, ← hcount, Nat.mod_eq_of_lt]
    · rfl
    · have hone : UInt64.toNat 1 = 1 := rfl
      omega

theorem Counted.add (h : Counted store log height key p) (hle : height ≤ d.height)
    (hp : p d = true) (hc : (tick (readCounter (store.get key)) d.height).2 ≤ 10)
    (hget : store'.get key = some (writeCounter (tick (readCounter (store.get key)) d.height).1
      (tick (readCounter (store.get key)) d.height).2)) :
    Counted store' (d :: log) d.height key p := by
  obtain ⟨hheight, hcount⟩ := h.tick_eq hle
  have hread : readCounter (store'.get key) = (d.height,
      (tick (readCounter (store.get key)) d.height).2) := by
    rw [hget, readCounter_writeCounter, hheight]
  have hten : (tick (readCounter (store.get key)) d.height).2.toNat ≤ 10 :=
    UInt64.le_iff_toNat_le.mp hc
  refine ⟨hread ▸ le_refl _, ?_, fun d' hd hp' => ?_, fun n => ?_⟩
  · rw [hread, hcount]
    simp [hp]
  · rw [hread]
    rcases List.mem_cons.mp hd with rfl | hd
    · exact le_refl _
    · exact ((h.latest d' hd hp').trans h.le).trans hle
  · by_cases hn : d.height = n
    case pos =>
      subst hn
      simpa [hp, ← hcount] using hten
    case neg => simpa [hp, hn] using h.most n

-- The handler with the counter that it stores under a key.
def App.countedIn (app : App) (key : ByteString) (curH : UInt64) (tx : Tx) (store : Store) :
    Result Store := do
  let counter := tick (readCounter (store.get key)) curH
  failIf (counter.2 > perAddrPerBlockLimit)
    (.error s!"rate limit exceeded for sender {app.sender tx}")
  let store := store.set key (writeCounter counter.1 counter.2)
  match tx.encoded with
  | none => return store
  | some b =>
    failIf ((store.get (app.replayKey b)).isSome = true) (.error "replayed transaction")
    let store := deleteAll (toDelete (pruneBefore curH) store) store
    return store.set (app.replayKey b) (putUint64 curH)

theorem production_eq_countedIn :
    app.production curH tx store = app.countedIn (rlKey (app.sender tx)) curH tx store :=
  rfl

-- What the handler has done to the store when it accepts a transaction.
structure Admitted (app : App) (key : ByteString) (curH : UInt64) (tx : Tx) (store store' : Store) :
    Prop where
  limit   : (tick (readCounter (store.get key)) curH).2 ≤ 10
  counter : store'.get key = some (writeCounter (tick (readCounter (store.get key)) curH).1
    (tick (readCounter (store.get key)) curH).2)
  others  : ∀ k, k ≠ key → ¬replayPrefix <+: k → store'.get k = store.get k
  fresh   : ∀ b, tx.encoded = some b → store.get (app.replayKey b) = none
  marked  : ∀ b, tx.encoded = some b → store'.get (app.replayKey b) = some (putUint64 curH)
  replays : ∀ k, replayPrefix <+: k → (∀ b, tx.encoded = some b → k ≠ app.replayKey b) →
    store'.get k = if tx.encoded ≠ none ∧ k ∈ toDelete (pruneBefore curH) store then none
      else store.get k

theorem toDelete_set (hk : ¬replayPrefix <+: key) {k v : ByteString} {n : UInt64} :
    k ∈ toDelete n (store.set key v) ↔ k ∈ toDelete n store := by
  simp only [mem_toDelete]
  by_cases heq : k = key
  case pos => simp [heq, hk]
  case neg => rw [KVStore.get_set_ne heq]

theorem of_countedIn (hk : ¬replayPrefix <+: key) (h : app.countedIn key curH tx store = .ok store') :
    Admitted app key curH tx store store' := by
  simp only [App.countedIn, Result.bind_eq_ok, failIf_eq_ok, not_lt] at h
  obtain ⟨_, hlimit, h⟩ := h
  let counter := tick (readCounter (store.get key)) curH
  let counted := store.set key (writeCounter counter.1 counter.2)
  have hself : counted.get key = some (writeCounter counter.1 counter.2) := KVStore.get_set_self
  have hne : ∀ k, replayPrefix <+: k → k ≠ key := fun k hp he => hk (he ▸ hp)
  cases hb : tx.encoded with
  | none =>
    rw [hb] at h
    cases h
    exact {
      limit   := hlimit
      counter := hself
      others k hne _ := KVStore.get_set_ne hne
      fresh b he     := by cases hb.symm.trans he
      marked b he    := by cases hb.symm.trans he
      replays k hp _ := by
        rw [if_neg (by simp [hb])]
        exact KVStore.get_set_ne (hne k hp)
    }
  | some b =>
    simp only [hb, Result.bind_eq_ok, failIf_eq_ok, Result.pure_eq_ok, Bool.not_eq_true,
      Option.isSome_eq_false_iff, Option.isNone_iff_eq_none] at h
    obtain ⟨_, hfresh, rfl⟩ := h
    have hkey : app.replayKey b ≠ key := hne _ App.replayKey_prefix
    have hfresh : store.get (app.replayKey b) = none := (KVStore.get_set_ne hkey).symm.trans hfresh
    exact {
      limit   := hlimit
      counter := by
        rw [KVStore.get_set_ne hkey.symm, get_pruned_of_not_replay hk]
        exact hself
      others k hne hp := by
        have hrep : k ≠ app.replayKey b := fun he => hp (he ▸ App.replayKey_prefix)
        rw [KVStore.get_set_ne hrep, get_pruned_of_not_replay hp]
        exact KVStore.get_set_ne hne
      fresh b' he  := by
        cases hb.symm.trans he
        exact hfresh
      marked b' he := by
        cases hb.symm.trans he
        exact KVStore.get_set_self
      replays k hp hrep := by
        rw [KVStore.get_set_ne (hrep b hb), get_deleteAll, KVStore.get_set_ne (hne k hp)]
        simp only [toDelete_set hk, hb, ne_eq, reduceCtorEq, not_false_eq_true, true_and]
    }

-- What was seen within the retention is kept.
theorem Admitted.kept {b : ByteString} {n : UInt64} (h : Admitted app key curH tx store store')
    (hget : store.get (app.replayKey b) = some (putUint64 n)) (hle : curH.toNat ≤ n.toNat + 200) :
    store'.get (app.replayKey b) = some (putUint64 n) := by
  have hne : ∀ b', tx.encoded = some b' → app.replayKey b ≠ app.replayKey b' := by
    intro b' hb' he
    rw [he, h.fresh b' hb'] at hget
    cases hget
  rw [h.replays _ App.replayKey_prefix hne, if_neg, hget]
  rintro ⟨_, hmem⟩
  obtain ⟨v, hv, _, _, hlt⟩ := mem_toDelete.mp hmem
  cases hget.symm.trans hv
  rw [uint64_putUint64] at hlt
  have hold := of_lt_pruneBefore hlt
  omega

-- The handler's part of a run: the counters of all senders, and the transactions of the last blocks.
structure World.Guarded (app : App) (w : World) : Prop where
  counted    : ∀ sender, Counted w.store w.accepted w.height (rlKey sender)
    fun d => app.sender d.tx = sender
  remembered : ∀ d ∈ w.accepted, ∀ b, d.tx.encoded = some b →
    d.height.toNat + 200 < w.height.toNat ∨
    ∃ n, w.store.get (app.replayKey b) = some (putUint64 n) ∧ d.height ≤ n
  apart      : w.accepted.Pairwise fun later earlier => ∀ b, later.tx.encoded = some b →
    earlier.tx.encoded = some b → earlier.height.toNat + 200 < later.height.toNat

theorem World.Guarded.wait (h : w.Guarded app) (hle : w.height ≤ height') :
    World.Guarded app { w with height := height' } where
  counted sender := (h.counted sender).wait hle
  remembered d hd b hb :=
    (h.remembered d hd b hb).imp_left fun hlt => hlt.trans_le (UInt64.le_iff_toNat_le.mp hle)
  apart := h.apart

theorem World.Guarded.add (h : w.Guarded app) (hle : w.height ≤ d.height)
    (ha : Admitted app (rlKey (app.sender d.tx)) d.height d.tx w.store store') :
    World.Guarded app { store := store', height := d.height, accepted := d :: w.accepted } where
  counted sender := by
    by_cases hs : app.sender d.tx = sender
    case pos =>
      subst hs
      exact (h.counted _).add hle (by simp) ha.limit ha.counter
    case neg =>
      have hne : rlKey sender ≠ rlKey (app.sender d.tx) := fun he => hs (rlKey_injective he).symm
      exact (h.counted sender).skip hle (by simp [hs]) (ha.others _ hne not_replay_rlKey)
  remembered d' hd b hb := by
    rcases List.mem_cons.mp hd with rfl | hd
    case inl => exact .inr ⟨_, ha.marked b hb, le_refl _⟩
    case inr =>
      rcases h.remembered d' hd b hb with hold | ⟨n, hget, hn⟩
      · exact .inl (hold.trans_le (UInt64.le_iff_toNat_le.mp hle))
      · by_cases hkeep : d.height.toNat ≤ n.toNat + 200
        case pos => exact .inr ⟨n, ha.kept hget hkeep, hn⟩
        case neg =>
          have hn := UInt64.le_iff_toNat_le.mp hn
          have hold : d'.height.toNat + 200 < d.height.toNat := by omega
          exact .inl hold
  apart := by
    refine List.pairwise_cons.mpr ⟨fun d' hd b hb hb' => ?_, h.apart⟩
    rcases h.remembered d' hd b hb' with hold | ⟨n, hget, _⟩
    · exact hold.trans_le (UInt64.le_iff_toNat_le.mp hle)
    · rw [ha.fresh b hb] at hget
      cases hget

theorem guarded_invariant (app : App) :
    (anteSystem app.production).Invariant (fun _ _ => True) (World.Guarded app) where
  init := by
    rintro w rfl
    exact ⟨fun sender => .empty, fun d hd => absurd hd List.not_mem_nil, .nil⟩
  step := by
    rintro w d w' h _ ⟨hle, rfl⟩
    rw [World.deliver]
    split
    case h_2 => exact h.wait hle
    case h_1 store' hok =>
      split
      · exact h.add hle (of_countedIn not_replay_rlKey (production_eq_countedIn ▸ hok))
      · exact h.wait hle

-- At every height at most ten transactions of a sender are accepted, the same bytes are not accepted
-- twice within 200 blocks, and what was accepted within them is remembered.
theorem rate_and_replay (app : App) {w : World} (h : (anteSystem app.production).Reachable w) :
    (∀ sender height, (w.accepted.countP fun d => app.sender d.tx = sender ∧ d.height = height) ≤ 10) ∧
    (w.accepted.Pairwise fun later earlier => ∀ b, later.tx.encoded = some b →
      earlier.tx.encoded = some b → earlier.height.toNat + 200 < later.height.toNat) ∧
    ∀ d ∈ w.accepted, ∀ b, d.tx.encoded = some b → w.height.toNat ≤ d.height.toNat + 200 →
      w.store.get (app.replayKey b) ≠ none := by
  have hI := (guarded_invariant app).holds h
  refine ⟨fun sender height => ?_, hI.apart, fun d hd b hb hle => ?_⟩
  · simpa using (hI.counted sender).most height
  · rcases hI.remembered d hd b hb with hold | ⟨n, hget, _⟩
    · omega
    · simp [hget]

namespace Sample

def plainApp : App where
  sha256 b      := b
  addressString := fun address => String.ofList (address.bytes.map fun b => Char.ofNat b.val)

def alice : AccAddress :=
  .ofBytes [97]

def bob : AccAddress :=
  .ofBytes [98]

def transfer (signer : AccAddress) (n : ℕ) : Tx where
  signers := some [signer]
  encoded := some (putUint64 (.ofNat n))

def delivery (signer : AccAddress) (height : UInt64) (n : ℕ) : Delivery where
  tx     := transfer signer n
  height := height
  passes := true

def run (handler : UInt64 → Tx → Store → Result Store) (ds : List Delivery) : World :=
  ds.foldl (.deliver handler) {}

-- A transaction is sent again and again, the last time when another one has had it forgotten.
def repeated : List Delivery :=
  [delivery alice 1 7, delivery alice 2 7, delivery alice 201 7, delivery alice 202 7,
    delivery bob 202 8, delivery alice 202 7]

theorem run_reachable {handler : UInt64 → Tx → Store → Result Store} {ds : List Delivery} {w : World}
    (hw : (anteSystem handler).Reachable w) (h : (w.height :: ds.map (·.height)).IsChain (· ≤ ·)) :
    (anteSystem handler).Reachable (ds.foldl (.deliver handler) w) := by
  induction ds generalizing w with
  | nil => exact hw
  | cons d ds ih =>
    rw [List.map_cons, List.isChain_cons_cons] at h
    have hheight : (w.deliver handler d).height = d.height := by
      rw [World.deliver]
      split
      · split <;> rfl
      · rfl
    exact ih (.step hw trivial ⟨h.1, rfl⟩) (hheight ▸ h.2)

end Sample

theorem repeated_rate_and_replay :
    (Sample.run Sample.plainApp.production Sample.repeated).accepted.map (·.height) =
      [202, 202, 1] ∧
    (∀ sender height, ((Sample.run Sample.plainApp.production Sample.repeated).accepted.countP fun d =>
      Sample.plainApp.sender d.tx = sender ∧ d.height = height) ≤ 10) := by
  have hr : (anteSystem Sample.plainApp.production).Reachable
      (Sample.run Sample.plainApp.production Sample.repeated) :=
    Sample.run_reachable (.init rfl) (by decide)
  exact ⟨by decide +kernel, (rate_and_replay Sample.plainApp hr).1⟩

end Ante
