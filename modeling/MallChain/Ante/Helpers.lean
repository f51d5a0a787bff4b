import MallChain.Ante.Window

namespace Ante

open Sdk ByteString

-- Whether a transaction is accepted.
def accepts (handler : UInt64 → Tx → Store → Result Store) (w : World) (d : Delivery) : Bool :=
  (handler d.height d.tx w.store).isOk && d.passes

def decisions (handler : UInt64 → Tx → Store → Result Store) (w : World) : List Delivery → List Bool
  | [] => []
  | d :: ds => accepts handler w d :: decisions handler (w.deliver handler d) ds

-- The state after the transactions of a list.
def World.run (handler : UInt64 → Tx → Store → Result Store) (w : World) (ds : List Delivery) : World :=
  ds.foldl (.deliver handler) w

def SameReplays (store store' : Store) : Prop :=
  ∀ k, replayPrefix <+: k → store.get k = store'.get k

-- The helpers decide like the handler and remember the same transactions.
def Agrees (app : App) (w w' : World) (ds : List Delivery) : Prop :=
  decisions app.production w ds = decisions app.composed w' ds ∧
  SameReplays (w.run app.production ds).store (w'.run app.composed ds).store

-- Ten transactions of several senders were accepted at the height, and nothing but that stands
-- against one more.
structure Crowded (app : App) (w : World) (d : Delivery) : Prop where
  total  : 10 ≤ w.accepted.countP fun d' => d'.height = d.height
  sender : (w.accepted.countP fun d' =>
    app.sender d'.tx = app.sender d.tx ∧ d'.height = d.height) < 10
  fresh  : ∀ b, d.tx.encoded = some b → w.store.get (app.replayKey b) = none
  passes : d.passes = true

def Uncrowded (app : App) (w : World) : List Delivery → Prop
  | [] => True
  | d :: ds => ¬Crowded app w d ∧ Uncrowded app (w.deliver app.production d) ds

variable {app : App} {handler : UInt64 → Tx → Store → Result Store} {w w' : World} {d : Delivery}
variable {curH n : UInt64} {tx : Tx} {store store' : Store} {key : ByteString}

-- With no height to prune before there is nothing to delete.
theorem pruneReplayKeys_eq : pruneReplayKeys store n = deleteAll (toDelete n store) store := by
  rw [pruneReplayKeys]
  split
  case isFalse => rfl
  case isTrue h =>
    have hnil : toDelete n store = [] := by
      refine List.eq_nil_iff_forall_not_mem.mpr fun k hk => ?_
      obtain ⟨_, _, _, _, hlt⟩ := mem_toDelete.mp hk
      exact UInt64.not_lt_zero (h ▸ hlt)
    rw [hnil]
    rfl

theorem composed_eq_countedIn : app.composed curH tx store = app.countedIn anteRLCountKey curH tx store := by
  have hcounter : updateRateLimitCounter store curH perAddrPerBlockLimit =
      if (tick (readCounter (store.get anteRLCountKey)) curH).2 > perAddrPerBlockLimit then
        (false, (tick (readCounter (store.get anteRLCountKey)) curH).2, store)
      else (true, (tick (readCounter (store.get anteRLCountKey)) curH).2,
        store.set anteRLCountKey (writeCounter (tick (readCounter (store.get anteRLCountKey)) curH).1
          (tick (readCounter (store.get anteRLCountKey)) curH).2)) := by
    simp only [updateRateLimitCounter, ← tick.eq_1]
  rw [App.composed, App.countedIn, hcounter]
  by_cases h : (tick (readCounter (store.get anteRLCountKey)) curH).2 > perAddrPerBlockLimit
  case pos =>
    simp only [h, if_true, failIf]
    rfl
  case neg =>
    simp only [h, if_false, failIf, Bool.true_eq_false, Result.ok_bind, App.replayDecision,
      pruneReplayKeys_eq, markReplaySeen, App.replayKey]
    cases tx.encoded <;> rfl

theorem countedIn_isOk_iff (hk : ¬replayPrefix <+: key) :
    (app.countedIn key curH tx store).isOk = true ↔
      (tick (readCounter (store.get key)) curH).2 ≤ 10 ∧
      ∀ b, tx.encoded = some b → store.get (app.replayKey b) = none := by
  constructor
  case mp =>
    intro h
    obtain ⟨store', h⟩ := Result.isOk_iff.mp h
    have ha := of_countedIn hk h
    exact ⟨ha.limit, ha.fresh⟩
  case mpr =>
    rintro ⟨hlimit, hfresh⟩
    have hle : ¬(tick (readCounter (store.get key)) curH).2 > perAddrPerBlockLimit := not_lt.mpr hlimit
    simp only [App.countedIn, failIf, hle, if_false, Result.ok_bind]
    cases hb : tx.encoded with
    | none => rfl
    | some b =>
      have hne : app.replayKey b ≠ key := fun he => hk (he ▸ App.replayKey_prefix)
      simp only [KVStore.get_set_ne hne, hfresh b hb]
      rfl

variable (app) in
-- A handler accepts a transaction as long as fewer than ten were counted with it.
theorem accepts_iff {p : Delivery → Bool} (hk : ¬replayPrefix <+: key)
    (hc : Counted w.store w.accepted w.height key p) (hle : w.height ≤ d.height) :
    ((app.countedIn key d.height d.tx w.store).isOk && d.passes) = true ↔
      (w.accepted.countP fun d' => p d' && d'.height = d.height) < 10 ∧
      (∀ b, d.tx.encoded = some b → w.store.get (app.replayKey b) = none) ∧ d.passes = true := by
  have hten : (tick (readCounter (w.store.get key)) d.height).2 ≤ 10 ↔
      (w.accepted.countP fun d' => p d' && d'.height = d.height) < 10 := by
    rw [UInt64.le_iff_toNat_le, (hc.tick_eq hle).2]
    exact Nat.succ_le_iff
  rw [Bool.and_eq_true, countedIn_isOk_iff hk, hten, and_assoc]

theorem deliver_eq : w.deliver handler d =
    if accepts handler w d = true then
      { store := ((handler d.height d.tx w.store).toOption).getD w.store, height := d.height,
        accepted := d :: w.accepted }
    else { w with height := d.height } := by
  rw [World.deliver, accepts]
  cases handler d.height d.tx w.store with
  | error e => rfl
  | ok store => cases d.passes <;> rfl

-- The two stores count in different ways, and remember the same.
structure Simulated (app : App) (w w' : World) : Prop where
  height   : w.height = w'.height
  accepted : w.accepted = w'.accepted
  replays  : SameReplays w.store w'.store
  guarded  : w.Guarded app
  counted  : Counted w'.store w'.accepted w'.height anteRLCountKey fun _ => true

-- What is remembered after a transaction does not depend on the counters.
theorem Admitted.replays_congr {key key' : ByteString} {store₁ store₁' : Store}
    (h : Admitted app key curH tx store store') (h' : Admitted app key' curH tx store₁ store₁')
    (hs : SameReplays store store₁) : SameReplays store' store₁' := by
  intro k hp
  by_cases hb : ∃ b, tx.encoded = some b ∧ k = app.replayKey b
  case pos =>
    obtain ⟨b, hb, rfl⟩ := hb
    rw [h.marked b hb, h'.marked b hb]
  case neg =>
    have hne : ∀ b, tx.encoded = some b → k ≠ app.replayKey b := fun b he hk => hb ⟨b, he, hk⟩
    have hdel : k ∈ toDelete (pruneBefore curH) store ↔ k ∈ toDelete (pruneBefore curH) store₁ := by
      rw [mem_toDelete, mem_toDelete, hs k hp]
    rw [h.replays k hp hne, h'.replays k hp hne, hs k hp]
    simp only [hdel]

theorem Simulated.wait (h : Simulated app w w') (hle : w.height ≤ d.height) :
    Simulated app { w with height := d.height } { w' with height := d.height } where
  height   := rfl
  accepted := h.accepted
  replays  := h.replays
  guarded  := h.guarded.wait hle
  counted  := h.counted.wait (h.height ▸ hle)

theorem Simulated.accepts_eq_iff (h : Simulated app w w') (hle : w.height ≤ d.height) :
    accepts app.production w d = accepts app.composed w' d ↔ ¬Crowded app w d := by
  have hprod := accepts_iff app not_replay_rlKey (h.guarded.counted (app.sender d.tx)) hle
  have hcomp := accepts_iff app not_replay_countKey h.counted (h.height ▸ hle)
  have hfresh : (∀ b, d.tx.encoded = some b → w'.store.get (app.replayKey b) = none) ↔
      ∀ b, d.tx.encoded = some b → w.store.get (app.replayKey b) = none := by
    simp only [h.replays _ App.replayKey_prefix]
  have hless : (w.accepted.countP fun d' =>
        decide (app.sender d'.tx = app.sender d.tx) && d'.height = d.height) ≤
      w.accepted.countP fun d' => d'.height = d.height := by
    refine List.countP_mono_left fun d' _ hd => ?_
    simp only [Bool.and_eq_true, decide_eq_true_eq] at hd ⊢
    exact hd.2
  rw [← production_eq_countedIn] at hprod
  rw [← composed_eq_countedIn, hfresh, ← h.accepted] at hcomp
  simp only [Bool.true_and] at hcomp
  rw [Bool.eq_iff_iff, accepts, accepts, hprod, hcomp]
  constructor
  case mp =>
    rintro hiff ⟨htotal, hsender, hf, hp⟩
    have hlt := (hiff.mp ⟨by simpa using hsender, hf, hp⟩).1
    omega
  case mpr =>
    intro hc
    constructor
    · rintro ⟨hsender, hf, hp⟩
      refine ⟨Nat.lt_of_not_le fun htotal => hc ⟨htotal, by simpa using hsender, hf, hp⟩, hf, hp⟩
    · rintro ⟨htotal, hf, hp⟩
      exact ⟨hless.trans_lt htotal, hf, hp⟩

theorem Simulated.deliver (h : Simulated app w w') (hle : w.height ≤ d.height)
    (heq : accepts app.production w d = accepts app.composed w' d) :
    Simulated app (w.deliver app.production d) (w'.deliver app.composed d) := by
  rw [deliver_eq, deliver_eq, ← heq]
  split
  case isFalse => exact h.wait hle
  case isTrue hacc =>
    have hacc' := heq.symm.trans hacc
    simp only [accepts, Bool.and_eq_true] at hacc hacc'
    obtain ⟨store', hs⟩ := Result.isOk_iff.mp hacc.1
    obtain ⟨store₁', hs'⟩ := Result.isOk_iff.mp hacc'.1
    have ha := of_countedIn not_replay_rlKey (production_eq_countedIn ▸ hs)
    have ha' := of_countedIn not_replay_countKey (composed_eq_countedIn ▸ hs')
    rw [hs, hs', ← h.accepted]
    exact {
      height   := rfl
      accepted := rfl
      replays  := ha.replays_congr ha' h.replays
      guarded  := h.guarded.add hle ha
      counted  := h.accepted ▸ h.counted.add (h.height ▸ hle) rfl ha'.limit ha'.counter
    }

theorem Simulated.agrees_iff {ds : List Delivery} (h : Simulated app w w')
    (hs : (w.height :: ds.map (·.height)).IsChain (· ≤ ·)) :
    Agrees app w w' ds ↔ Uncrowded app w ds := by
  induction ds generalizing w w' with
  | nil => exact iff_of_true ⟨rfl, h.replays⟩ trivial
  | cons d ds ih =>
    rw [List.map_cons, List.isChain_cons_cons] at hs
    have hstep := h.accepts_eq_iff hs.1
    by_cases hc : Crowded app w d
    case pos =>
      refine iff_of_false (fun ha => ?_) fun hu => hu.1 hc
      exact hstep.mp (List.cons.inj ha.1).1 hc
    case neg =>
      have heq := hstep.mpr hc
      have hheight : (w.deliver app.production d).height = d.height := by
        rw [deliver_eq]
        split <;> rfl
      have hrest := ih (h.deliver hs.1 heq) (hheight ▸ hs.2)
      rw [Uncrowded, ← hrest, Agrees, Agrees, decisions, decisions, heq, List.cons.injEq]
      simp only [true_and, hc, not_false_eq_true]
      rfl

-- On transactions at heights that do not fall, the helpers agree with the handler exactly when
-- none of them finds ten transactions of several senders at its height.
theorem helpers_agree_iff (app : App) (ds : List Delivery)
    (hs : (ds.map (·.height)).Pairwise (· ≤ ·)) : Agrees app {} {} ds ↔ Uncrowded app {} ds := by
  have hsim : Simulated app {} {} := ⟨rfl, rfl, fun _ _ => rfl,
    (guarded_invariant app).init rfl, .empty⟩
  refine hsim.agrees_iff (List.Pairwise.isChain (List.pairwise_cons.mpr ⟨fun _ _ => ?_, hs⟩))
  exact UInt64.zero_le

namespace Sample

-- A block with transactions of one sender, and one of another sender.
def block (n : ℕ) : List Delivery :=
  (List.range n).map (delivery alice 5) ++ [delivery bob 5 n]

end Sample

theorem block_agrees_iff :
    Agrees Sample.plainApp {} {} (Sample.block 9) ↔ Uncrowded Sample.plainApp {} (Sample.block 9) :=
  helpers_agree_iff Sample.plainApp (Sample.block 9) (by decide)

-- After ten transactions of one sender, the helpers reject the first one of another sender.
theorem crowded_block_differs :
    ¬∀ (app : App) (ds : List Delivery), (ds.map (·.height)).Pairwise (· ≤ ·) →
      Agrees app {} {} ds := by
  intro h
  have hagrees := h Sample.plainApp (Sample.block 10) (by decide)
  have hprod : decisions Sample.plainApp.production {} (Sample.block 10) = List.replicate 11 true := by
    decide +kernel
  have hcomp : decisions Sample.plainApp.composed {} (Sample.block 10) =
      List.replicate 10 true ++ [false] := by
    decide +kernel
  have heq := hagrees.1
  rw [hprod, hcomp] at heq
  exact absurd heq (by decide)

end Ante
