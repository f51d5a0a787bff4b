import MallChain.Lib.Collection
import MallChain.Lib.Interleaving

namespace Explorer

open Interleaving

-- What the node says of a block. The transactions are in base 64.
structure Block where
  hash     : String
  proposer : String
  time     : ℕ
  txs      : Option (List String) := none
  deriving DecidableEq, Repr

structure TxResult where
  code    : ℕ := 0
  gasUsed : ℕ := 0
  deriving DecidableEq, Repr

-- The chain as it is produced, and the hash of the bytes of a transaction.
structure Chain where
  block   : (height : ℕ) → Block
  results : (height : ℕ) → Option (List TxResult)
  digest  : (rawTx : String) → String

structure BlockRow where
  hash      : String
  proposer  : String
  txCount   : ℕ
  timestamp : ℕ
  deriving DecidableEq, Repr

inductive TxStatus
  | success
  | failed
  deriving DecidableEq, Repr

structure TxRow where
  blockHeight : ℕ
  sender      : Option String := none
  receiver    : Option String := none
  amount      : Option ℕ := none
  fee         : ℕ
  status      : TxStatus
  timestamp   : ℕ
  deriving DecidableEq, Repr

inductive Event
  | newBlock (height : ℕ)
  | newTransactions (blockHeight : ℕ)
  deriving DecidableEq, Repr

-- The tables, each under its primary key, and what was sent to the server of the explorer.
structure Store where
  blocks       : KVStore ℕ BlockRow := .empty
  transactions : KVStore String TxRow := .empty
  emitted      : List Event := []

inductive Label
  | step
  deriving DecidableEq, Repr

abbrev Handler := Prog Label Store

namespace Store

variable (s : Store)

-- A row of which the height is taken is left out without an error. A hash is in one row only.
def takesBlock (height : ℕ) (row : BlockRow) : Bool :=
  (s.blocks.get height).isSome || !s.blocks.any (·.hash = row.hash)

def insertBlock (height : ℕ) (row : BlockRow) : Store :=
  if s.takesBlock height row then { s with blocks := s.blocks.add height row } else s

-- A transaction refers to the row of its block.
def insertTransaction (hash : String) (row : TxRow) : Store :=
  if (s.blocks.get row.blockHeight).isSome then { s with transactions := s.transactions.add hash row } else s

def emit (event : Event) : Store :=
  { s with emitted := event :: s.emitted }

end Store

-- What comes of a request to the node for a block: it fails, it has no result, or the block is answered.
inductive Reply
  | failed
  | empty
  | answered
  deriving DecidableEq, Repr

-- What the node and the database do in one turn of the loop.
structure Turn where
  latest        : Option ℕ := none
  block         : Reply := .answered
  blockStored   : Bool := true
  txBlock       : Reply := .answered
  txResults     : Bool := true
  txStored      : (i : ℕ) → Bool := fun _ => true
  blockEmitted  : Bool := true
  txsEmitted    : Bool := true

variable (chain : Chain)

def blockRow (height : ℕ) : BlockRow where
  hash      := (chain.block height).hash
  proposer  := (chain.block height).proposer
  txCount   := ((chain.block height).txs.getD []).length
  timestamp := (chain.block height).time

def indexBlock (height : ℕ) (turn : Turn) : Handler Bool :=
  match turn.block with
  | .failed | .empty => return false
  | .answered        =>
    if turn.blockStored then
      .act .step (·.insertBlock height (blockRow chain height)) (·.takesBlock height (blockRow chain height))
    else return false

def computeTxHash (rawTx : String) : Option String :=
  if rawTx = "" then none else some (chain.digest rawTx)

def txHash (height i : ℕ) (rawTx : String) : String :=
  (computeTxHash chain rawTx).getD (toString height ++ "-" ++ toString i)

-- A transaction without a result has failed.
def txRow (height i : ℕ) : TxRow :=
  let txResult := ((chain.results height).getD [])[i]?
  { blockHeight := height
    fee         := (txResult.map (·.gasUsed)).getD 0
    status      := if txResult.map (·.code) = some 0 then .success else .failed
    timestamp   := (chain.block height).time }

-- One row after another. What goes wrong with one does not matter to the others.
def insertEach (height : ℕ) (stored : ℕ → Bool) : ℕ → List String → Handler Unit
  | _, []           => return
  | i, rawTx :: txs => do
    .write .step fun s =>
      if stored i then s.insertTransaction (txHash chain height i rawTx) (txRow chain height i) else s
    insertEach height stored (i + 1) txs

def indexTransactions (height : ℕ) (turn : Turn) : Handler Bool :=
  match turn.txBlock with
  | .failed | .empty => return false
  | .answered        =>
    match (chain.block height).txs with
    | none | some [] => return true
    | some txs       =>
      if turn.txResults then do
        insertEach chain height turn.txStored 0 txs
        return true
      else return false

def emitExplorerEvent (delivered : Bool) (event : Event) : Handler Unit :=
  .write .step fun s => if delivered then s.emit event else s

-- The greatest height of the table.
def maxHeight (s : Store) : Option ℕ :=
  s.blocks.entries.getLast?.map (·.1)

def getLastIndexedHeight (fails : Bool) : Handler ℕ :=
  if fails then return 1
  else do
    let max ← .read .step maxHeight
    match max with
    | some height => return height + 1
    | none        => return 1

-- What is done at one height.
def visit (height : ℕ) (turn : Turn) : Handler Unit := do
  let blockIndexed ← indexBlock chain height turn
  let txIndexed ← indexTransactions chain height turn
  if blockIndexed then emitExplorerEvent turn.blockEmitted (.newBlock height)
  if txIndexed then emitExplorerEvent turn.txsEmitted (.newTransactions height)

-- Every height is gone to once, whatever comes of it.
def index : List Turn → (startHeight : ℕ) → Handler Unit
  | [], _                     => return
  | turn :: turns, startHeight =>
    match turn.latest with
    | none        => index turns startHeight
    | some latest =>
      if latest = 0 ∨ latest < startHeight then index turns startHeight
      else do
        visit chain startHeight turn
        index turns (startHeight + 1)

-- A process of the indexer, for as many turns as it lives. One that is killed takes no more steps.
structure Process where
  lookupFails : Bool := false
  turns       : List Turn

def start (process : Process) : Handler Unit := do
  let startHeight ← getLastIndexedHeight process.lookupFails
  index chain process.turns startHeight

-- A row is that of a transaction of its block.
def FromChain (hash : String) (row : TxRow) : Prop :=
  ∃ i rawTx, ((chain.block row.blockHeight).txs.getD [])[i]? = some rawTx ∧
    hash = txHash chain row.blockHeight i rawTx ∧ row = txRow chain row.blockHeight i

-- The tables say what the chain says, and only of blocks that have a row.
structure Sound (s : Store) : Prop where
  blocks       : ∀ height row, s.blocks.get height = some row → row = blockRow chain height
  transactions : ∀ hash row, s.transactions.get hash = some row →
    FromChain chain hash row ∧ (s.blocks.get row.blockHeight).isSome = true
  emitted      : ∀ height, .newBlock height ∈ s.emitted → (s.blocks.get height).isSome = true

-- All transactions of the block have a row.
def Complete (s : Store) (height : ℕ) : Prop :=
  ∀ i rawTx, ((chain.block height).txs.getD [])[i]? = some rawTx →
    (s.transactions.get (txHash chain height i rawTx)).isSome = true

-- No height is left out below another, and no transaction but of the blocks that processes are at.
structure Whole (s : Store) (owed : Multiset ℕ) : Prop where
  below    : ∀ height, (s.blocks.get height).isSome = true →
    ∀ lower, 1 ≤ lower → lower ≤ height → (s.blocks.get lower).isSome = true
  complete : ∀ height, (s.blocks.get height).isSome = true → height ∈ owed ∨ Complete chain s height

structure Grows (s t : Store) : Prop where
  blocks       : ∀ height, (s.blocks.get height).isSome = true → (t.blocks.get height).isSome = true
  transactions : ∀ hash, (s.transactions.get hash).isSome = true → (t.transactions.get hash).isSome = true

theorem Grows.refl (s : Store) : Grows s s where
  blocks _       := id
  transactions _ := id

theorem Grows.trans {s₁ s₂ s₃ : Store} (h : Grows s₁ s₂) (h' : Grows s₂ s₃) : Grows s₁ s₃ where
  blocks height hget     := h'.blocks height (h.blocks height hget)
  transactions hash hget := h'.transactions hash (h.transactions hash hget)

-- Whether it is relied on that nothing goes wrong.
def contract (careful : Prop) : Contract Label Store (Multiset ℕ) where
  invariant s owed := Sound chain s ∧ (careful → Whole chain s owed)
  grows            := Grows
  guard _ _        := True
  refl             := Grows.refl
  trans            := Grows.trans

variable {chain} {careful : Prop} {s t : Store} {height : ℕ} {owed : Multiset ℕ}

section Inserts

theorem add_isSome {κ ν : Type} [LinearOrder κ] {m : KVStore κ ν} {k k' : κ} {v : ν} :
    ((m.add k v).get k').isSome = true ↔ k' = k ∨ (m.get k').isSome = true := by
  rw [KVStore.get_add]
  split_ifs with heq
  case pos => simp [heq]
  case neg => simp [heq]

theorem insertBlock_transactions {row : BlockRow} :
    (s.insertBlock height row).transactions = s.transactions := by
  rw [Store.insertBlock]
  split_ifs <;> rfl

theorem insertBlock_emitted {row : BlockRow} : (s.insertBlock height row).emitted = s.emitted := by
  rw [Store.insertBlock]
  split_ifs <;> rfl

theorem insertBlock_isSome {row : BlockRow} {h : ℕ} :
    ((s.insertBlock height row).blocks.get h).isSome = true ↔
      (h = height ∧ s.takesBlock height row = true) ∨ (s.blocks.get h).isSome = true := by
  rw [Store.insertBlock]
  split_ifs with htakes
  case pos => simp [add_isSome, htakes]
  case neg => simp [htakes]

theorem insertTransaction_blocks {hash : String} {row : TxRow} :
    (s.insertTransaction hash row).blocks = s.blocks := by
  rw [Store.insertTransaction]
  split_ifs <;> rfl

theorem insertTransaction_emitted {hash : String} {row : TxRow} :
    (s.insertTransaction hash row).emitted = s.emitted := by
  rw [Store.insertTransaction]
  split_ifs <;> rfl

theorem insertTransaction_isSome {hash h : String} {row : TxRow} :
    ((s.insertTransaction hash row).transactions.get h).isSome = true ↔
      (h = hash ∧ (s.blocks.get row.blockHeight).isSome = true) ∨ (s.transactions.get h).isSome = true := by
  rw [Store.insertTransaction]
  split_ifs with hblock
  case pos => simp [add_isSome, hblock]
  case neg => simp [hblock]

theorem grows_insertBlock {row : BlockRow} : Grows s (s.insertBlock height row) where
  blocks h hget       := insertBlock_isSome.mpr (.inr hget)
  transactions h hget := by rwa [insertBlock_transactions]

theorem grows_insertTransaction {hash : String} {row : TxRow} : Grows s (s.insertTransaction hash row) where
  blocks h hget       := by rwa [insertTransaction_blocks]
  transactions h hget := insertTransaction_isSome.mpr (.inr hget)

theorem grows_emit {event : Event} : Grows s (s.emit event) where
  blocks _       := id
  transactions _ := id

theorem sound_insertBlock (hs : Sound chain s) : Sound chain (s.insertBlock height (blockRow chain height)) where
  blocks       := by
    intro h row hget
    rw [Store.insertBlock] at hget
    split_ifs at hget
    case neg => exact hs.blocks h row hget
    case pos =>
      simp only [KVStore.get_add] at hget
      split_ifs at hget with heq
      case neg => exact hs.blocks h row hget
      case pos =>
        subst heq
        cases hold : s.blocks.get h with
        | none =>
          rw [hold] at hget
          exact (Option.some.inj hget).symm
        | some old =>
          rw [hold] at hget
          cases hget
          exact hs.blocks h old hold
  transactions := by
    intro hash row hget
    rw [insertBlock_transactions] at hget
    obtain ⟨hfrom, hblock⟩ := hs.transactions hash row hget
    exact ⟨hfrom, grows_insertBlock.blocks _ hblock⟩
  emitted      := by
    intro h hmem
    rw [insertBlock_emitted] at hmem
    exact grows_insertBlock.blocks _ (hs.emitted h hmem)

theorem sound_insertTransaction {i : ℕ} {rawTx : String} (hs : Sound chain s)
    (htx : ((chain.block height).txs.getD [])[i]? = some rawTx) :
    Sound chain (s.insertTransaction (txHash chain height i rawTx) (txRow chain height i)) where
  blocks       := by
    rw [insertTransaction_blocks]
    exact hs.blocks
  transactions := by
    intro hash row hget
    rw [insertTransaction_blocks]
    rw [Store.insertTransaction] at hget
    split_ifs at hget with hblock
    case neg => exact hs.transactions hash row hget
    case pos =>
      simp only [KVStore.get_add] at hget
      split_ifs at hget with heq
      case neg => exact hs.transactions hash row hget
      case pos =>
        subst heq
        cases hold : s.transactions.get (txHash chain height i rawTx) with
        | none =>
          rw [hold] at hget
          cases hget
          exact ⟨⟨i, rawTx, htx, rfl, rfl⟩, hblock⟩
        | some old =>
          rw [hold] at hget
          cases hget
          exact hs.transactions _ old hold
  emitted      := by
    rw [insertTransaction_blocks, insertTransaction_emitted]
    exact hs.emitted

theorem sound_emit {event : Event} (hs : Sound chain s)
    (h : ∀ height, event = .newBlock height → (s.blocks.get height).isSome = true) :
    Sound chain (s.emit event) where
  blocks       := hs.blocks
  transactions := hs.transactions
  emitted      := by
    intro height hmem
    cases List.mem_cons.mp hmem with
    | inl heq => exact h height heq.symm
    | inr hmem => exact hs.emitted height hmem

theorem Complete.mono (hs : Grows s t) (h : Complete chain s height) : Complete chain t height :=
  fun i rawTx htx => hs.transactions _ (h i rawTx htx)

-- Nothing is inserted but transactions.
theorem whole_of_blocks (hw : Whole chain s owed) (hs : Grows s t) (hblocks : t.blocks = s.blocks) :
    Whole chain t owed where
  below    := by
    rw [hblocks]
    exact hw.below
  complete := by
    intro height hget
    rw [hblocks] at hget
    exact (hw.complete height hget).imp_right (·.mono hs)

-- What a process owes no more.
theorem Whole.paid (hw : Whole chain s ({height} + owed)) (h : Complete chain s height) :
    Whole chain s owed where
  below    := hw.below
  complete := by
    intro height' hget
    rcases hw.complete height' hget with hmem | hcomplete
    case inr => exact .inr hcomplete
    case inl =>
      cases Multiset.mem_add.mp hmem with
      | inr hmem => exact .inl hmem
      | inl hmem =>
        rw [Multiset.mem_singleton.mp hmem]
        exact .inr h

-- Where hashes differ and nothing is left out below, a block is taken.
theorem takesBlock_of_sound (hinj : Function.Injective fun h => (chain.block h).hash) (hs : Sound chain s) :
    s.takesBlock height (blockRow chain height) = true := by
  rw [Store.takesBlock, Bool.or_eq_true]
  by_cases hsome : (s.blocks.get height).isSome = true
  case pos => exact .inl hsome
  case neg =>
    right
    rw [Bool.not_eq_true', KVStore.any_eq_false]
    intro h row hget
    rw [decide_eq_false_iff_not]
    intro hhash
    rw [hs.blocks h row hget] at hhash
    have heq : h = height := hinj hhash
    rw [← heq, hget] at hsome
    exact hsome rfl

theorem whole_insertBlock (hw : Whole chain s owed)
    (hbelow : ∀ lower, 1 ≤ lower → lower < height → (s.blocks.get lower).isSome = true) :
    Whole chain (s.insertBlock height (blockRow chain height)) ({height} + owed) where
  below    := by
    intro h hget lower hpos hle
    rw [insertBlock_isSome] at hget ⊢
    rcases hget with ⟨heq, htakes⟩ | hget
    case inr => exact .inr (hw.below h hget lower hpos hle)
    case inl =>
      cases (heq ▸ hle).eq_or_lt with
      | inl hlower => exact .inl ⟨hlower, htakes⟩
      | inr hlt => exact .inr (hbelow lower hpos hlt)
  complete := by
    intro h hget
    rw [insertBlock_isSome] at hget
    rcases hget with ⟨heq, _⟩ | hget
    case inl => exact .inl (by simp [heq])
    case inr =>
      rcases hw.complete h hget with hmem | hcomplete
      case inl => exact .inl (Multiset.mem_add.mpr (.inr hmem))
      case inr => exact .inr (hcomplete.mono grows_insertBlock)

end Inserts

-- Nothing goes wrong in the turn but the sending of events.
structure Turn.Clean (turn : Turn) : Prop where
  block     : turn.block = .answered
  stored    : turn.blockStored = true
  txBlock   : turn.txBlock = .answered
  txResults : turn.txResults = true
  txStored  : ∀ i, turn.txStored i = true

def Below (s : Store) (height : ℕ) : Prop :=
  ∀ lower, 1 ≤ lower → lower < height → (s.blocks.get lower).isSome = true

theorem Below.mono (hs : Grows s t) (h : Below s height) : Below t height :=
  fun lower hpos hlt => hs.blocks lower (h lower hpos hlt)

section Programs

variable {turn : Turn} {own : Multiset ℕ}

-- A process that has inserted a block owes its transactions.
theorem indexBlock_safe (height : ℕ) (hinj : careful → Function.Injective fun h => (chain.block h).hash)
    (hclean : careful → turn.Clean) (hbelow : careful → Below s height) :
    (contract chain careful).Safe (fun indexed s own => own = (if indexed = true then {height} else 0) ∧
      (indexed = true → (s.blocks.get height).isSome = true) ∧ (careful → indexed = true))
      (indexBlock chain height turn) s 0 := by
  rw [indexBlock]
  cases hreply : turn.block with
  | failed =>
    refine ⟨rfl, by simp, ?_⟩
    intro hcareful
    cases hreply.symm.trans (hclean hcareful).block
  | empty =>
    refine ⟨rfl, by simp, ?_⟩
    intro hcareful
    cases hreply.symm.trans (hclean hcareful).block
  | answered =>
    apply Contract.Safe.ite
    case hq =>
      intro hstored
      refine ⟨rfl, by simp, ?_⟩
      intro hcareful
      exact absurd (hclean hcareful).stored hstored
    case hp =>
      intro _ s' hs' others hI _
      obtain ⟨hsound, hwhole⟩ := hI
      cases htakes : s'.takesBlock height (blockRow chain height) with
      | true =>
        refine ⟨{height}, ⟨sound_insertBlock hsound, ?_⟩, grows_insertBlock, ?_⟩
        case refine_1 =>
          intro hcareful
          have hw := hwhole hcareful
          rw [zero_add] at hw
          exact whole_insertBlock hw ((hbelow hcareful).mono hs')
        case refine_2 =>
          refine ⟨?_, ?_, ?_⟩
          · simp only [htakes, if_true]
          · exact fun _ => insertBlock_isSome.mpr (.inl ⟨rfl, htakes⟩)
          · exact fun _ => htakes
      | false =>
        have hsame : s'.insertBlock height (blockRow chain height) = s' := by
          rw [Store.insertBlock, htakes]
          rfl
        dsimp only
        rw [hsame]
        refine ⟨0, ⟨hsound, hwhole⟩, .refl s', ?_, ?_, ?_⟩
        · simp [htakes]
        · intro hindexed
          cases htakes.symm.trans hindexed
        · intro hcareful
          cases htakes.symm.trans (takesBlock_of_sound (hinj hcareful) hsound)

-- Where nothing goes wrong, every transaction from here on has a row afterwards.
theorem insertEach_safe (stored : ℕ → Bool) (hclean : careful → ∀ i, stored i = true) :
    (txs : List String) → (i : ℕ) → ((chain.block height).txs.getD []).drop i = txs → (s : Store) →
    (careful → (s.blocks.get height).isSome = true) →
    (contract chain careful).Safe (fun _ s own' => own' = own ∧ (careful → ∀ j rawTx, i ≤ j →
      ((chain.block height).txs.getD [])[j]? = some rawTx →
        (s.transactions.get (txHash chain height j rawTx)).isSome = true))
      (insertEach chain height stored i txs) s own
  | [], i, hdrop, s, _ => by
    refine ⟨rfl, ?_⟩
    intro _ j rawTx hle htx
    have hlen := List.drop_eq_nil_iff.mp hdrop
    obtain ⟨hlt, _⟩ := List.getElem?_eq_some_iff.mp htx
    omega
  | rawTx :: txs, i, hdrop, s, hblock => by
    have htx : ((chain.block height).txs.getD [])[i]? = some rawTx := by
      rw [← List.head?_drop, hdrop, List.head?_cons]
    have htail : ((chain.block height).txs.getD []).drop (i + 1) = txs := by
      rw [← List.drop_drop, hdrop, List.drop_one, List.tail_cons]
    apply Contract.Safe.write
    intro s' hs' _ others hI
    obtain ⟨hsound, hwhole⟩ := hI
    have hnow : careful → (s'.blocks.get height).isSome = true := fun h => hs'.blocks height (hblock h)
    have hrow : (txRow chain height i).blockHeight = height := rfl
    cases hstored : stored i with
    | false =>
      refine ⟨own, ⟨hsound, hwhole⟩, .refl s', ?_⟩
      apply (insertEach_safe stored hclean txs (i + 1) htail s' hnow).imp
      intro _ s'' own' h
      refine ⟨h.1, ?_⟩
      intro hcareful
      cases hstored.symm.trans (hclean hcareful i)
    | true =>
      rw [if_pos rfl]
      refine ⟨own, ⟨sound_insertTransaction hsound htx, ?_⟩, grows_insertTransaction, ?_⟩
      case refine_1 =>
        intro hcareful
        exact whole_of_blocks (hwhole hcareful) grows_insertTransaction insertTransaction_blocks
      case refine_2 =>
        have hthere : careful → ((s'.insertTransaction (txHash chain height i rawTx)
            (txRow chain height i)).transactions.get (txHash chain height i rawTx)).isSome = true := by
          intro hcareful
          exact insertTransaction_isSome.mpr (.inl ⟨rfl, hrow ▸ hnow hcareful⟩)
        have hframe := (insertEach_safe stored hclean txs (i + 1) htail _
          fun h => grows_insertTransaction.blocks height (hnow h)).frame
          (K := fun s => careful → (s.transactions.get (txHash chain height i rawTx)).isSome = true)
          (fun hs h hcareful => hs.transactions _ (h hcareful)) hthere
        apply hframe.imp
        intro _ s'' own' h
        obtain ⟨⟨hown, hrest⟩, hfirst⟩ := h
        refine ⟨hown, ?_⟩
        intro hcareful j rawTx' hle htx'
        cases hle.eq_or_lt with
        | inl heq =>
          subst heq
          cases htx.symm.trans htx'
          exact hfirst hcareful
        | inr hlt => exact hrest hcareful j rawTx' hlt htx'

theorem indexTransactions_safe (hclean : careful → turn.Clean)
    (hblock : careful → (s.blocks.get height).isSome = true) :
    (contract chain careful).Safe (fun _ s own' => own' = own ∧ (careful → Complete chain s height))
      (indexTransactions chain height turn) s own := by
  rw [indexTransactions]
  cases hreply : turn.txBlock with
  | failed => exact ⟨rfl, fun hcareful => by cases hreply.symm.trans (hclean hcareful).txBlock⟩
  | empty => exact ⟨rfl, fun hcareful => by cases hreply.symm.trans (hclean hcareful).txBlock⟩
  | answered =>
    cases htxs : (chain.block height).txs with
    | none => exact ⟨rfl, fun _ i rawTx htx => by simp [htxs] at htx⟩
    | some txs =>
      cases txs with
      | nil => exact ⟨rfl, fun _ i rawTx htx => by simp [htxs] at htx⟩
      | cons rawTx txs =>
        apply Contract.Safe.ite
        case hq => exact fun hresults => ⟨rfl, fun hcareful => absurd (hclean hcareful).txResults hresults⟩
        case hp =>
          intro _
          apply Contract.Safe.bind
          have hdrop : ((chain.block height).txs.getD []).drop 0 = rawTx :: txs := by
            rw [htxs]
            rfl
          apply (insertEach_safe turn.txStored (fun h => (hclean h).txStored) _ 0 hdrop s hblock).imp
          intro _ s' own' h
          exact ⟨h.1, fun hcareful i rawTx htx => h.2 hcareful i rawTx (Nat.zero_le i) htx⟩

theorem emitExplorerEvent_keeps {delivered : Bool} : (emitExplorerEvent delivered (.newTransactions height)).Steps
    (contract chain careful).Keeps := by
  apply Prog.Steps.write
  intro s own _ hI
  obtain ⟨hsound, hwhole⟩ := hI
  split_ifs
  case neg => exact ⟨⟨hsound, hwhole⟩, .refl s⟩
  case pos =>
    refine ⟨⟨sound_emit hsound (by simp), ?_⟩, grows_emit⟩
    exact fun hcareful => whole_of_blocks (hwhole hcareful) grows_emit rfl

-- A block that is announced has its transactions by then.
theorem emitNewBlock_safe {delivered : Bool} (hblock : (s.blocks.get height).isSome = true)
    (hcomplete : careful → Complete chain s height) :
    (contract chain careful).Safe (fun _ _ own => own = 0)
      (emitExplorerEvent delivered (.newBlock height)) s {height} := by
  intro s' hs' others hI _
  obtain ⟨hsound, hwhole⟩ := hI
  have hpaid : careful → Whole chain s' others :=
    fun hcareful => (hwhole hcareful).paid ((hcomplete hcareful).mono hs')
  refine ⟨0, ?_⟩
  rw [zero_add]
  dsimp only
  split_ifs
  case neg => exact ⟨⟨hsound, hpaid⟩, .refl s', rfl⟩
  case pos =>
    refine ⟨⟨sound_emit hsound ?_, ?_⟩, grows_emit, rfl⟩
    case refine_1 =>
      intro h heq
      cases heq
      exact hs'.blocks height hblock
    case refine_2 => exact fun hcareful => whole_of_blocks (hpaid hcareful) grows_emit rfl

theorem visit_safe (hinj : careful → Function.Injective fun h => (chain.block h).hash)
    (hclean : careful → turn.Clean) (hbelow : careful → Below s height) :
    (contract chain careful).Safe (fun _ s own => own = 0 ∧ (careful → Below s (height + 1)))
      (visit chain height turn) s 0 := by
  rw [visit]
  apply Contract.Safe.bind
  refine ((indexBlock_safe height hinj hclean hbelow).frame (K := fun s => careful → Below s height)
    (fun hs h hcareful => (h hcareful).mono hs) hbelow).imp ?_
  intro indexed s₁ own₁ h
  obtain ⟨⟨hown₁, hblock, hindexed⟩, hbelow₁⟩ := h
  have hblock₁ : careful → (s₁.blocks.get height).isSome = true := fun h => hblock (hindexed h)
  apply Contract.Safe.bind
  refine ((indexTransactions_safe hclean hblock₁).frame
    (K := fun s => (indexed = true → (s.blocks.get height).isSome = true) ∧ (careful → Below s height))
    (fun hs h => ⟨fun hi => hs.blocks height (h.1 hi), fun hcareful => (h.2 hcareful).mono hs⟩)
    ⟨hblock, hbelow₁⟩).imp ?_
  intro txIndexed s₂ own₂ h
  obtain ⟨⟨rfl, hcomplete⟩, hblock₂, hbelow₂⟩ := h
  have hdone : careful → Below s₂ (height + 1) := by
    intro hcareful lower hpos hlt
    cases (Nat.le_of_lt_succ hlt).eq_or_lt with
    | inl heq => exact heq ▸ hblock₂ (hindexed hcareful)
    | inr hlt => exact hbelow₂ hcareful lower hpos hlt
  -- After the first event nothing is owed, and the second changes nothing of that.
  have hlast : ∀ s, (careful → Below s (height + 1)) →
      (contract chain careful).Safe (fun _ s own => own = 0 ∧ (careful → Below s (height + 1)))
        (if txIndexed = true then emitExplorerEvent turn.txsEmitted (.newTransactions height) else pure ())
        s 0 := by
    intro s hs
    apply Contract.Safe.ite
    case hq => exact fun _ => ⟨rfl, hs⟩
    case hp =>
      intro _
      refine ((Contract.Safe.of_steps emitExplorerEvent_keeps fun _ _ s own h hg hI => h s own hg hI).frame
        (K := fun s => careful → Below s (height + 1)) (fun hs h hcareful => (h hcareful).mono hs) hs).imp ?_
      exact fun h => h
  apply Contract.Safe.ite
  case hq =>
    intro hnot
    rw [if_neg hnot] at hown₁
    rw [hown₁]
    exact hlast s₂ hdone
  case hp =>
    intro hindexed
    rw [if_pos hindexed] at hown₁
    rw [hown₁]
    apply Contract.Safe.bind
    refine ((emitNewBlock_safe (hblock₂ hindexed) hcomplete).frame
      (K := fun s => careful → Below s (height + 1)) (fun hs h hcareful => (h hcareful).mono hs) hdone).imp ?_
    intro _ s₃ own₃ h
    obtain ⟨rfl, hdone₃⟩ := h
    exact hlast s₃ hdone₃

-- A process that is let run gets as far as the node has got all the time, one block for each turn.
theorem index_safe (hinj : careful → Function.Injective fun h => (chain.block h).hash) :
    (turns : List Turn) → (startHeight : ℕ) → (s : Store) → (careful → ∀ turn ∈ turns, turn.Clean) →
    (careful → Below s startHeight) →
    (contract chain careful).Safe (fun _ s own => own = 0 ∧ ∀ target, careful →
      target < startHeight + turns.length → (∀ turn ∈ turns, turn.latest.any (target ≤ ·) = true) →
        Below s (target + 1)) (index chain turns startHeight) s 0
  | [], startHeight, s, _, hbelow => by
    refine ⟨rfl, ?_⟩
    intro target hcareful hlt _ lower hpos hle
    rw [List.length_nil] at hlt
    exact hbelow hcareful lower hpos (by omega)
  | turn :: turns, startHeight, s, hclean, hbelow => by
    have hturn : careful → turn.Clean := fun h => hclean h turn List.mem_cons_self
    have hturns : careful → ∀ turn ∈ turns, turn.Clean :=
      fun h turn hmem => hclean h turn (List.mem_cons_of_mem _ hmem)
    rw [index]
    cases hlatest : turn.latest with
    | none =>
      apply (index_safe hinj turns startHeight s hturns hbelow).imp
      intro _ s' own h
      refine ⟨h.1, ?_⟩
      intro target _ _ hall
      have hany := hall turn List.mem_cons_self
      rw [hlatest] at hany
      cases hany
    | some latest =>
      apply Contract.Safe.ite
      case hp =>
        intro hwait
        have hframe := (index_safe hinj turns startHeight s hturns hbelow).frame
          (K := fun s => careful → Below s startHeight) (fun hs h hcareful => (h hcareful).mono hs) hbelow
        apply hframe.imp
        intro _ s' own h
        obtain ⟨⟨hown, _⟩, hbelow'⟩ := h
        refine ⟨hown, ?_⟩
        intro target hcareful _ hall lower hpos hle
        have hany := hall turn List.mem_cons_self
        rw [hlatest, Option.any_some, decide_eq_true_iff] at hany
        exact hbelow' hcareful lower hpos (by omega)
      case hq =>
        intro _
        apply Contract.Safe.bind
        apply (visit_safe hinj hturn hbelow).imp
        intro _ s' own h
        obtain ⟨rfl, hbelow'⟩ := h
        apply (index_safe hinj turns (startHeight + 1) s' hturns hbelow').imp
        intro _ s'' own h
        refine ⟨h.1, ?_⟩
        intro target hcareful hlt hall
        rw [List.length_cons] at hlt
        exact h.2 target hcareful (by omega) fun turn hmem => hall turn (List.mem_cons_of_mem _ hmem)

end Programs

section Heights

variable {max : ℕ}

theorem isSome_of_maxHeight (h : maxHeight s = some max) : (s.blocks.get max).isSome = true := by
  obtain ⟨e, he, rfl⟩ := Option.map_eq_some_iff.mp h
  rw [KVStore.mem_entries_iff.mp (List.mem_of_getLast? he)]
  rfl

-- The keys are in increasing order.
theorem le_maxHeight (h : maxHeight s = some max) (hget : (s.blocks.get height).isSome = true) : height ≤ max := by
  obtain ⟨row, hrow⟩ := Option.isSome_iff_exists.mp hget
  obtain ⟨e, he, rfl⟩ := Option.map_eq_some_iff.mp h
  obtain ⟨front, hentries⟩ := List.getLast?_eq_some_iff.mp he
  have hmem := KVStore.mem_entries_iff.mpr hrow
  have hsorted := s.blocks.sorted
  rw [hentries] at hmem hsorted
  cases List.mem_append.mp hmem with
  | inl hfront =>
    have hlt := (List.pairwise_append.mp hsorted).2.2 _ hfront e (List.mem_singleton_self e)
    exact Nat.le_of_lt hlt
  | inr hlast =>
    rw [← List.mem_singleton.mp hlast]

theorem maxHeight_eq_none (h : maxHeight s = none) : ¬(s.blocks.get height).isSome = true := by
  rw [maxHeight, Option.map_eq_none_iff, List.getLast?_eq_none_iff] at h
  intro hget
  obtain ⟨row, hrow⟩ := Option.isSome_iff_exists.mp hget
  have hmem := KVStore.mem_entries_iff.mpr hrow
  rw [h] at hmem
  cases hmem

theorem maxHeight_mono (hs : Grows s t) : (maxHeight s).getD 0 ≤ (maxHeight t).getD 0 := by
  cases hmax : maxHeight s with
  | none => exact Nat.zero_le _
  | some max =>
    have hget := hs.blocks max (isSome_of_maxHeight hmax)
    cases hmax' : maxHeight t with
    | none => exact absurd hget (maxHeight_eq_none hmax')
    | some max' => exact le_maxHeight hmax' hget

end Heights

namespace Sample

def blocks : Chain where
  block height   := {
    hash     := .ofList (List.replicate height 'f')
    proposer := "validator"
    time     := 6 * height
    txs      := if height = 2 then none else some ["dHg" ++ toString height, ""]
  }
  results _      := some [{ gasUsed := 70000 }, { code := 5 }]
  digest rawTx   := rawTx

theorem blocks_injective : Function.Injective fun h => (blocks.block h).hash := by
  intro h h' heq
  have hlists : List.replicate h 'f' = List.replicate h' 'f' := String.ofList_injective heq
  simpa using congrArg List.length hlists

def turn : Turn where
  latest := some 3

theorem turn_clean : turn.Clean where
  block      := rfl
  stored     := rfl
  txBlock    := rfl
  txResults  := rfl
  txStored _ := rfl

def process : Process where
  turns := [turn, turn, turn]

-- Two processes at a time
def actions : List (Action Process) :=
  .start process :: .start process :: (List.range 20).flatMap fun _ => [.run 0, .run 1]

-- The node does not answer for the second block.
def failing : List (Action Process) :=
  .start { turns := [turn, { turn with block := .failed }, turn] } :: List.replicate 20 (.run 0)

end Sample

section System

variable {process : Process}

theorem getLastIndexedHeight_safe {fails : Bool} :
    (contract chain careful).Safe (fun startHeight s' own => own = 0 ∧ (careful → Below s' startHeight) ∧
      (fails = false → (maxHeight s).getD 0 < startHeight)) (getLastIndexedHeight fails) s 0 := by
  have hone : ∀ s, Below s 1 := fun s lower hpos hlt => by omega
  apply Contract.Safe.ite
  case hp => exact fun hfails => ⟨rfl, fun _ => hone s, fun hnot => by simp [hnot] at hfails⟩
  case hq =>
    intro _
    apply Contract.Safe.look
    intro s' hs' _ others hI
    have hmono := maxHeight_mono hs'
    cases hmax : maxHeight s' with
    | none =>
      rw [hmax] at hmono
      exact ⟨rfl, fun _ => hone s', fun _ => Nat.lt_succ_of_le hmono⟩
    | some max =>
      rw [hmax] at hmono
      refine ⟨rfl, ?_, fun _ => Nat.lt_succ_of_le hmono⟩
      intro hcareful lower hpos hlt
      exact (hI.2 hcareful).below max (isSome_of_maxHeight hmax) lower hpos (Nat.le_of_lt_succ hlt)

theorem start_safe (hinj : careful → Function.Injective fun h => (chain.block h).hash)
    (hclean : careful → ∀ turn ∈ process.turns, turn.Clean) :
    (contract chain careful).Safe (fun _ s' own => own = 0 ∧ ∀ target, careful → process.lookupFails = false →
      target ≤ (maxHeight s).getD 0 + process.turns.length →
      (∀ turn ∈ process.turns, turn.latest.any (target ≤ ·) = true) → Below s' (target + 1))
      (start chain process) s 0 := by
  apply Contract.Safe.bind
  apply getLastIndexedHeight_safe.imp
  intro startHeight s' own h
  obtain ⟨rfl, hbelow, hstart⟩ := h
  apply (index_safe hinj process.turns startHeight s' hclean hbelow).imp
  intro _ s'' own h
  refine ⟨h.1, ?_⟩
  intro target hcareful hlookup hle hall
  have hlt := hstart hlookup
  exact h.2 target hcareful (by omega) hall

theorem start_handles (hinj : careful → Function.Injective fun h => (chain.block h).hash)
    (hclean : careful → ∀ turn ∈ process.turns, turn.Clean) :
    (contract chain careful).Handles (start chain process) s 0 :=
  (start_safe hinj hclean).imp fun h => h.1

-- Empty tables
def Start (s : Store) : Prop :=
  s.blocks = .empty ∧ s.transactions = .empty ∧ s.emitted = []

variable (chain) in
def indexers (init : Store → Prop) : TransitionSystem (Pool Label Store) (Action Process) :=
  system init (start chain)

theorem sound_start (hs : Start s) : Sound chain s where
  blocks height row hget     := by
    rw [hs.1, KVStore.get_empty] at hget
    cases hget
  transactions hash row hget := by
    rw [hs.2.1, KVStore.get_empty] at hget
    cases hget
  emitted height hmem        := by
    rw [hs.2.2] at hmem
    cases hmem

theorem whole_start (hs : Start s) : Whole chain s 0 where
  below height hget    := by
    rw [hs.1, KVStore.get_empty] at hget
    cases hget
  complete height hget := by
    rw [hs.1, KVStore.get_empty] at hget
    cases hget

-- Whatever goes wrong, and however many processes there are, the tables say what the chain says: each
-- block's row is that of its height, each transaction's row is that of a transaction of a block that has a
-- row, and only such blocks were announced.
theorem rows_faithful {p : Pool Label Store} (hp : (indexers chain Start).Reachable p) :
    Sound chain p.store := by
  have hI : (indexers chain Start).Invariant (fun _ _ => True) fun p =>
      ∃ owned, (contract chain False).Holds p owned := by
    apply Contract.invariant_of_requests
    case hinit => exact fun s hs => ⟨sound_start hs, False.elim⟩
    case hg =>
      intro p a _
      cases a with
      | start process => trivial
      | run i =>
        rw [Pool.Meets]
        split <;> trivial
    case hr => exact fun _ process _ s => start_handles False.elim False.elim
  obtain ⟨owned, hholds⟩ := hI.holds hp
  exact hholds.invariant.1

theorem sample_rows_faithful :
    ((Pool.execs (start Sample.blocks) { store := {}, running := [] } Sample.failing).store.blocks.get 2 = none ∧
      ((Pool.execs (start Sample.blocks) { store := {}, running := [] }
        Sample.failing).store.blocks.get 3).isSome = true) ∧
    Sound Sample.blocks (Pool.execs (start Sample.blocks) { store := {}, running := [] } Sample.failing).store :=
  ⟨by decide +kernel, rows_faithful (reachable_from ⟨rfl, rfl, rfl⟩)⟩

-- In the turns of the processes that are started nothing goes wrong.
def AllClean (_ : Pool Label Store) : Action Process → Prop
  | .start process => ∀ turn ∈ process.turns, turn.Clean
  | .run _         => True

theorem holds_of_clean (hinj : Function.Injective fun h => (chain.block h).hash) {p : Pool Label Store}
    (hp : (indexers chain Start).Run AllClean p) : ∃ owned, (contract chain True).Holds p owned := by
  have hI : (indexers chain Start).Invariant AllClean fun p => ∃ owned, (contract chain True).Holds p owned := by
    apply Contract.invariant_of_requests
    case hinit => exact fun s hs => ⟨sound_start hs, fun _ => whole_start hs⟩
    case hg =>
      intro p a _
      cases a with
      | start process => trivial
      | run i =>
        rw [Pool.Meets]
        split <;> trivial
    case hr => exact fun _ process hclean s => start_handles (fun _ => hinj) fun _ => hclean
  exact hI.holds hp

theorem allClean_along {actions : List (Action Process)}
    (h : ∀ process, .start process ∈ actions → ∀ turn ∈ process.turns, turn.Clean) {p : Pool Label Store} :
    p.Along (start chain) AllClean actions := by
  induction actions generalizing p with
  | nil => trivial
  | cons a actions ih =>
    refine ⟨?_, ih fun process hmem => h process (List.mem_cons_of_mem _ hmem)⟩
    cases a with
    | start process => exact h process List.mem_cons_self
    | run i => trivial

theorem Sample.run_actions : (indexers Sample.blocks Start).Run AllClean
    (Pool.execs (start Sample.blocks) { store := {}, running := [] } Sample.actions) := by
  apply run_along (.init ⟨⟨rfl, rfl, rfl⟩, rfl⟩)
  apply allClean_along
  intro process hmem turn hturn
  have hprocess : process = Sample.process := by simpa [Sample.actions] using hmem
  rw [hprocess] at hturn
  have heq : turn = Sample.turn := by simpa [Sample.process] using hturn
  rw [heq]
  exact Sample.turn_clean

-- Where nothing goes wrong, a process that is let run indexes one block for each turn in which the node has
-- got so far, after all that there are.
theorem catches_up (hinj : Function.Injective fun h => (chain.block h).hash) {p : Pool Label Store}
    (hp : (indexers chain Start).Run AllClean p) {target : ℕ} (hclean : ∀ turn ∈ process.turns, turn.Clean)
    (hlookup : process.lookupFails = false)
    (hturns : target ≤ (maxHeight p.store).getD 0 + process.turns.length)
    (hlatest : ∀ turn ∈ process.turns, turn.latest.any (target ≤ ·) = true) :
    Below ((start chain process).alone p.store).2 (target + 1) := by
  obtain ⟨owned, hholds⟩ := holds_of_clean hinj hp
  have hsafe : (contract chain True).Safe _ (start chain process) p.store 0 :=
    start_safe (fun _ => hinj) fun _ => hclean
  obtain ⟨own', _, _, hbelow⟩ := hsafe.alone (by rw [zero_add]; exact hholds.invariant) fun _ _ => trivial
  exact hbelow target trivial hlookup hturns hlatest

theorem sample_catches_up : Below ((start Sample.blocks { turns := List.replicate 2 { latest := some 5 } }).alone
    (Pool.execs (start Sample.blocks) { store := {}, running := [] } Sample.actions).store).2 6 := by
  apply catches_up Sample.blocks_injective Sample.run_actions
  case hclean =>
    intro turn hturn
    rw [List.eq_of_mem_replicate hturn]
    exact { block := rfl, stored := rfl, txBlock := rfl, txResults := rfl, txStored := fun _ => rfl }
  case hlookup => rfl
  case hturns => decide +kernel
  case hlatest => decide

end System

section Passed

variable {before : Store} {process : Process}

-- The tables say of the height what they said before, and there is one that is no lower.
structure Passed (before : Store) (height : ℕ) (s : Store) : Prop where
  passed       : ∃ max, height ≤ max ∧ (s.blocks.get max).isSome = true
  block        : s.blocks.get height = before.blocks.get height
  transactions : ∀ hash row, row.blockHeight = height →
    (s.transactions.get hash = some row ↔ before.transactions.get hash = some row)

def passedContract (before : Store) (height : ℕ) : Contract Label Store ℕ where
  invariant s _ := Passed before height s
  grows _ _     := True
  guard _ _     := True
  refl _        := trivial
  trans _ _     := trivial

theorem passed_insertBlock {row : BlockRow} {above : ℕ} (hs : Passed before height s) (hlt : height < above) :
    Passed before height (s.insertBlock above row) where
  passed       := by
    obtain ⟨max, hle, hget⟩ := hs.passed
    exact ⟨max, hle, grows_insertBlock.blocks max hget⟩
  block        := by
    rw [← hs.block, Store.insertBlock]
    split_ifs
    case pos => exact KVStore.get_add_ne hlt.ne
    case neg => rfl
  transactions := by
    rw [insertBlock_transactions]
    exact hs.transactions

theorem passed_insertTransaction {hash : String} {row : TxRow} (hs : Passed before height s)
    (hlt : height < row.blockHeight) : Passed before height (s.insertTransaction hash row) where
  passed       := by
    rw [insertTransaction_blocks]
    exact hs.passed
  block        := by
    rw [insertTransaction_blocks]
    exact hs.block
  transactions := by
    intro hash' row' hrow'
    rw [← hs.transactions hash' row' hrow', Store.insertTransaction]
    split_ifs
    case neg => rfl
    case pos =>
      simp only [KVStore.get_add]
      split_ifs with heq
      case neg => rfl
      case pos =>
        subst heq
        cases s.transactions.get hash' with
        | some old => rfl
        | none =>
          -- The row that is added is of another height.
          have hne : row ≠ row' := fun h => by
            rw [h] at hlt
            exact hlt.ne hrow'.symm
          simp [hne]

theorem passed_emit {event : Event} (hs : Passed before height s) : Passed before height (s.emit event) where
  passed       := hs.passed
  block        := hs.block
  transactions := hs.transactions

theorem insertEach_passed {stored : ℕ → Bool} {above : ℕ} (hlt : height < above) : (txs : List String) →
    (i : ℕ) → (insertEach chain above stored i txs).Steps (passedContract before height).Keeps
  | [], _           => trivial
  | rawTx :: txs, i => by
    refine ⟨?_, fun _ => insertEach_passed hlt txs (i + 1)⟩
    intro s own _ hI
    refine ⟨?_, trivial⟩
    dsimp only
    split_ifs
    case pos => exact passed_insertTransaction hI hlt
    case neg => exact hI

theorem emitExplorerEvent_passed {delivered : Bool} {event : Event} :
    (emitExplorerEvent delivered event).Steps (passedContract before height).Keeps := by
  apply Prog.Steps.write
  intro s own _ hI
  refine ⟨?_, trivial⟩
  split_ifs
  case pos => exact passed_emit hI
  case neg => exact hI

theorem visit_passed {turn : Turn} {above : ℕ} (hlt : height < above) :
    (visit chain above turn).Steps (passedContract before height).Keeps := by
  apply Prog.Steps.bind
  case hp =>
    rw [indexBlock]
    cases turn.block with
    | failed => trivial
    | empty => trivial
    | answered =>
      apply Prog.Steps.ite
      case hq => exact fun _ => trivial
      case hp => exact fun _ => Prog.Steps.act fun s own _ hI => ⟨passed_insertBlock hI hlt, trivial⟩
  case hf =>
    intro blockIndexed
    apply Prog.Steps.bind
    case hp =>
      rw [indexTransactions]
      cases turn.txBlock with
      | failed => trivial
      | empty => trivial
      | answered =>
        cases (chain.block above).txs with
        | none => trivial
        | some txs =>
          cases txs with
          | nil => trivial
          | cons rawTx txs =>
            apply Prog.Steps.ite
            case hq => exact fun _ => trivial
            case hp => exact fun _ => (insertEach_passed hlt (rawTx :: txs) 0).bind fun _ => trivial
    case hf =>
      intro txIndexed
      have hlast : ∀ r : Unit, (if txIndexed = true then
          emitExplorerEvent turn.txsEmitted (.newTransactions above) else pure ()).Steps
          (passedContract before height).Keeps := by
        intro _
        exact Prog.Steps.ite (fun _ => emitExplorerEvent_passed) fun _ => trivial
      apply Prog.Steps.ite
      case hp => exact fun _ => emitExplorerEvent_passed.bind hlast
      case hq => exact fun _ => hlast ()

theorem index_passed : (turns : List Turn) → (startHeight : ℕ) → height < startHeight →
    (index chain turns startHeight).Steps (passedContract before height).Keeps
  | [], _, _                         => trivial
  | turn :: turns, startHeight, hlt => by
    rw [index]
    cases turn.latest with
    | none => exact index_passed turns startHeight hlt
    | some latest =>
      apply Prog.Steps.ite
      case hp => exact fun _ => index_passed turns startHeight hlt
      case hq =>
        intro _
        exact (visit_passed hlt).bind fun _ => index_passed turns (startHeight + 1) (Nat.lt_succ_of_lt hlt)

theorem getLastIndexedHeight_passed : (passedContract before height).Safe
    (fun startHeight _ own => own = 0 ∧ height < startHeight) (getLastIndexedHeight false) s 0 := by
  apply Contract.Safe.look
  intro s' _ _ others hI
  obtain ⟨above, hle, hget⟩ := hI.passed
  cases hmax : maxHeight s' with
  | none => exact absurd hget (maxHeight_eq_none hmax)
  | some max =>
    have hle' := le_maxHeight hmax hget
    exact ⟨rfl, by omega⟩

-- A process starts above the height.
theorem start_passed (hlookup : process.lookupFails = false) :
    (passedContract before height).Handles (start chain process) s 0 := by
  rw [start, hlookup]
  apply Contract.Safe.bind
  apply getLastIndexedHeight_passed.imp
  intro startHeight s' own h
  obtain ⟨rfl, hlt⟩ := h
  exact Contract.Handles.of_keeps (index_passed process.turns startHeight hlt)

-- Every process that is started can look up where to start.
def AllLookUp (_ : Pool Label Store) : Action Process → Prop
  | .start process => process.lookupFails = false
  | .run _         => True

-- What is missing up to the greatest height is missing for good, a block as well as a transaction, whatever
-- the node and the database do, unless a process cannot look up where to start.
theorem passed_heights_stay {max : ℕ} (hmax : maxHeight before = some max) (hle : height ≤ max)
    {p : Pool Label Store} (hp : (indexers chain (· = before)).Run AllLookUp p) :
    p.store.blocks.get height = before.blocks.get height ∧
      ∀ hash row, row.blockHeight = height →
        (p.store.transactions.get hash = some row ↔ before.transactions.get hash = some row) := by
  have hI : (indexers chain (· = before)).Invariant AllLookUp fun p =>
      ∃ owned, (passedContract before height).Holds p owned := by
    apply Contract.invariant_of_requests
    case hinit =>
      intro s hs
      rw [hs]
      exact {
        passed       := ⟨max, hle, isSome_of_maxHeight hmax⟩
        block        := rfl
        transactions := fun _ _ _ => Iff.rfl
      }
    case hg =>
      intro p a _
      cases a with
      | start process => trivial
      | run i =>
        rw [Pool.Meets]
        split <;> trivial
    case hr => exact fun _ process hlookup s => start_passed hlookup
  obtain ⟨owned, hholds⟩ := hI.holds hp
  exact ⟨hholds.invariant.block, hholds.invariant.transactions⟩

-- The second block is missing, and the transactions of the third.
def Sample.partly : Store where
  blocks := (KVStore.empty.set 1 (blockRow Sample.blocks 1)).set 3 (blockRow Sample.blocks 3)

def Sample.later : List (Action Process) :=
  .start { turns := [{ latest := some 9 }] } :: List.replicate 8 (.run 0)

theorem sample_passed_heights_stay :
    maxHeight (Pool.execs (start Sample.blocks) { store := Sample.partly, running := [] }
      Sample.later).store = some 4 ∧
    (Pool.execs (start Sample.blocks) { store := Sample.partly, running := [] }
      Sample.later).store.blocks.get 2 = none := by
  have hinit : (indexers Sample.blocks (· = Sample.partly)).init { store := Sample.partly, running := [] } :=
    ⟨rfl, rfl⟩
  have hrun : (indexers Sample.blocks (· = Sample.partly)).Run AllLookUp
      (Pool.execs (start Sample.blocks) { store := Sample.partly, running := [] } Sample.later) := by
    apply run_along (.init hinit)
    exact ⟨rfl, by simp [Pool.Along, AllLookUp]⟩
  have hmax : maxHeight Sample.partly = some 3 := rfl
  have hle : 2 ≤ 3 := by decide
  exact ⟨by decide +kernel, (passed_heights_stay hmax hle hrun).1⟩

end Passed

end Explorer
