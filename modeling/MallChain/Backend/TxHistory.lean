import MallChain.Lib.Pages
import Mathlib.Tactic

namespace TxHistory

-- What a transaction tells the search of the chain.
inductive Event where
  | messageSender (address : String)
  | transferRecipient (address : String)
  deriving DecidableEq, Repr

structure Coin where
  denom  : String
  amount : String
  deriving DecidableEq, Repr

-- The amount of a message is a text, a coin or a list of coins.
inductive Amount where
  | text (s : String)
  | coin (c : Coin)
  | coins (cs : List Coin)
  deriving DecidableEq, Repr

structure Msg where
  fromAddress : Option String := none
  creator     : Option String := none
  toAddress   : Option String := none
  «to»        : Option String := none
  amount      : Option Amount := none
  deriving DecidableEq, Repr

structure Tx where
  txhash    : String
  height    : ℕ
  code      : Option ℕ
  timestamp : String
  messages  : List Msg
  events    : List Event
  deriving DecidableEq, Repr

-- The transactions of the chain, the newest first.
structure Chain where
  txs    : List Tx
  sorted : txs.Pairwise fun a b => b.height ≤ a.height
  unique : (txs.map (·.txhash)).Nodup

namespace Chain

def found (chain : Chain) (event : Event) : List Tx :=
  chain.txs.filter (event ∈ ·.events)

-- `order_by=ORDER_BY_DESC&pagination.limit=`
def search (chain : Chain) (event : Event) (paginationLimit : ℕ) : List Tx :=
  (chain.found event).take paginationLimit

end Chain

inductive Kind where
  | send
  | receive
  deriving DecidableEq, Repr

inductive Status where
  | confirmed
  | pending
  | failed
  deriving DecidableEq, Repr

-- A query after its validation. No status and no type is `all`, the dates are in milliseconds.
structure Query where
  address   : String
  status    : Option Status := none
  type      : Option Kind := none
  search    : String := ""
  startDate : Option ℤ := none
  endDate   : Option ℤ := none
  page      : ℕ := 1
  limit     : ℕ := 20

structure Entry where
  hash      : String
  «from»    : String
  «to»      : String
  amount    : Amount
  type      : Kind
  status    : Status
  timestamp : String
  block     : ℕ
  deriving DecidableEq, Repr

structure Response where
  transactions : List Entry
  total        : ℕ
  page         : ℕ
  limit        : ℕ
  deriving DecidableEq, Repr

-- What the runtime does with texts: the milliseconds of a date, if it is one, and lower case.
structure Runtime where
  getTime     : String → Option ℤ
  toLowerCase : String → String

-- `a || b || ''`
def firstText (texts : List (Option String)) : String :=
  (texts.filterMap id |>.find? (· ≠ "")).getD ""

def Msg.rawAmount (msg : Msg) : Amount :=
  match msg.amount with
  | none => .text "0"
  | some (.text s) => if s = "" then .text "0" else .text s
  | some (.coin c) => .coin c
  | some (.coins []) => .coins []
  | some (.coins (c :: cs)) => if c.amount = "" then .coins (c :: cs) else .text c.amount

def Tx.entry (address : String) (tx : Tx) : Entry :=
  let msg := tx.messages.head?.getD {}
  let «from» := firstText [msg.fromAddress, msg.creator]
  { hash      := tx.txhash
    «from»
    «to»      := firstText [msg.toAddress, msg.to]
    amount    := msg.rawAmount
    type      := if «from» = address then .send else .receive
    status    := if tx.code = some 0 ∨ tx.code = none then .confirmed else .failed
    timestamp := tx.timestamp
    block     := tx.height }

namespace Query

variable (query : Query) (runtime : Runtime)

def pageNum : ℕ :=
  max 1 (if query.page = 0 then 1 else query.page)

def limitNum : ℕ :=
  min (max 1 (if query.limit = 0 then 20 else query.limit)) 100

-- An entry whose date cannot be read is not within any dates.
def inDates (timestamp : String) : Bool :=
  match query.startDate, query.endDate, runtime.getTime timestamp with
  | none, none, _ => true
  | _, _, none => false
  | startMs, endMs, some ts => startMs.all (· ≤ ts) && endMs.all (ts ≤ ·)

def found (t : Entry) : Bool :=
  runtime.toLowerCase query.search = "" ∨
    (runtime.toLowerCase query.search).toList <:+:
      (runtime.toLowerCase (t.hash ++ " " ++ t.from ++ " " ++ t.to)).toList

def matching (t : Entry) : Bool :=
  query.status.all (t.status = ·) && query.type.all (t.type = ·) &&
    query.inDates runtime t.timestamp && query.found runtime t

end Query

-- The sender's side and the recipient's side, `[]` for a search that fails.
def fetchTxsByEvent (answer : Option (List Tx)) : List Tx :=
  answer.getD []

-- The merged set: each hash once, the newest first.
def merged (sentTxs receivedTxs : List Tx) : List Tx :=
  (Pages.distinct (·.txhash) [] (sentTxs ++ receivedTxs)).insertionSort fun a b => b.height ≤ a.height

def filtered (runtime : Runtime) (query : Query) (sentTxs receivedTxs : List Tx) : List Entry :=
  ((merged sentTxs receivedTxs).map (Tx.entry query.address)).filter (query.matching runtime)

-- `GET /history`
def history (runtime : Runtime) (query : Query) (search : Event → ℕ → Option (List Tx)) : Response :=
  let sentTxs := fetchTxsByEvent (search (.messageSender query.address) (query.limitNum * 2))
  let receivedTxs := fetchTxsByEvent (search (.transferRecipient query.address) (query.limitNum * 2))
  let entries := filtered runtime query sentTxs receivedTxs
  { transactions := Pages.page entries query.limitNum (query.pageNum - 1)
    total        := entries.length
    page         := query.pageNum
    limit        := query.limitNum }

-- The entries that are found for a query, whatever its page.
def Chain.entries (chain : Chain) (runtime : Runtime) (query : Query) : List Entry :=
  filtered runtime query (chain.search (.messageSender query.address) (query.limitNum * 2))
    (chain.search (.transferRecipient query.address) (query.limitNum * 2))

-- The answer of the endpoint over a chain.
def Chain.history (chain : Chain) (runtime : Runtime) (query : Query) (page : ℕ) : Response :=
  TxHistory.history runtime { query with page } fun event n => some (chain.search event n)

-- The pages 1, 2, 3, ..., one after the other.
def Chain.listed (chain : Chain) (runtime : Runtime) (query : Query) (m : ℕ) : List Entry :=
  (List.range m).flatMap fun p => (chain.history runtime query (p + 1)).transactions

def Tx.Involves (tx : Tx) (address : String) : Prop :=
  .messageSender address ∈ tx.events ∨ .transferRecipient address ∈ tx.events

-- All transactions of the address that match the filters, each once and the newest first.
structure Exact (chain : Chain) (runtime : Runtime) (query : Query) (entries : List Entry) : Prop where
  newestFirst : entries.Pairwise fun a b => b.block ≤ a.block
  once        : (entries.map (·.hash)).Nodup
  mem_iff     : ∀ t, t ∈ entries ↔ ∃ tx ∈ chain.txs, tx.Involves query.address ∧
    tx.entry query.address = t ∧ query.matching runtime t = true

-- The pages list them all, and the total is their number.
def PagesExact (chain : Chain) (runtime : Runtime) (query : Query) : Prop :=
  ∃ entries, Exact chain runtime query entries ∧
    (∀ page, (chain.history runtime query page).total = entries.length) ∧
    ∀ m, entries.length ≤ m * query.limitNum → chain.listed runtime query m = entries

-- What matches is within what the chain is asked for.
def Fetched (chain : Chain) (runtime : Runtime) (query : Query) : Prop :=
  ∀ tx ∈ chain.txs, tx.Involves query.address → query.matching runtime (tx.entry query.address) = true →
    tx ∈ chain.search (.messageSender query.address) (query.limitNum * 2) ∨
      tx ∈ chain.search (.transferRecipient query.address) (query.limitNum * 2)

section

variable {chain : Chain} {runtime : Runtime} {query : Query} {event : Event} {n m page : ℕ} {tx : Tx}
  {sentTxs receivedTxs : List Tx} {t : Entry}

theorem limitNum_pos : 0 < query.limitNum := by
  rw [Query.limitNum]
  omega

theorem mem_found : tx ∈ chain.found event ↔ tx ∈ chain.txs ∧ event ∈ tx.events := by
  rw [Chain.found, List.mem_filter, decide_eq_true_eq]

theorem of_mem_search (h : tx ∈ chain.search event n) : tx ∈ chain.txs ∧ event ∈ tx.events :=
  mem_found.mp (List.mem_of_mem_take h)

-- The hash tells the transactions of a chain apart.
theorem Chain.eq_of_txhash {other : Tx} (h : tx ∈ chain.txs) (h' : other ∈ chain.txs)
    (heq : tx.txhash = other.txhash) : tx = other :=
  List.inj_on_of_nodup_map chain.unique h h' heq

theorem mem_merged (hsent : sentTxs ⊆ chain.txs) (hreceived : receivedTxs ⊆ chain.txs) :
    tx ∈ merged sentTxs receivedTxs ↔ tx ∈ sentTxs ∨ tx ∈ receivedTxs := by
  have hsub : ∀ tx ∈ sentTxs ++ receivedTxs, tx ∈ chain.txs := fun tx hm =>
    (List.mem_append.mp hm).elim (fun hm => hsent hm) (fun hm => hreceived hm)
  rw [merged, List.mem_insertionSort,
    Pages.mem_distinct fun x hx y hy => chain.eq_of_txhash (hsub x hx) (hsub y hy), List.mem_append]

theorem newestFirst_filtered :
    (filtered runtime query sentTxs receivedTxs).Pairwise fun a b => b.block ≤ a.block := by
  have hsorted : (merged sentTxs receivedTxs).Pairwise fun a b => b.height ≤ a.height :=
    List.pairwise_insertionSort (fun a b : Tx => b.height ≤ a.height) _
  exact (List.pairwise_map.mpr hsorted).filter _

theorem once_filtered : ((filtered runtime query sentTxs receivedTxs).map (·.hash)).Nodup := by
  have hhash : (fun t : Entry => t.hash) ∘ Tx.entry query.address = fun tx => tx.txhash := rfl
  have hmerged : ((merged sentTxs receivedTxs).map (·.txhash)).Nodup :=
    ((List.perm_insertionSort _ _).map _).nodup_iff.mpr Pages.nodup_distinct
  have hsub := (List.filter_sublist (p := query.matching runtime)
    (l := (merged sentTxs receivedTxs).map (Tx.entry query.address))).map fun t : Entry => t.hash
  rw [List.map_map, hhash] at hsub
  exact hmerged.sublist hsub

theorem mem_filtered (hsent : sentTxs ⊆ chain.txs) (hreceived : receivedTxs ⊆ chain.txs) :
    t ∈ filtered runtime query sentTxs receivedTxs ↔ ∃ tx, (tx ∈ sentTxs ∨ tx ∈ receivedTxs) ∧
      tx.entry query.address = t ∧ query.matching runtime t = true := by
  simp only [filtered, List.mem_filter, List.mem_map, mem_merged hsent hreceived]
  exact ⟨fun ⟨⟨tx, hm, heq⟩, hmatch⟩ => ⟨tx, hm, heq, hmatch⟩,
    fun ⟨tx, hm, heq, hmatch⟩ => ⟨⟨tx, hm, heq⟩, hmatch⟩⟩

theorem mem_entries : t ∈ chain.entries runtime query ↔ ∃ tx,
    (tx ∈ chain.search (.messageSender query.address) (query.limitNum * 2) ∨
      tx ∈ chain.search (.transferRecipient query.address) (query.limitNum * 2)) ∧
    tx.entry query.address = t ∧ query.matching runtime t = true :=
  mem_filtered (fun _ hm => (of_mem_search hm).1) fun _ hm => (of_mem_search hm).1

theorem total_history : (chain.history runtime query page).total = (chain.entries runtime query).length :=
  rfl

theorem listed_eq : chain.listed runtime query m =
    Pages.firsts (chain.entries runtime query) query.limitNum m := by
  have hpage : ∀ p, (chain.history runtime query (p + 1)).transactions =
      Pages.page (chain.entries runtime query) query.limitNum p := by
    intro p
    have hnum : max 1 (if p + 1 = 0 then 1 else p + 1) - 1 = p := by
      rw [if_neg (Nat.succ_ne_zero p)]
      omega
    calc (chain.history runtime query (p + 1)).transactions
      _ = Pages.page (chain.entries runtime query) query.limitNum
          (max 1 (if p + 1 = 0 then 1 else p + 1) - 1) := rfl
      _ = Pages.page (chain.entries runtime query) query.limitNum p := by rw [hnum]
  simp only [Chain.listed, Pages.firsts, hpage]

-- Nothing is lost when what matches was asked for.
theorem exact_of_fetched (h : Fetched chain runtime query) :
    Exact chain runtime query (chain.entries runtime query) where
  newestFirst := newestFirst_filtered
  once        := once_filtered
  mem_iff t   := by
    rw [mem_entries]
    constructor
    case mp =>
      rintro ⟨tx, hm, heq, hmatch⟩
      cases hm with
      | inl hm => exact ⟨tx, (of_mem_search hm).1, .inl (of_mem_search hm).2, heq, hmatch⟩
      | inr hm => exact ⟨tx, (of_mem_search hm).1, .inr (of_mem_search hm).2, heq, hmatch⟩
    case mpr =>
      rintro ⟨tx, hm, hinvolves, rfl, hmatch⟩
      exact ⟨tx, h tx hm hinvolves hmatch, rfl, hmatch⟩

-- Enough pages list what was found and nothing else.
theorem eq_entries {entries : List Entry}
    (htotal : (chain.history runtime query 1).total = entries.length)
    (hlisted : ∀ m, entries.length ≤ m * query.limitNum → chain.listed runtime query m = entries) :
    entries = chain.entries runtime query := by
  have hle : entries.length ≤ entries.length * query.limitNum := Nat.le_mul_of_pos_right _ limitNum_pos
  rw [← hlisted entries.length hle, listed_eq]
  rw [total_history] at htotal
  exact Pages.firsts_eq_self (htotal ▸ hle)

-- An entry that is listed is one of a transaction that was asked for.
theorem fetched_of_exact (h : Exact chain runtime query (chain.entries runtime query)) :
    Fetched chain runtime query := by
  intro tx hm hinvolves hmatch
  have hentry := (h.mem_iff (tx.entry query.address)).mpr ⟨tx, hm, hinvolves, rfl, hmatch⟩
  obtain ⟨other, hother, heq, -⟩ := mem_entries.mp hentry
  have hchain : other ∈ chain.txs := hother.elim (fun hm => (of_mem_search hm).1) fun hm => (of_mem_search hm).1
  have hhash : other.txhash = tx.txhash := congrArg Entry.hash heq
  exact chain.eq_of_txhash hchain hm hhash ▸ hother

end

-- The pages are exact as long as everything that matches is among twice the limit of the newest
-- transactions that were sent, or of those that were received.
theorem pagesExact_iff (chain : Chain) (runtime : Runtime) (query : Query) :
    PagesExact chain runtime query ↔ Fetched chain runtime query := by
  constructor
  case mp =>
    rintro ⟨entries, hexact, htotal, hlisted⟩
    exact fetched_of_exact (eq_entries (htotal 1) hlisted ▸ hexact)
  case mpr =>
    refine fun h => ⟨chain.entries runtime query, exact_of_fetched h, fun _ => total_history, ?_⟩
    intro m hle
    rw [listed_eq, Pages.firsts_eq_self hle]

def sentTx (txhash : String) (height : ℕ) : Tx where
  txhash
  height
  code      := some 0
  timestamp := "2026-01-01T00:00:00Z"
  messages  := [{ fromAddress := some "mall1a", toAddress := some "mall1b", amount := some (.text "5") }]
  events    := [.messageSender "mall1a", .transferRecipient "mall1b"]

def threeSent : Chain where
  txs    := [sentTx "C" 3, sentTx "B" 2, sentTx "A" 1]
  sorted := by decide
  unique := by decide

def oneByOne : Query where
  address := "mall1a"
  limit   := 1

def sampleRuntime : Runtime where
  getTime _   := some 0
  toLowerCase := id

-- With one entry on a page, two of the three transactions are asked for.
theorem third_transaction_is_lost :
    (threeSent.history sampleRuntime oneByOne 1).total = 2 ∧
      ((threeSent.listed sampleRuntime oneByOne 3).map (·.hash)) = ["C", "B"] ∧
      ¬PagesExact threeSent sampleRuntime oneByOne := by
  refine ⟨by decide +kernel, by decide +kernel, ?_⟩
  rintro ⟨entries, hexact, htotal, hlisted⟩
  have hfetched := fetched_of_exact (eq_entries (htotal 1) hlisted ▸ hexact)
  have hlost := hfetched (sentTx "A" 1) (by decide) (.inl (by decide)) (by decide +kernel)
  exact absurd hlost (by decide +kernel)

-- With two, it is found.
example : (threeSent.listed sampleRuntime { oneByOne with limit := 2 } 2).map (·.hash) = ["C", "B", "A"] := by
  decide +kernel

end TxHistory
