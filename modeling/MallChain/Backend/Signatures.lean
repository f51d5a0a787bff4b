import MallChain.Lib.Text
import MallChain.Lib.KVStore

namespace Signatures

open Base64 (Bytes)

inductive Route
  | convert
  | link
  deriving DecidableEq, Repr

def Route.name : Route → String
  | convert => "convert"
  | link    => "link"

def convertMessage (address timestamp : String) : String :=
  "Convert Mallpoints to Mallcoin for " ++ address ++ " at " ++ timestamp

def linkWalletMessage (address timestamp : String) : String :=
  "Link wallet " ++ address ++ " to my Mallchain account at " ++ timestamp

def Route.message : Route → String → String → String
  | convert => convertMessage
  | link    => linkWalletMessage

def fromBase64 (text : String) : Option Bytes :=
  Base64.decode text.toList

-- What the libraries do: `Date.parse`, `bech32.decode`, the hash of an amino document that has the message to
-- be signed, `Secp256k1.verifySignature`, which may throw, and `pubkeyToAddress`.
structure Crypto where
  parseDate       : String → Option ℤ
  bech32Decode    : String → Option (String × Bytes)
  signDocHash     : (signer message : String) → Bytes
  verifySignature : (signature hash pubkey : Bytes) → Option Bool
  pubkeyToAddress : (pubkey : Bytes) → (addressPrefix : String) → Option String
  addressPrefix   : String := "mall"

structure Request where
  route     : Route
  address   : String
  timestamp : String
  pubKey    : String
  signature : String
  now       : ℤ
  deriving DecidableEq, Repr

def signatureMaxAge : ℤ :=
  10 * 60 * 1000

def consumedTtl : ℤ :=
  60 * 60 * 1000

-- The signatures that were seen, each with the time at which it is forgotten.
abbrev State := KVStore String ℤ

def isFree (s : State) (key : String) (now : ℤ) : Bool :=
  (s.get key).all (· ≤ now)

variable (crypto : Crypto)

namespace Request

variable (r : Request)

def sigKey : String :=
  "adr036_consumed:" ++ r.route.name ++ ":" ++ String.ofList (r.signature.toList.take 128)

def isAddressed : Bool :=
  match r.route with
  | .convert => r.address ≠ ""
  | .link    => (crypto.bech32Decode r.address).any fun (hrp, bytes) => hrp = "mall" ∧ bytes.length = 20

def isSigned : Bool :=
  r.timestamp ≠ "" ∧ r.pubKey ≠ "" ∧ r.signature ≠ ""

def isTimely : Bool :=
  (crypto.parseDate r.timestamp).any fun signedAt => |r.now - signedAt| ≤ signatureMaxAge

end Request

def verifyOwnershipSignature (address message pubKeyBase64 signatureBase64 : String) : Bool :=
  if address = "" ∨ message = "" ∨ pubKeyBase64 = "" ∨ signatureBase64 = "" ∨ crypto.addressPrefix = "" then
    false
  else
    match fromBase64 pubKeyBase64, fromBase64 signatureBase64 with
    | some pubkey, some signature =>
      if signature.length ≠ 64 then false
      else
        crypto.verifySignature signature (crypto.signDocHash address message) pubkey = some true ∧
          crypto.pubkeyToAddress pubkey crypto.addressPrefix = some address
    | _, _ => false

def Request.verifies (r : Request) : Bool :=
  verifyOwnershipSignature crypto r.address (r.route.message r.address r.timestamp) r.pubKey r.signature

inductive Outcome
  | invalidAddress
  | unsigned
  | expired
  | used
  | invalidSignature
  | passed
  deriving DecidableEq, Repr

-- The checks of `POST /convert` and of `linkWallet`. The key is taken before the signature is verified.
def check (s : State) (r : Request) : Outcome × State :=
  if !r.isAddressed crypto then (.invalidAddress, s)
  else if !r.isSigned then (.unsigned, s)
  else if !r.isTimely crypto then (.expired, s)
  else if !isFree s r.sigKey r.now then (.used, s)
  else
    let s := s.set r.sigKey (r.now + consumedTtl)
    if r.verifies crypto then (.passed, s) else (.invalidSignature, s)

-- Requests in the order in which they come to Redis.
def stateAfter (reqs : List Request) : State :=
  reqs.foldl (fun s r => (check crypto s r).2) .empty

def outcomes : State → List Request → List (Request × Outcome)
  | _, []        => []
  | s, r :: reqs => (r, (check crypto s r).1) :: outcomes (check crypto s r).2 reqs

-- What an owner has signed, and the texts of a signature that derive from it.
structure Authorisation where
  route     : Route
  address   : String
  timestamp : String
  derived   : String → Bool

namespace Authorisation

variable (a : Authorisation) (r : Request)

def covers : Bool :=
  r.route = a.route ∧ r.address = a.address ∧ r.timestamp = a.timestamp ∧ a.derived r.signature

-- A request that is genuine and comes in time.
def isGenuine : Bool :=
  a.covers r ∧ r.isAddressed crypto ∧ r.isSigned ∧ r.isTimely crypto ∧ r.verifies crypto

end Authorisation

-- At most one request passes, and a genuine one is refused only as the repetition of one that has passed.
structure UsedOnce (a : Authorisation) (reqs : List Request) : Prop where
  once       : ((outcomes crypto .empty reqs).filter fun e => a.covers e.1 ∧ e.2 = .passed).length ≤ 1
  unhindered : ∀ before r rest, reqs = before ++ r :: rest → a.isGenuine crypto r = true →
    (check crypto (stateAfter crypto before) r).1 = .used →
      ∃ r', (r', .passed) ∈ outcomes crypto .empty before ∧ a.covers r' = true ∧ r'.sigKey = r.sigKey

-- All genuine requests have the same text as far as it is looked at, and the first finds that it was not seen.
structure SpeltOnce (a : Authorisation) (reqs : List Request) : Prop where
  same : ∀ r ∈ reqs, ∀ r' ∈ reqs, a.isGenuine crypto r = true → a.isGenuine crypto r' = true →
    r.sigKey = r'.sigKey
  free : ∀ before r rest, reqs = before ++ r :: rest → a.isGenuine crypto r = true →
    (∀ r' ∈ before, a.isGenuine crypto r' = false) →
      isFree (stateAfter crypto before) r.sigKey r.now = true

section Checks

variable {crypto} {s : State} {r r' : Request} {a : Authorisation} {reqs before rest : List Request}
  {key : String} {expiry : ℤ}

theorem stateAfter_snoc :
    stateAfter crypto (reqs ++ [r]) = (check crypto (stateAfter crypto reqs) r).2 := by
  rw [stateAfter, List.foldl_append]
  rfl

theorem outcomes_append : outcomes crypto s (before ++ rest) =
    outcomes crypto s before ++
      outcomes crypto (before.foldl (fun s r => (check crypto s r).2) s) rest := by
  induction before generalizing s with
  | nil => rfl
  | cons r before ih =>
    rw [List.cons_append, outcomes, ih]
    rfl

theorem outcomes_split : outcomes crypto .empty (before ++ r :: rest) =
    outcomes crypto .empty before ++ (r, (check crypto (stateAfter crypto before) r).1) ::
      outcomes crypto (stateAfter crypto (before ++ [r])) rest := by
  rw [outcomes_append, stateAfter_snoc]
  rfl

theorem mem_of_mem_outcomes {o : Outcome} : {s : State} → {reqs : List Request} →
    (r, o) ∈ outcomes crypto s reqs → r ∈ reqs
  | _, [], h => by cases h
  | s, r₀ :: reqs, h => by
    rcases List.mem_cons.mp h with heq | h
    · cases heq
      exact List.mem_cons_self
    · exact List.mem_cons_of_mem _ (mem_of_mem_outcomes h)

-- A genuine request comes as far as to Redis.
theorem check_genuine (h : a.isGenuine crypto r = true) : (check crypto s r).1 =
    if isFree s r.sigKey r.now then .passed else .used := by
  simp only [Authorisation.isGenuine, decide_eq_true_eq] at h
  obtain ⟨_, haddressed, hsigned, htimely, hverifies⟩ := h
  rw [check, haddressed, hsigned, htimely, hverifies]
  cases isFree s r.sigKey r.now <;> rfl

theorem genuine_of_passed (hcovers : a.covers r = true) (h : (check crypto s r).1 = .passed) :
    a.isGenuine crypto r = true := by
  rw [check] at h
  simp only [Authorisation.isGenuine, decide_eq_true_eq]
  split_ifs at h with haddressed hsigned htimely hfree hverifies
  simp only [Bool.not_eq_true', Bool.not_eq_false] at haddressed hsigned htimely
  exact ⟨hcovers, haddressed, hsigned, htimely, hverifies⟩

theorem genuine_of_mem {s : State} (hcovers : a.covers r = true) :
    {reqs : List Request} → (r, .passed) ∈ outcomes crypto s reqs → a.isGenuine crypto r = true
  | [], h => by cases h
  | r₀ :: reqs, h => by
    rcases List.mem_cons.mp h with heq | h
    · obtain ⟨hr, ho⟩ := Prod.mk.inj heq
      subst hr
      exact genuine_of_passed hcovers ho.symm
    · exact genuine_of_mem hcovers h

-- What was seen is forgotten no sooner than it was to be.
theorem held_check (h : ∃ e ≥ expiry, s.get key = some e) :
    ∃ e ≥ expiry, (check crypto s r).2.get key = some e := by
  obtain ⟨e, hle, hget⟩ := h
  have hset : isFree s r.sigKey r.now = true →
      ∃ e ≥ expiry, (s.set r.sigKey (r.now + consumedTtl)).get key = some e := by
    intro hfree
    by_cases heq : key = r.sigKey
    case neg => exact ⟨e, hle, (KVStore.get_set_ne heq).trans hget⟩
    case pos =>
      rw [isFree, ← heq, hget, Option.all_some, decide_eq_true_eq] at hfree
      refine ⟨r.now + consumedTtl, ?_, by rw [heq, KVStore.get_set_self]⟩
      have httl : (0 : ℤ) ≤ consumedTtl := by decide
      omega
  rw [check]
  split_ifs with haddressed hsigned htimely hfree hverifies
  case pos => exact ⟨e, hle, hget⟩
  case pos => exact ⟨e, hle, hget⟩
  case pos => exact ⟨e, hle, hget⟩
  case pos => exact ⟨e, hle, hget⟩
  all_goals exact hset (by simpa using hfree)

theorem isFree_of_held (h : ∃ e ≥ expiry, s.get key = some e) {now : ℤ} (hnow : now < expiry) :
    isFree s key now = false := by
  obtain ⟨e, hle, hget⟩ := h
  rw [isFree, hget, Option.all_some, decide_eq_false_iff_not]
  omega

theorem held_of_passed (h : (check crypto s r).1 = .passed) :
    ∃ e ≥ r.now + consumedTtl, (check crypto s r).2.get r.sigKey = some e := by
  rw [check] at h ⊢
  split_ifs at h ⊢ with haddressed hsigned htimely hfree hverifies
  exact ⟨r.now + consumedTtl, le_refl _, KVStore.get_set_self⟩

-- Two requests with the same time stamp are no further apart than a signature is remembered.
theorem now_lt (h : a.isGenuine crypto r = true) (h' : a.isGenuine crypto r' = true) :
    r'.now < r.now + consumedTtl := by
  simp only [Authorisation.isGenuine, Authorisation.covers, decide_eq_true_eq] at h h'
  obtain ⟨⟨_, _, hstamp, _⟩, _, _, htimely, _⟩ := h
  obtain ⟨⟨_, _, hstamp', _⟩, _, _, htimely', _⟩ := h'
  rw [Request.isTimely, hstamp] at htimely
  rw [Request.isTimely, hstamp'] at htimely'
  cases hparse : crypto.parseDate a.timestamp with
  | none =>
    rw [hparse] at htimely
    cases htimely
  | some signedAt =>
    rw [hparse, Option.any_some, decide_eq_true_eq, abs_le] at htimely htimely'
    simp only [signatureMaxAge, consumedTtl] at *
    omega

-- Once the text is seen, no request with it passes as long as it is remembered.
theorem not_passed_of_held {reqs : List Request} : {s : State} → (∃ e ≥ expiry, s.get key = some e) →
    (∀ r ∈ reqs, a.isGenuine crypto r = true → r.sigKey = key ∧ r.now < expiry) →
    (outcomes crypto s reqs).filter (fun e => a.covers e.1 ∧ e.2 = .passed) = [] := by
  induction reqs with
  | nil => exact fun _ _ => rfl
  | cons r reqs ih =>
    intro s hheld hall
    rw [outcomes, List.filter_cons_of_neg ?not, ih (held_check hheld) fun r' hr' =>
      hall r' (List.mem_cons_of_mem _ hr')]
    case not =>
      intro h
      obtain ⟨hcovers, hpassed⟩ := of_decide_eq_true h
      have hgenuine := genuine_of_passed hcovers hpassed
      obtain ⟨hkey, hnow⟩ := hall r List.mem_cons_self hgenuine
      have hfree := isFree_of_held hheld hnow
      rw [← hkey] at hfree
      have hused := check_genuine (s := s) hgenuine
      rw [hfree, if_neg Bool.false_ne_true] at hused
      have hpassed : (check crypto s r).1 = .passed := hpassed
      rw [hused] at hpassed
      cases hpassed

-- Where nothing is genuine, nothing passes.
theorem not_passed_of_none {s : State} (h : ∀ r ∈ reqs, a.isGenuine crypto r = false) :
    (outcomes crypto s reqs).filter (fun e => a.covers e.1 ∧ e.2 = .passed) = [] := by
  apply List.filter_eq_nil_iff.mpr
  intro e hmem he
  obtain ⟨r, o⟩ := e
  obtain ⟨hcovers, hpassed⟩ := of_decide_eq_true he
  have hpassed : o = .passed := hpassed
  subst hpassed
  have hgenuine := genuine_of_mem hcovers hmem
  rw [h r (mem_of_mem_outcomes hmem)] at hgenuine
  cases hgenuine

section Once

-- Each genuine request passes, or repeats the text of one that has.
theorem UsedOnce.exists_passed (h : UsedOnce crypto a reqs) (hr : r ∈ reqs)
    (hgenuine : a.isGenuine crypto r = true) :
    ∃ r', (r', .passed) ∈ (outcomes crypto .empty reqs).filter (fun e => a.covers e.1 ∧ e.2 = .passed) ∧
      r'.sigKey = r.sigKey := by
  obtain ⟨before, rest, heq⟩ := List.append_of_mem hr
  have hmem : ∀ e ∈ outcomes crypto .empty before, e ∈ outcomes crypto .empty reqs := by
    intro e he
    rw [heq, outcomes_split]
    exact List.mem_append_left _ he
  have hcovers : a.covers r = true := by
    simp only [Authorisation.isGenuine, decide_eq_true_eq] at hgenuine
    exact hgenuine.1
  have houtcome := check_genuine (s := stateAfter crypto before) hgenuine
  cases hfree : isFree (stateAfter crypto before) r.sigKey r.now with
  | true =>
    rw [hfree, if_pos rfl] at houtcome
    refine ⟨r, List.mem_filter.mpr ⟨?_, decide_eq_true ⟨hcovers, rfl⟩⟩, rfl⟩
    rw [heq, outcomes_split, houtcome]
    exact List.mem_append_right _ List.mem_cons_self
  | false =>
    rw [hfree, if_neg Bool.false_ne_true] at houtcome
    obtain ⟨r', hpassed, hcovers', hkey⟩ := h.unhindered before r rest heq hgenuine houtcome
    exact ⟨r', List.mem_filter.mpr ⟨hmem _ hpassed, decide_eq_true ⟨hcovers', rfl⟩⟩, hkey⟩

theorem eq_of_mem_of_length_le_one {α : Type} {l : List α} {x y : α} (h : l.length ≤ 1) (hx : x ∈ l)
    (hy : y ∈ l) : x = y := by
  cases l with
  | nil => cases hx
  | cons b tl =>
    have htl : tl = [] := List.length_eq_zero_iff.mp (by simpa using h)
    rw [htl, List.mem_singleton] at hx hy
    rw [hx, hy]

theorem UsedOnce.speltOnce (h : UsedOnce crypto a reqs) : SpeltOnce crypto a reqs where
  same := by
    intro r hr r' hr' hgenuine hgenuine'
    obtain ⟨p, hp, hkey⟩ := h.exists_passed hr hgenuine
    obtain ⟨p', hp', hkey'⟩ := h.exists_passed hr' hgenuine'
    have heq := eq_of_mem_of_length_le_one h.once hp hp'
    rw [← hkey, ← hkey', (Prod.mk.inj heq).1]
  free := by
    intro before r rest heq hgenuine hnone
    by_contra hheld
    have houtcome := check_genuine (s := stateAfter crypto before) hgenuine
    rw [if_neg hheld] at houtcome
    obtain ⟨r', hpassed, hcovers, _⟩ := h.unhindered before r rest heq hgenuine houtcome
    have hgenuine' := genuine_of_mem hcovers hpassed
    rw [hnone r' (mem_of_mem_outcomes hpassed)] at hgenuine'
    cases hgenuine'

-- The first genuine request passes, and those after it have its text.
theorem SpeltOnce.first (h : SpeltOnce crypto a reqs) (heq : reqs = before ++ r :: rest)
    (hgenuine : a.isGenuine crypto r = true) (hnone : ∀ r' ∈ before, a.isGenuine crypto r' = false) :
    (check crypto (stateAfter crypto before) r).1 = .passed ∧
      (outcomes crypto .empty reqs).filter (fun e => a.covers e.1 ∧ e.2 = .passed) = [(r, .passed)] := by
  have hpassed : (check crypto (stateAfter crypto before) r).1 = .passed := by
    rw [check_genuine hgenuine, if_pos (h.free before r rest heq hgenuine hnone)]
  have hcovers : a.covers r = true := by
    simp only [Authorisation.isGenuine, decide_eq_true_eq] at hgenuine
    exact hgenuine.1
  have hheld : ∃ e ≥ r.now + consumedTtl,
      (stateAfter crypto (before ++ [r])).get r.sigKey = some e := by
    rw [stateAfter_snoc]
    exact held_of_passed hpassed
  have hrest : ∀ r' ∈ rest, a.isGenuine crypto r' = true →
      r'.sigKey = r.sigKey ∧ r'.now < r.now + consumedTtl := by
    intro r' hr' hgenuine'
    have hmem : r' ∈ reqs := by
      rw [heq]
      exact List.mem_append_right _ (List.mem_cons_of_mem _ hr')
    have hmem₀ : r ∈ reqs := by
      rw [heq]
      exact List.mem_append_right _ List.mem_cons_self
    exact ⟨h.same r' hmem r hmem₀ hgenuine' hgenuine, now_lt hgenuine hgenuine'⟩
  refine ⟨hpassed, ?_⟩
  rw [heq, outcomes_split, List.filter_append, not_passed_of_none hnone, List.nil_append, hpassed,
    List.filter_cons_of_pos (by simp [hcovers]), not_passed_of_held hheld hrest]

theorem SpeltOnce.usedOnce (h : SpeltOnce crypto a reqs) : UsedOnce crypto a reqs := by
  cases hfind : reqs.find? (a.isGenuine crypto ·) with
  | none =>
    have hnone : ∀ r ∈ reqs, a.isGenuine crypto r = false := by simpa using hfind
    constructor
    case once =>
      rw [not_passed_of_none hnone]
      exact Nat.zero_le _
    case unhindered =>
      intro before r rest heq hgenuine _
      have hmem : r ∈ reqs := by
        rw [heq]
        exact List.mem_append_right _ List.mem_cons_self
      rw [hnone r hmem] at hgenuine
      cases hgenuine
  | some r =>
    obtain ⟨hgenuine, before, rest, heq, hbefore⟩ := List.find?_eq_some_iff_append.mp hfind
    have hnone : ∀ r' ∈ before, a.isGenuine crypto r' = false := by simpa using hbefore
    obtain ⟨hpassed, hpasses⟩ := h.first heq hgenuine hnone
    have hcovers : a.covers r = true := by
      simp only [Authorisation.isGenuine, decide_eq_true_eq] at hgenuine
      exact hgenuine.1
    constructor
    case once => rw [hpasses, List.length_singleton]
    case unhindered =>
      intro before' r' rest' heq' hgenuine' hused
      have hmem : ∀ x rest₀, reqs = before ++ x :: rest₀ → x ∈ reqs := by
        intro x rest₀ hx
        rw [hx]
        exact List.mem_append_right _ List.mem_cons_self
      have hkey : r.sigKey = r'.sigKey := by
        refine h.same r (hmem r rest heq) r' ?_ hgenuine hgenuine'
        rw [heq']
        exact List.mem_append_right _ List.mem_cons_self
      -- The first genuine request has come before one that is refused.
      rcases List.append_eq_append_iff.mp (heq.symm.trans heq') with hlong | hshort
      · obtain ⟨middle, hbefore', hcons⟩ := hlong
        cases middle with
        | nil =>
          rw [List.nil_append] at hcons
          rw [List.append_nil] at hbefore'
          obtain ⟨hr, _⟩ := List.cons.inj hcons
          rw [hbefore', ← hr, hpassed] at hused
          cases hused
        | cons x middle =>
          obtain ⟨hx, _⟩ := List.cons.inj hcons
          refine ⟨r, ?_, hcovers, hkey⟩
          rw [hbefore', ← hx, outcomes_split, hpassed]
          exact List.mem_append_right _ List.mem_cons_self
      · obtain ⟨middle, hbefore₀, hcons⟩ := hshort
        cases middle with
        | nil =>
          rw [List.nil_append] at hcons
          rw [List.append_nil] at hbefore₀
          obtain ⟨hr, _⟩ := List.cons.inj hcons
          rw [← hbefore₀, hr, hpassed] at hused
          cases hused
        | cons x middle =>
          obtain ⟨hx, _⟩ := List.cons.inj hcons
          have hin : r' ∈ before := by
            rw [hbefore₀, hx]
            exact List.mem_append_right _ List.mem_cons_self
          rw [hnone r' hin] at hgenuine'
          cases hgenuine'

end Once

end Checks

namespace Sample

-- All bytes are 1, and the last two characters of the texts have bits that fill no byte.
def spelling (last : Char) : String :=
  String.ofList ((List.replicate 21 ['A', 'Q', 'E', 'B']).flatten ++ ['A', last, '=', '='])

def accepting : Crypto where
  parseDate timestamp          := if timestamp = "2026-01-01T00:00:00.000Z" then some 1767225600000 else none
  bech32Decode address         := if address = "mall1alice" then some ("mall", List.replicate 20 0) else none
  signDocHash _ message        := message.toList.map fun c => .ofNat c.toNat
  verifySignature signature hash pubkey := some (signature = List.replicate 64 1 ∧ pubkey = [0, 0, 0] ∧
    hash = (linkWalletMessage "mall1alice" "2026-01-01T00:00:00.000Z").toList.map fun c => .ofNat c.toNat)
  pubkeyToAddress _ _          := some "mall1alice"

def linking (pubKey : String) (last : Char) (now : ℤ) : Request where
  route     := .link
  address   := "mall1alice"
  timestamp := "2026-01-01T00:00:00.000Z"
  pubKey    := pubKey
  signature := spelling last
  now       := now

def signed : Authorisation where
  route     := .link
  address   := "mall1alice"
  timestamp := "2026-01-01T00:00:00.000Z"
  derived _ := true

end Sample

-- What an owner has signed is used once, and not hindered, just if it is spelt in one way that nobody has sent
-- before.
theorem used_once_iff_spelt_once (crypto : Crypto) (a : Authorisation) (reqs : List Request) :
    UsedOnce crypto a reqs ↔ SpeltOnce crypto a reqs :=
  ⟨UsedOnce.speltOnce, SpeltOnce.usedOnce⟩

-- Two spellings of one signature both pass.
theorem respelling_passes :
    ¬∀ (crypto : Crypto) (a : Authorisation) (reqs : List Request), UsedOnce crypto a reqs := by
  intro h
  have honce := (h Sample.accepting Sample.signed
    [Sample.linking "AAAA" 'Q' 1767225601000, Sample.linking "AAAA" 'R' 1767225602000]).once
  exact absurd honce (by decide +kernel)

end Signatures
