import MallChain.Lib.Decimal

namespace Crosschain

def bridgeMemoPrefix : String := "crosschain:"

def formatBridgeMemo (transferID : UInt64) : String :=
  bridgeMemoPrefix ++ toString transferID.toNat

-- The characters that `fmt.Sscanf` takes for spaces.
def isSpace (c : Char) : Bool :=
  let n := c.toNat
  9 ≤ n && n ≤ 13 || n = 0x20 || n = 0x85 || n = 0xa0 || n = 0x1680 || 0x2000 ≤ n && n ≤ 0x200a ||
    n = 0x2028 || n = 0x2029 || n = 0x202f || n = 0x205f || n = 0x3000

-- Spaces before a number are skipped, but a newline is an error.
def skipSpace : List Char → Option (List Char)
  | [] => some []
  | c :: cs => if c = '\n' then none else if isSpace c then skipSpace cs else some (c :: cs)

-- `%d` for a uint64. What follows the number is not read.
def scanUint (cs : List Char) : Option UInt64 :=
  (Decimal.scan cs).bind fun n => if n < 2 ^ 64 then some (UInt64.ofNat n) else none

def parseBridgeMemo (memo : String) : Option UInt64 :=
  if memo.length ≤ bridgeMemoPrefix.length then none
  else if memo.toList.take bridgeMemoPrefix.length ≠ bridgeMemoPrefix.toList then none
  else (skipSpace (memo.toList.drop bridgeMemoPrefix.length)).bind scanUint

namespace Ibc

-- The copy of the module that handles the packets.
def parseBridgeMemo (memo : String) : Option UInt64 :=
  if memo.toList.take bridgeMemoPrefix.length ≠ bridgeMemoPrefix.toList then none
  else (skipSpace (memo.toList.drop bridgeMemoPrefix.length)).bind scanUint

end Ibc

example : parseBridgeMemo "crosschain:12" = some 12 := by
  decide +kernel

example : parseBridgeMemo "crosschain: 7th" = some 7 := by
  decide +kernel

theorem formatBridgeMemo_toList {id : UInt64} :
    (formatBridgeMemo id).toList = bridgeMemoPrefix.toList ++ Decimal.digits id.toNat := by
  rw [formatBridgeMemo, String.toList_append, Decimal.toList_toString]

theorem formatBridgeMemo_injective : Function.Injective formatBridgeMemo := by
  intro id id' h
  apply UInt64.toNat_inj.mp
  apply Decimal.digits_injective
  have hl := congrArg String.toList h
  rw [formatBridgeMemo_toList, formatBridgeMemo_toList] at hl
  exact List.append_cancel_left hl

theorem isSpace_of_isDigit {c : Char} (h : c.isDigit = true) : isSpace c = false := by
  simp only [Char.isDigit, Bool.and_eq_true, decide_eq_true_eq, UInt32.le_iff_toNat_le] at h
  have hlo : 48 ≤ c.toNat := h.1
  have hhi : c.toNat ≤ 57 := h.2
  simp only [isSpace, Bool.or_eq_false_iff, Bool.and_eq_false_iff, decide_eq_false_iff_not]
  omega

theorem skipSpace_digits {n : ℕ} : skipSpace (Decimal.digits n) = some (Decimal.digits n) := by
  cases h : Decimal.digits n with
  | nil => rfl
  | cons c cs =>
    have hd : c.isDigit = true := Decimal.isDigit_of_mem (n := n) (h ▸ List.mem_cons_self)
    have hn : c ≠ '\n' := fun he => by
      rw [he] at hd
      cases hd
    simp [skipSpace, hn, isSpace_of_isDigit hd]

theorem scanUint_digits {id : UInt64} : scanUint (Decimal.digits id.toNat) = some id := by
  rw [scanUint, Decimal.scan_digits, Option.bind_some, if_pos id.toNat_lt, UInt64.ofNat_toNat]

-- The memo of a transfer is read back as its id.
@[simp]
theorem parse_format {id : UInt64} : parseBridgeMemo (formatBridgeMemo id) = some id := by
  have hp : 0 < (Decimal.digits id.toNat).length := List.length_pos_iff.mpr Decimal.digits_ne_nil
  have hl : bridgeMemoPrefix.length < (formatBridgeMemo id).length := by
    rw [← String.length_toList, ← String.length_toList, formatBridgeMemo_toList, List.length_append]
    omega
  have hc : bridgeMemoPrefix.length = bridgeMemoPrefix.toList.length := String.length_toList.symm
  rw [parseBridgeMemo, if_neg (not_le.mpr hl), formatBridgeMemo_toList, hc]
  simp [skipSpace_digits, scanUint_digits]

theorem skipSpace_eq_some {cs cs' : List Char} : skipSpace cs = some cs' ↔
    ∃ spaces, cs = spaces ++ cs' ∧ (∀ c ∈ spaces, isSpace c = true ∧ c ≠ '\n') ∧
      ∀ c, cs'.head? = some c → isSpace c = false := by
  constructor
  case mp =>
    intro h
    induction cs with
    | nil =>
      cases h
      exact ⟨[], rfl, fun c hm => absurd hm List.not_mem_nil, fun c hc => nomatch hc⟩
    | cons c cs ih =>
      rw [skipSpace] at h
      split_ifs at h with hnewline hspace
      case pos =>
        obtain ⟨spaces, rfl, hspaces, hhead⟩ := ih h
        refine ⟨c :: spaces, rfl, fun d hd => ?_, hhead⟩
        rcases List.mem_cons.mp hd with rfl | hd
        · exact ⟨hspace, hnewline⟩
        · exact hspaces d hd
      case neg =>
        cases h
        refine ⟨[], rfl, fun d hd => absurd hd List.not_mem_nil, fun d hd => ?_⟩
        cases hd
        exact eq_false_of_ne_true hspace
  case mpr =>
    rintro ⟨spaces, rfl, hspaces, hhead⟩
    induction spaces with
    | nil =>
      cases cs' with
      | nil => rfl
      | cons c cs' =>
        have hspace : isSpace c = false := hhead c rfl
        have hnewline : c ≠ '\n' := fun heq => by
          rw [heq] at hspace
          cases hspace
        rw [List.nil_append, skipSpace, if_neg hnewline, if_neg (by simp [hspace])]
    | cons c spaces ih =>
      obtain ⟨hspace, hnewline⟩ := hspaces c List.mem_cons_self
      rw [List.cons_append, skipSpace, if_neg hnewline, if_pos hspace]
      exact ih fun d hd => hspaces d (List.mem_cons_of_mem c hd)

theorem scanUint_eq_some {cs : List Char} {id : UInt64} :
    scanUint cs = some id ↔ Decimal.scan cs = some id.toNat := by
  rw [scanUint, Option.bind_eq_some_iff]
  constructor
  · rintro ⟨n, hn, h⟩
    split_ifs at h with hlt
    cases h
    rw [hn, UInt64.toNat_ofNat_of_lt' hlt]
  · intro h
    exact ⟨id.toNat, h, by rw [if_pos id.toNat_lt, UInt64.ofNat_toNat]⟩

-- Without the prefix nothing is left to be checked about the length.
theorem parse_ibc (memo : String) : Ibc.parseBridgeMemo memo = parseBridgeMemo memo := by
  rw [Ibc.parseBridgeMemo, parseBridgeMemo]
  by_cases hlength : memo.length ≤ bridgeMemoPrefix.length
  case neg => rw [if_neg hlength]
  case pos =>
    have hdrop : memo.toList.drop bridgeMemoPrefix.length = [] :=
      List.drop_eq_nil_of_le (String.length_toList ▸ hlength)
    rw [if_pos hlength, hdrop]
    split_ifs <;> rfl

theorem parse_eq_some {memo : String} {id : UInt64} : parseBridgeMemo memo = some id ↔
    ∃ spaces digits rest, memo.toList = bridgeMemoPrefix.toList ++ (spaces ++ (digits ++ rest)) ∧
      (∀ c ∈ spaces, isSpace c = true ∧ c ≠ '\n') ∧ digits ≠ [] ∧ (∀ c ∈ digits, c.isDigit = true) ∧
      (∀ c, rest.head? = some c → c.isDigit = false) ∧ Nat.ofDigitChars 10 digits 0 = id.toNat := by
  rw [← parse_ibc, Ibc.parseBridgeMemo]
  constructor
  case mp =>
    intro h
    split_ifs at h with hprefix
    obtain ⟨cs, hcs, hscan⟩ := Option.bind_eq_some_iff.mp h
    obtain ⟨spaces, hdrop, hspaces, _⟩ := skipSpace_eq_some.mp hcs
    obtain ⟨digits, rest, rfl, hne, hdigits, hrest, hvalue⟩ := Decimal.scan_eq_some.mp (scanUint_eq_some.mp hscan)
    refine ⟨spaces, digits, rest, ?_, hspaces, hne, hdigits, hrest, hvalue⟩
    rw [← hdrop, ← not_not.mp hprefix, List.take_append_drop]
  case mpr =>
    rintro ⟨spaces, digits, rest, hmemo, hspaces, hne, hdigits, hrest, hvalue⟩
    have hhead : ∀ c, (digits ++ rest).head? = some c → isSpace c = false := by
      intro c hc
      rw [List.head?_append_of_ne_nil digits hne] at hc
      exact isSpace_of_isDigit (hdigits c (List.mem_of_mem_head? hc))
    have hlength : bridgeMemoPrefix.length = bridgeMemoPrefix.toList.length := String.length_toList.symm
    rw [hmemo, hlength, List.take_left, List.drop_left, if_neg (not_not.mpr rfl),
      skipSpace_eq_some.mpr ⟨spaces, rfl, hspaces, hhead⟩, Option.bind_some, scanUint_eq_some]
    exact Decimal.scan_eq_some.mpr ⟨digits, rest, rfl, hne, hdigits, hrest, hvalue⟩

-- What both parsers accept, and as which id.
theorem memo_codec :
    (∀ id, parseBridgeMemo (formatBridgeMemo id) = some id) ∧
    (∀ memo, Ibc.parseBridgeMemo memo = parseBridgeMemo memo) ∧
    ∀ memo id, parseBridgeMemo memo = some id ↔
      ∃ spaces digits rest, memo.toList = bridgeMemoPrefix.toList ++ (spaces ++ (digits ++ rest)) ∧
        (∀ c ∈ spaces, isSpace c = true ∧ c ≠ '\n') ∧ digits ≠ [] ∧ (∀ c ∈ digits, c.isDigit = true) ∧
        (∀ c, rest.head? = some c → c.isDigit = false) ∧ Nat.ofDigitChars 10 digits 0 = id.toNat :=
  ⟨fun _ => parse_format, parse_ibc, fun _ _ => parse_eq_some⟩

-- A memo with a space before the number and text behind it is accepted.
theorem other_memo_accepted :
    ¬((∀ id, parseBridgeMemo (formatBridgeMemo id) = some id) ∧
      (∀ memo id, parseBridgeMemo memo = some id → ∃ id, memo = formatBridgeMemo id) ∧
      ∀ memo, Ibc.parseBridgeMemo memo = parseBridgeMemo memo) := by
  rintro ⟨_, hexact, _⟩
  have hparse : parseBridgeMemo "crosschain: 7th" = some 7 := by decide +kernel
  obtain ⟨id, hformat⟩ := hexact _ _ hparse
  have hlast : (formatBridgeMemo id).toList.getLast? = some 'h' := by
    rw [← hformat]
    decide +kernel
  rw [formatBridgeMemo_toList, List.getLast?_append_of_ne_nil _ Decimal.digits_ne_nil] at hlast
  exact absurd (Decimal.isDigit_of_mem (List.mem_of_getLast? hlast)) (by decide)

end Crosschain
