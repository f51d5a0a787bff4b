import Mathlib

-- Base 64 with the standard alphabet and padding.
namespace Base64

abbrev Bytes := List UInt8

def value (c : Char) : Option ℕ :=
  if 'A' ≤ c ∧ c ≤ 'Z' then some (c.toNat - 65)
  else if 'a' ≤ c ∧ c ≤ 'z' then some (c.toNat - 71)
  else if '0' ≤ c ∧ c ≤ '9' then some (c.toNat + 4)
  else if c = '+' then some 62
  else if c = '/' then some 63
  else none

-- Bits that do not fill a byte are ignored.
def decodeSextets : List ℕ → Bytes
  | a :: b :: c :: d :: tl =>
    .ofNat (a * 4 + b / 16) :: .ofNat (b % 16 * 16 + c / 4) :: .ofNat (c % 4 * 64 + d) :: decodeSextets tl
  | [a, b, c] => [.ofNat (a * 4 + b / 16), .ofNat (b % 16 * 16 + c / 4)]
  | [a, b]    => [.ofNat (a * 4 + b / 16)]
  | _         => []

def decode (symbols : List Char) : Option Bytes :=
  let padding := symbols.dropWhile (· ≠ '=')
  if padding.length ≤ 2 ∧ padding.all (· = '=') ∧ symbols.length % 4 = 0 then
    ((symbols.takeWhile (· ≠ '=')).mapM value).map decodeSextets
  else none

-- `base64.StdEncoding.DecodeString`, which skips line breaks
def decodeString (text : String) : Option Bytes :=
  decode (text.toList.filter fun c => c ≠ '\r' ∧ c ≠ '\n')

def symbol (n : ℕ) : Char :=
  if n < 26 then .ofNat (n + 65)
  else if n < 52 then .ofNat (n + 71)
  else if n < 62 then .ofNat (n - 4)
  else if n = 62 then '+'
  else '/'

-- The bits of the bytes, six at a time, with zeros for those that are missing at the end.
def sextets : Bytes → List ℕ
  | a :: b :: c :: tl =>
    (a.toNat / 4) :: (a.toNat % 4 * 16 + b.toNat / 16) :: (b.toNat % 16 * 4 + c.toNat / 64) ::
      (c.toNat % 64) :: sextets tl
  | [a, b] => [a.toNat / 4, a.toNat % 4 * 16 + b.toNat / 16, b.toNat % 16 * 4]
  | [a]    => [a.toNat / 4, a.toNat % 4 * 16]
  | []     => []

def encode (bytes : Bytes) : List Char :=
  (sextets bytes).map symbol ++ .replicate ((3 - bytes.length % 3) % 3) '='

def encodeString (bytes : Bytes) : String :=
  .ofList (encode bytes)

theorem symbol_spec : ∀ n < 64, value (symbol n) = some n ∧
    symbol n ≠ '=' ∧ symbol n ≠ '\r' ∧ symbol n ≠ '\n' := by
  decide

theorem sextets_lt {bytes : Bytes} : ∀ n ∈ sextets bytes, n < 64 := by
  induction bytes using sextets.induct with
  | case1 a b c tl ih =>
    have ha := a.toNat_lt
    have hb := b.toNat_lt
    have hc := c.toNat_lt
    simp only [sextets, List.forall_mem_cons]
    exact ⟨by omega, by omega, by omega, by omega, ih⟩
  | case2 a b =>
    have ha := a.toNat_lt
    have hb := b.toNat_lt
    simp only [sextets, List.forall_mem_cons]
    exact ⟨by omega, by omega, by omega, by simp⟩
  | case3 a =>
    have ha := a.toNat_lt
    simp only [sextets, List.forall_mem_cons]
    exact ⟨by omega, by omega, by simp⟩
  | case4 => simp [sextets]

theorem length_sextets (bytes : Bytes) :
    (sextets bytes).length + (3 - bytes.length % 3) % 3 = (bytes.length + 2) / 3 * 4 := by
  induction bytes using sextets.induct with
  | case1 a b c tl ih =>
    simp only [sextets, List.length_cons]
    omega
  | case2 a b => simp [sextets]
  | case3 a   => simp [sextets]
  | case4     => rfl

theorem ofNat_eq {n : ℕ} {a : UInt8} (h : n = a.toNat) : UInt8.ofNat n = a := by
  rw [h, UInt8.ofNat_toNat]

-- No bit is lost.
theorem decodeSextets_sextets (bytes : Bytes) : decodeSextets (sextets bytes) = bytes := by
  induction bytes using sextets.induct with
  | case1 a b c tl ih =>
    have ha := a.toNat_lt
    have hb := b.toNat_lt
    have hc := c.toNat_lt
    rw [sextets, decodeSextets, ih, ofNat_eq (a := a) (by omega), ofNat_eq (a := b) (by omega),
      ofNat_eq (a := c) (by omega)]
  | case2 a b =>
    have ha := a.toNat_lt
    have hb := b.toNat_lt
    rw [sextets, decodeSextets, ofNat_eq (a := a) (by omega), ofNat_eq (a := b) (by omega)]
  | case3 a =>
    have ha := a.toNat_lt
    rw [sextets, decodeSextets, ofNat_eq (a := a) (by omega)]
  | case4 => rfl

theorem mapM_value {ns : List ℕ} (h : ∀ n ∈ ns, n < 64) : (ns.map symbol).mapM value = some ns := by
  induction ns with
  | nil => rfl
  | cons n ns ih =>
    obtain ⟨hn, hns⟩ := List.forall_mem_cons.mp h
    simp [(symbol_spec n hn).1, ih hns]

theorem mem_symbols {bytes : Bytes} : ∀ c ∈ (sextets bytes).map symbol, c ≠ '=' ∧ c ≠ '\r' ∧ c ≠ '\n' := by
  intro c hc
  obtain ⟨n, hn, rfl⟩ := List.mem_map.mp hc
  exact (symbol_spec n (sextets_lt n hn)).2

theorem decode_encode (bytes : Bytes) : decode (encode bytes) = some bytes := by
  have hs : ∀ c ∈ (sextets bytes).map symbol, decide (c ≠ '=') := fun c hc =>
    decide_eq_true (mem_symbols c hc).1
  have hd : (encode bytes).dropWhile (· ≠ '=') = .replicate ((3 - bytes.length % 3) % 3) '=' := by
    rw [encode, List.dropWhile_append_of_pos hs]
    cases (3 - bytes.length % 3) % 3 <;> simp [List.replicate_succ]
  have ht : (encode bytes).takeWhile (· ≠ '=') = (sextets bytes).map symbol := by
    rw [encode, List.takeWhile_append_of_pos hs]
    cases (3 - bytes.length % 3) % 3 <;> simp [List.replicate_succ]
  have hl : (encode bytes).length % 4 = 0 := by
    rw [encode, List.length_append, List.length_map, List.length_replicate, length_sextets]
    exact Nat.mul_mod_left _ 4
  have hp : (List.replicate ((3 - bytes.length % 3) % 3) '=').length ≤ 2 := by
    rw [List.length_replicate]
    omega
  rw [decode, hd, ht, if_pos ⟨hp, by simp, hl⟩, mapM_value sextets_lt, Option.map_some, decodeSextets_sextets]

-- What was encoded is decoded again.
theorem decodeString_encodeString (bytes : Bytes) :
    decodeString (encodeString bytes) = some bytes := by
  have hf : (encode bytes).filter (fun c => c ≠ '\r' ∧ c ≠ '\n') = encode bytes := by
    refine List.filter_eq_self.mpr fun c hc => decide_eq_true ?_
    rcases List.mem_append.mp hc with hc | hc
    case inl => exact (mem_symbols c hc).2
    case inr => rw [List.eq_of_mem_replicate hc]; decide
  rw [decodeString, encodeString, String.toList_ofList, hf, decode_encode]

-- An encoded text has only symbols of the alphabet, and padding.
theorem mem_encodeString {bytes : Bytes} {c : Char} (h : c ∈ (encodeString bytes).toList) :
    (value c).isSome = true ∨ c = '=' := by
  rw [encodeString, String.toList_ofList, encode, List.mem_append] at h
  cases h with
  | inl h =>
    obtain ⟨n, hn, rfl⟩ := List.mem_map.mp h
    rw [(symbol_spec n (sextets_lt n hn)).1]
    exact .inl rfl
  | inr h => exact .inr (List.eq_of_mem_replicate h)

end Base64

-- Texts that are split at a character.
namespace Split

open String

variable {c : Char} {text : String} {parts : List String}

set_option linter.deprecated false in
-- The part that is being read, with what follows it. The position is at the end of it.
theorem splitOnAux_eq (before part rest : List Char) (found : List String) :
    splitOnAux (ofList (before ++ (part ++ rest))) (singleton c) ⟨utf8Len before⟩
        ⟨utf8Len before + utf8Len part⟩ 0 found =
      found.reverse ++ (List.splitOnPPrepend (· == c) rest part.reverse).map ofList := by
  have hsep : Pos.Raw.get (singleton c) 0 = c := by simpa using get_of_valid [] [c]
  have hsepNext : Pos.Raw.next (singleton c) 0 = ⟨c.utf8Size⟩ := by simpa using next_of_valid [] c []
  have hsepEnd : (⟨c.utf8Size⟩ : Pos.Raw).atEnd (singleton c) = true := by
    simp only [atEnd_iff, Pos.Raw.le_iff]
    simp [rawEndPos]
  induction rest generalizing before part found with
  | nil =>
    have hextract := extract_of_valid before part []
    have hatEnd : (⟨utf8Len before + utf8Len part⟩ : Pos.Raw).atEnd (ofList (before ++ (part ++ []))) = true := by
      simp only [atEnd_iff, rawEndPos_ofList, utf8Len_append, utf8Len_nil, Pos.Raw.mk_le_mk]
      omega
    rw [splitOnAux, if_pos hatEnd]
    simpa using hextract
  | cons a rest ih =>
    have hget : Pos.Raw.get (ofList (before ++ (part ++ a :: rest))) ⟨utf8Len before + utf8Len part⟩ = a := by
      simpa [-ofList_append] using get_of_valid (before ++ part) (a :: rest)
    have hnext : Pos.Raw.next (ofList (before ++ (part ++ a :: rest))) ⟨utf8Len before + utf8Len part⟩ =
        ⟨utf8Len before + utf8Len part + a.utf8Size⟩ := by
      simpa [-ofList_append] using next_of_valid (before ++ part) a rest
    have hextract : Pos.Raw.extract (ofList (before ++ (part ++ a :: rest))) ⟨utf8Len before⟩
        ⟨utf8Len before + utf8Len part⟩ = ofList part := by
      simpa [-ofList_append] using extract_of_valid before part (a :: rest)
    have hinside : ¬(⟨utf8Len before + utf8Len part⟩ : Pos.Raw).atEnd
        (ofList (before ++ (part ++ a :: rest))) = true := by
      have hpos := Char.utf8Size_pos a
      simp only [atEnd_iff, rawEndPos_ofList, utf8Len_append, utf8Len_cons, Pos.Raw.mk_le_mk]
      omega
    rw [splitOnAux, if_neg hinside, hget, hnext, hsep, hsepNext]
    by_cases ha : a = c
    case pos =>
      subst ha
      have hback : (⟨utf8Len before + utf8Len part + a.utf8Size⟩ : Pos.Raw).unoffsetBy ⟨a.utf8Size⟩ =
          ⟨utf8Len before + utf8Len part⟩ := by
        simp [Pos.Raw.unoffsetBy]
      have ih := ih (before ++ part ++ [a]) [] (ofList part :: found)
      simp only [beq_self_eq_true, hsepEnd, if_true, hback, hextract]
      simpa [Nat.add_assoc, List.splitOnPPrepend_cons_eq_if] using ih
    case neg =>
      have hback : (⟨utf8Len before + utf8Len part⟩ : Pos.Raw).unoffsetBy 0 =
          ⟨utf8Len before + utf8Len part⟩ := by
        simp [Pos.Raw.unoffsetBy]
      have hbeq : (a == c) = false := by simpa using ha
      have ih := ih before (part ++ [a]) found
      simp only [hbeq, Bool.false_eq_true, if_false, hback, hnext]
      simpa [Nat.add_assoc, List.splitOnPPrepend_cons_eq_if, hbeq] using ih

theorem splitOn_singleton : text.splitOn (singleton c) = (text.toList.splitOn c).map ofList := by
  have hsep : (singleton c == "") = false := by simp
  rw [String.splitOn, hsep]
  simpa [List.splitOn_eq_splitOnP] using splitOnAux_eq (c := c) [] [] text.toList []

-- Parts without the character are found again,
theorem splitOn_intercalate (hparts : ∀ part ∈ parts, c ∉ part.toList) (hne : parts ≠ []) :
    (intercalate (singleton c) parts).splitOn (singleton c) = parts := by
  have hlists : ∀ part ∈ parts.map toList, c ∉ part := by
    intro part hmem
    obtain ⟨text, htext, rfl⟩ := List.mem_map.mp hmem
    exact hparts text htext
  rw [splitOn_singleton, toList_intercalate, toList_singleton,
    List.splitOn_intercalate c hlists (by simpa using hne), List.map_map]
  simp

-- and a text is put together again.
theorem intercalate_splitOn : intercalate (singleton c) (text.splitOn (singleton c)) = text := by
  rw [← toList_inj, splitOn_singleton, toList_intercalate, toList_singleton, List.map_map]
  have hid : toList ∘ ofList = id := by
    funext l
    simp
  rw [hid, List.map_id, List.intercalate_splitOn]

end Split
