import MallChain.Lib.Protobuf

namespace Proto

open Protobuf

-- A text whose bytes fit an array of the language.
structure Text where
  text      : String
  length_lt : (ByteString.ofString text).length < 2 ^ 53
  deriving DecidableEq

-- A text that is a number in decimal.
structure Digits where
  text    : String
  ne      : text ≠ ""
  isDigit : text.toList.all Char.isDigit = true
  deriving DecidableEq

-- The forms in which the callers pass a number.
inductive Integer
  | number (n : ℕ)
  | string (s : Digits)
  | bigint (n : ℕ)
  deriving DecidableEq

-- `BigInt`
def Integer.bigInt : Integer → ℕ
  | number n => n
  | string s => Nat.ofDigitChars 10 s.text.toList 0
  | bigint n => n

-- A number is truthy when it is not 0, and a text when it is not empty, even when it is "0".
def Integer.truthy : Integer → Bool
  | number n => n ≠ 0
  | string _ => true
  | bigint n => n ≠ 0

structure Uint64 where
  integer : Integer
  lt      : integer.bigInt < 2 ^ 64

def Text.truthy (s : Text) : Bool :=
  s.text ≠ ""

def Uint64.truthy (value : Uint64) : Bool :=
  value.integer.truthy

-- An amount of a coin is passed as a text.
structure Coin where
  denom  : Text
  amount : Text
  deriving DecidableEq

-- A coin as the chain reads it.
structure WireCoin where
  denom  : String := ""
  amount : String := ""
  deriving DecidableEq, Repr

-- `Coin.encode` of the library that is used, and how the chain reads a coin
structure CoinCodec where
  encode        : Coin → ByteString
  decode        : ByteString → Option WireCoin
  length_lt     : ∀ coin, (encode coin).length < 2 ^ 64
  decode_encode : ∀ coin, decode (encode coin) = some { denom := coin.denom.text, amount := coin.amount.text }
  decode_nil    : decode [] = some {}

def varintBytes (current : ℕ) : ByteString :=
  if 0x7f < current then byte ((current &&& 0x7f) ||| 0x80) :: varintBytes (current >>> 7)
  else [byte current]
termination_by current
decreasing_by
  rw [Nat.shiftRight_eq_div_pow]
  omega

-- The four files have the same text for these functions.
def encodeVarint (value : Integer) : ByteString :=
  varintBytes value.bigInt

def utf8ToBytes (str : Text) : ByteString :=
  ByteString.ofString str.text

def concatBytes (arrays : List ByteString) : ByteString :=
  arrays.flatten

def encodeStringField (fieldNumber : ℕ) (value : Text) : ByteString :=
  let tag   := encodeVarint (.number (fieldNumber <<< 3 ||| 2))
  let bytes := utf8ToBytes value
  concatBytes [tag, encodeVarint (.number bytes.length), bytes]

def encodeVarintField (fieldNumber : ℕ) (value : Integer) : ByteString :=
  let tag := encodeVarint (.number (fieldNumber <<< 3 ||| 0))
  concatBytes [tag, encodeVarint value]

-- A text is converted before it is encoded.
def encodeUint64Field (fieldNumber : ℕ) (value : Integer) : ByteString :=
  let tag := encodeVarint (.number (fieldNumber <<< 3 ||| 0))
  let value := match value with
    | .string s => .bigint (Integer.string s).bigInt
    | value     => value
  concatBytes [tag, encodeVarint value]

def encodeCoinField (codec : CoinCodec) (fieldNumber : ℕ) (coin : Coin) : ByteString :=
  let tag   := encodeVarint (.number (fieldNumber <<< 3 ||| 2))
  let bytes := codec.encode coin
  concatBytes [tag, encodeVarint (.number bytes.length), bytes]

-- `if (value) parts.push(encode(value))`
def push {α : Type} (value : Option α) (truthy : α → Bool) (encode : α → ByteString) : List ByteString :=
  (value.filter truthy).toList.map encode

-- `if (value !== undefined) parts.push(encode(value))`
def pushDefined {α : Type} (value : Option α) (encode : α → ByteString) : List ByteString :=
  push value (fun _ => true) encode

def pushText (number : ℕ) (value : Option Text) : List ByteString :=
  push value Text.truthy (encodeStringField number)

def pushDefinedText (number : ℕ) (value : Option Text) : List ByteString :=
  pushDefined value (encodeStringField number)

def pushUint64 (number : ℕ) (value : Option Uint64) : List ByteString :=
  push value Uint64.truthy fun value => encodeUint64Field number value.integer

def pushDefinedUint64 (number : ℕ) (value : Option Uint64) : List ByteString :=
  pushDefined value fun value => encodeUint64Field number value.integer

def pushPoolId (number : ℕ) (value : Option Uint64) : List ByteString :=
  pushDefined value fun value => encodeVarintField number value.integer

def pushUint32 (number : ℕ) (value : Option UInt32) : List ByteString :=
  push value (· ≠ 0) fun value => encodeVarintField number (.number value.toNat)

-- A coin is an object, which is truthy.
def pushCoin (codec : CoinCodec) (number : ℕ) (value : Option Coin) : List ByteString :=
  pushDefined value (encodeCoinField codec number)

-- What the chain is to read for a value that may be missing
def textOf (value : Option Text) : String :=
  (value.map Text.text).getD ""

def Uint64.toUInt64 (value : Uint64) : UInt64 :=
  .ofNatLT value.integer.bigInt value.lt

def uint64Of (value : Option Uint64) : UInt64 :=
  (value.map Uint64.toUInt64).getD 0

def coinOf (value : Option Coin) : WireCoin :=
  (value.map fun coin => { denom := coin.denom.text, amount := coin.amount.text }).getD {}

-- The value of a field, if it is encoded
def part {α : Type} (value : Option α) (truthy : α → Bool) (toValue : α → Value) : Option Value :=
  (value.filter truthy).map toValue

def Text.value (s : Text) : Value :=
  .bytes (utf8ToBytes s)

def Uint64.value (value : Uint64) : Value :=
  .varint value.integer.bigInt

def uint32Value (value : UInt32) : Value :=
  .varint value.toNat

def Coin.value (codec : CoinCodec) (coin : Coin) : Value :=
  .bytes (codec.encode coin)

-- A field of a message: what is passed for it and when it is left out.
inductive Entry
  | text (value : Option Text)
  | definedText (value : Option Text)
  | uint64 (value : Option Uint64)
  | definedUint64 (value : Option Uint64)
  | poolId (value : Option Uint64)
  | uint32 (value : Option UInt32)
  | coin (value : Option Coin)

namespace Entry

variable (codec : CoinCodec)

def push (number : ℕ) : Entry → List ByteString
  | text value          => pushText number value
  | definedText value   => pushDefinedText number value
  | uint64 value        => pushUint64 number value
  | definedUint64 value => pushDefinedUint64 number value
  | poolId value        => pushPoolId number value
  | uint32 value        => pushUint32 number value
  | coin value          => pushCoin codec number value

def value : Entry → Option Value
  | text value          => part value Text.truthy Text.value
  | definedText value   => part value (fun _ => true) Text.value
  | uint64 value        => part value Uint64.truthy Uint64.value
  | definedUint64 value => part value (fun _ => true) Uint64.value
  | poolId value        => part value (fun _ => true) Uint64.value
  | uint32 value        => part value (· ≠ 0) uint32Value
  | coin value          => part value (fun _ => true) (Coin.value codec)

-- The field is read as the value that was passed, or as its default.
def Reads (number : ℕ) (fs : List Field) : Entry → Prop
  | text value | definedText value                   => string number fs = some (textOf value)
  | uint64 value | definedUint64 value | poolId value => Protobuf.uint64 number fs = some (uint64Of value)
  | uint32 value                                      => Protobuf.uint32 number fs = some (value.getD 0)
  | coin value => message codec.decode number fs = some (coinOf value)

end Entry

def encodeEntries (codec : CoinCodec) (entries : List (ℕ × Entry)) : ByteString :=
  concatBytes (entries.map fun entry => entry.2.push codec entry.1).flatten

variable {fieldNumber : ℕ} {codec : CoinCodec} {parts : List (ℕ × Option Value)}
  {entry : Entry}

section Encoding

theorem varintBytes_eq (n : ℕ) : varintBytes n = varint n := by
  induction n using Nat.strongRecOn with
  | ind n ih =>
    rw [varintBytes, varint]
    by_cases hlt : n < 128
    case pos => rw [if_pos hlt, if_neg (by omega)]
    case neg =>
      have hlow : n &&& 0x7f = n % 128 := Nat.and_two_pow_sub_one_eq_mod n 7
      have hbyte : n % 128 ||| 0x80 = n % 128 + 128 := by
        have hor := Nat.two_pow_add_eq_or_of_lt (i := 7) (Nat.mod_lt n (by decide)) 1
        rw [Nat.or_comm, Nat.add_comm]
        exact hor.symm
      have hshift : n >>> 7 = n / 128 := Nat.shiftRight_eq_div_pow n 7
      rw [if_neg hlt, if_pos (by omega), hlow, hbyte, hshift, ih _ (by omega)]

theorem encodeVarint_eq (value : Integer) : encodeVarint value = varint value.bigInt :=
  varintBytes_eq _

theorem tag_eq (wireType : ℕ) (h : wireType < 8) : fieldNumber <<< 3 ||| wireType = fieldNumber * 8 + wireType := by
  rw [← Nat.shiftLeft_add_eq_or_of_lt (i := 3) h, Nat.shiftLeft_eq]

theorem encodeStringField_eq (value : Text) :
    encodeStringField fieldNumber value = Field.encode ⟨fieldNumber, .bytes (utf8ToBytes value)⟩ := by
  simp [encodeStringField, concatBytes, encodeVarint_eq, Integer.bigInt, tag_eq, Field.encode, Value.encode,
    Value.wireType]

theorem encodeVarintField_eq (value : Integer) :
    encodeVarintField fieldNumber value = Field.encode ⟨fieldNumber, .varint value.bigInt⟩ := by
  simp [encodeVarintField, concatBytes, encodeVarint_eq, Integer.bigInt, Nat.shiftLeft_eq, Field.encode, Value.encode,
    Value.wireType]

theorem encodeUint64Field_eq (value : Integer) :
    encodeUint64Field fieldNumber value = Field.encode ⟨fieldNumber, .varint value.bigInt⟩ := by
  rw [← encodeVarintField_eq]
  cases value <;> rfl

theorem encodeCoinField_eq (coin : Coin) :
    encodeCoinField codec fieldNumber coin = Field.encode ⟨fieldNumber, .bytes (codec.encode coin)⟩ := by
  simp [encodeCoinField, concatBytes, encodeVarint_eq, Integer.bigInt, tag_eq, Field.encode, Value.encode,
    Value.wireType]

-- The bytes of a field, if it has a value
def fieldBytes (part : ℕ × Option Value) : List ByteString :=
  part.2.toList.map fun value => Field.encode ⟨part.1, value⟩

theorem push_eq {α : Type} {value : Option α} {truthy : α → Bool} {encode : α → ByteString} {toValue : α → Value}
    (h : ∀ a, encode a = Field.encode ⟨fieldNumber, toValue a⟩) :
    push value truthy encode = fieldBytes (fieldNumber, part value truthy toValue) := by
  rw [push, fieldBytes, part]
  cases value.filter truthy with
  | none => rfl
  | some a => simp [h]

-- The bytes of a message are those of its fields.
theorem concatBytes_eq : concatBytes (parts.map fieldBytes).flatten = encode (fieldsOf parts) := by
  induction parts with
  | nil => rfl
  | cons part parts ih =>
    have hfields : encode (fieldsOf (part :: parts)) =
        encode (part.2.toList.map fun value => ⟨part.1, value⟩) ++ encode (fieldsOf parts) := List.flatMap_append ..
    have hpart : (fieldBytes part).flatten = encode (part.2.toList.map fun value => ⟨part.1, value⟩) := by
      rw [fieldBytes, encode, List.flatMap_map, List.flatMap]
    rw [hfields, ← ih, ← hpart, concatBytes, concatBytes, List.map_cons, List.flatten_cons, List.flatten_append]

theorem Entry.push_eq : entry.push codec fieldNumber = fieldBytes (fieldNumber, entry.value codec) := by
  cases entry with
  | text value => exact Proto.push_eq encodeStringField_eq
  | definedText value => exact Proto.push_eq encodeStringField_eq
  | uint64 value => exact Proto.push_eq fun _ => encodeUint64Field_eq _
  | definedUint64 value => exact Proto.push_eq fun _ => encodeUint64Field_eq _
  | poolId value => exact Proto.push_eq fun _ => encodeVarintField_eq _
  | uint32 value => exact Proto.push_eq fun _ => encodeVarintField_eq _
  | coin value => exact Proto.push_eq encodeCoinField_eq

end Encoding

section Decoding

-- A field that is left out has its default, if only defaults are left out.
theorem scalar_part {α β : Type} {value : Option α} {truthy : α → Bool} {toValue : α → Value}
    {as : Value → Option β} {get : α → β} {default : β} (hnodup : (parts.map Prod.fst).Nodup)
    (h : (fieldNumber, part value truthy toValue) ∈ parts) (hget : ∀ a, as (toValue a) = some (get a))
    (hfalsy : ∀ a, truthy a = false → get a = default) :
    scalar as default fieldNumber (fieldsOf parts) = some ((value.map get).getD default) := by
  rw [scalar_fieldsOf hnodup h, part]
  cases value with
  | none => rfl
  | some a =>
    rw [Option.filter_some]
    cases ht : truthy a with
    | true => exact hget a
    | false => exact congrArg some (hfalsy a ht).symm

theorem asString_value (s : Text) : s.value.asString = some s.text :=
  ByteString.toString?_ofString s.text

theorem asUint64_value (n : Uint64) : n.value.asUint64 = some n.toUInt64 :=
  congrArg some (UInt64.ofNatLT_eq_ofNat _).symm

theorem asUint32_value (n : UInt32) : (uint32Value n).asUint32 = some (id n) :=
  congrArg some UInt32.ofNat_toNat

-- Only the number 0 is left out.
theorem bigInt_of_falsy {value : Integer} (h : value.truthy = false) : value.bigInt = 0 := by
  cases value with
  | number n => exact not_not.mp (of_decide_eq_false h)
  | string s => cases h
  | bigint n => exact not_not.mp (of_decide_eq_false h)

theorem toUInt64_of_falsy {value : Uint64} (h : value.truthy = false) : value.toUInt64 = 0 := by
  rw [Uint64.toUInt64, UInt64.ofNatLT_eq_ofNat, bigInt_of_falsy h]
  rfl

theorem string_text {value : Option Text} (hnodup : (parts.map Prod.fst).Nodup)
    (h : (fieldNumber, part value Text.truthy Text.value) ∈ parts) :
    string fieldNumber (fieldsOf parts) = some (textOf value) :=
  scalar_part hnodup h asString_value fun s hs => by simpa [Text.truthy] using hs

theorem Entry.reads_of_mem (hnodup : (parts.map Prod.fst).Nodup) (h : (fieldNumber, entry.value codec) ∈ parts) :
    entry.Reads codec fieldNumber (fieldsOf parts) := by
  cases entry with
  | text value => exact string_text hnodup h
  | definedText value => exact scalar_part hnodup h asString_value fun _ hs => nomatch hs
  | uint64 value => exact scalar_part hnodup h asUint64_value fun _ => toUInt64_of_falsy
  | definedUint64 value => exact scalar_part hnodup h asUint64_value fun _ hs => nomatch hs
  | poolId value => exact scalar_part hnodup h asUint64_value fun _ hs => nomatch hs
  | uint32 value =>
    have hscalar := scalar_part hnodup h asUint32_value fun n hn => not_not.mp (of_decide_eq_false hn)
    rw [Option.map_id] at hscalar
    exact hscalar
  | coin value =>
    have hmessage : message codec.decode fieldNumber (fieldsOf parts) = _ := message_fieldsOf hnodup h
    rw [Entry.value, part] at hmessage
    cases value with
    | none => exact hmessage.trans codec.decode_nil
    | some coin => exact hmessage.trans (codec.decode_encode coin)

theorem fits_text {v : Value} {value : Option Text} {truthy : Text → Bool}
    (h : v ∈ part value truthy Text.value) : v.Fits := by
  obtain ⟨s, _, rfl⟩ := Option.map_eq_some_iff.mp h
  exact s.length_lt.trans (by decide)

theorem Entry.fits {v : Value} (h : v ∈ entry.value codec) : v.Fits := by
  cases entry
  case text | definedText => exact fits_text h
  all_goals obtain ⟨a, _, rfl⟩ := Option.map_eq_some_iff.mp h
  case uint64 | definedUint64 | poolId => exact a.lt
  case uint32 => exact a.toNat_lt.trans (by decide)
  case coin => exact codec.length_lt a

-- Every field of a message is read as what was passed for it.
theorem decode_encodeEntries (codec : CoinCodec) (entries : List (ℕ × Entry)) (hnodup : (entries.map Prod.fst).Nodup)
    (hnumber : ∀ number ∈ entries.map Prod.fst, 0 < number ∧ number < 2 ^ 29) :
    ∃ fs, decode (encodeEntries codec entries) = some fs ∧
      entries.Forall fun entry => entry.2.Reads codec entry.1 fs := by
  let parts := entries.map fun entry => (entry.1, entry.2.value codec)
  have hfst : parts.map Prod.fst = entries.map Prod.fst := by simp [parts, Function.comp_def]
  have hbytes : encodeEntries codec entries = encode (fieldsOf parts) := by
    rw [encodeEntries, ← concatBytes_eq, List.map_map]
    simp only [Entry.push_eq, Function.comp_def]
  refine ⟨fieldsOf parts, ?_, List.forall_iff_forall_mem.mpr fun entry hm => ?_⟩
  case refine_1 =>
    rw [hbytes]
    refine decode_encode fun f hf => fits_of_mem_fieldsOf (fun part hm => ?_) (fun part hm v hv => ?_) hf
    · exact hnumber part.1 (hfst ▸ List.mem_map_of_mem hm)
    · obtain ⟨entry, _, rfl⟩ := List.mem_map.mp hm
      exact entry.2.fits hv
  case refine_2 => exact Entry.reads_of_mem (hfst ▸ hnodup) (List.mem_map_of_mem hm)

end Decoding

section Standard

def Coin.fields (coin : Coin) : List (ℕ × Option Value) :=
  [(1, part (some coin.denom) Text.truthy Text.value), (2, part (some coin.amount) Text.truthy Text.value)]

theorem length_text (value : Option Text) (hnumber : fieldNumber < 2 ^ 29) :
    (encode (fieldsOf [(fieldNumber, part value Text.truthy Text.value)])).length < 2 ^ 53 + 20 := by
  cases hv : part value Text.truthy Text.value with
  | none => exact Nat.zero_lt_succ _
  | some v =>
    obtain ⟨s, _, rfl⟩ := Option.map_eq_some_iff.mp hv
    have hlt : (utf8ToBytes s).length < 2 ^ 53 := s.length_lt
    have hencode : encode (fieldsOf [(fieldNumber, some s.value)]) = Field.encode ⟨fieldNumber, s.value⟩ :=
      List.append_nil _
    rw [hencode]
    exact (length_bytes hnumber (hlt.trans (by decide))).trans_lt (Nat.add_lt_add_right hlt 20)

theorem Coin.length_encode (coin : Coin) : (encode (fieldsOf coin.fields)).length < 2 ^ 64 := by
  have hdenom := length_text (some coin.denom) (show 1 < 2 ^ 29 by decide)
  have hamount := length_text (some coin.amount) (show 2 < 2 ^ 29 by decide)
  rw [Coin.fields, ← List.singleton_append, fieldsOf, List.flatMap_append, encode, List.flatMap_append,
    List.length_append]
  exact (Nat.add_lt_add hdenom hamount).trans (by decide)

-- A coin as a message of its own.
def standardCodec : CoinCodec where
  encode coin := encode (fieldsOf coin.fields)
  decode bs := do
    let fs ← decode bs
    return { denom := ← string 1 fs, amount := ← string 2 fs }
  length_lt := Coin.length_encode
  decode_encode coin := by
    have hnodup : (coin.fields.map Prod.fst).Nodup := by simp [Coin.fields]
    have hdecode : decode (encode (fieldsOf coin.fields)) = some (fieldsOf coin.fields) := by
      refine decode_encode fun f hf => fits_of_mem_fieldsOf ?_ ?_ hf
      · simp [Coin.fields]
      · simp only [Coin.fields, List.forall_mem_cons]
        exact ⟨fun _ => fits_text, fun _ => fits_text, fun _ h => nomatch h⟩
    have hdenom : string 1 (fieldsOf coin.fields) = some (textOf (some coin.denom)) :=
      string_text hnodup (by simp [Coin.fields])
    have hamount : string 2 (fieldsOf coin.fields) = some (textOf (some coin.amount)) :=
      string_text hnodup (by simp [Coin.fields])
    rw [hdecode]
    simp [hdenom, hamount, textOf]
  decode_nil := rfl

end Standard

end Proto
