import MallChain.Lib.ByteString

-- The wire format of protobuf: a message is a sequence of numbered fields.
namespace Protobuf

def byte (n : ℕ) : Fin 256 :=
  ⟨n % 256, Nat.mod_lt n (by decide)⟩

-- A number in groups of seven bits, the lowest group first. All bytes but the last have the high bit set.
def varint (n : ℕ) : ByteString :=
  if n < 128 then [byte n] else byte (n % 128 + 128) :: varint (n / 128)

-- A number of at most that many bytes, and what follows it
def readVarint : ℕ → ByteString → Option (ℕ × ByteString)
  | 0, _ => none
  | _ + 1, [] => none
  | k + 1, b :: bs =>
    if b.val < 128 then some (b.val, bs)
    else (readVarint k bs).map fun (n, rest) => (n * 128 + (b.val - 128), rest)

inductive Value
  | varint (n : ℕ)
  | fixed64 (bs : ByteString)
  | bytes (bs : ByteString)
  | fixed32 (bs : ByteString)
  deriving DecidableEq, Repr

structure Field where
  number : ℕ
  value  : Value
  deriving DecidableEq, Repr

namespace Value

def wireType : Value → ℕ
  | varint _  => 0
  | fixed64 _ => 1
  | bytes _   => 2
  | fixed32 _ => 5

def encode : Value → ByteString
  | varint n   => Protobuf.varint n
  | fixed64 bs => bs
  | bytes bs   => Protobuf.varint bs.length ++ bs
  | fixed32 bs => bs

-- The value has a place in the format.
def Fits : Value → Prop
  | varint n   => n < 2 ^ 64
  | fixed64 bs => bs.length = 8
  | bytes bs   => bs.length < 2 ^ 64
  | fixed32 bs => bs.length = 4

def asUint64 : Value → Option UInt64
  | varint n => some (.ofNat n)
  | _        => none

def asUint32 : Value → Option UInt32
  | varint n => some (.ofNat n)
  | _        => none

def asBytes : Value → Option ByteString
  | bytes bs => some bs
  | _        => none

def asString (v : Value) : Option String :=
  v.asBytes.bind ByteString.toString?

end Value

namespace Field

def encode (f : Field) : ByteString :=
  varint (f.number * 8 + f.value.wireType) ++ f.value.encode

structure Fits (f : Field) : Prop where
  number_pos : 0 < f.number
  number_lt  : f.number < 2 ^ 29
  value      : f.value.Fits

end Field

def encode (fs : List Field) : ByteString :=
  fs.flatMap Field.encode

def take (k : ℕ) (bs : ByteString) : Option (ByteString × ByteString) :=
  if k ≤ bs.length then some (bs.take k, bs.drop k) else none

-- The groups of the older versions are not read.
def readValue (wireType : ℕ) (bs : ByteString) : Option (Value × ByteString) :=
  match wireType with
  | 0 => (readVarint 10 bs).map fun (n, rest) => (.varint (n % 2 ^ 64), rest)
  | 1 => (take 8 bs).map fun (value, rest) => (.fixed64 value, rest)
  | 2 => (readVarint 10 bs).bind fun (n, rest) =>
    (take (n % 2 ^ 64) rest).map fun (value, rest) => (.bytes value, rest)
  | 5 => (take 4 bs).map fun (value, rest) => (.fixed32 value, rest)
  | _ => none

def readField (bs : ByteString) : Option (Field × ByteString) := do
  let (tag, rest) ← readVarint 10 bs
  let number := tag % 2 ^ 64 / 8
  if 0 < number ∧ number < 2 ^ 29 then
    let (value, rest) ← readValue (tag % 8) rest
    return ({ number, value }, rest)
  else none

def readFields : ℕ → ByteString → Option (List Field)
  | _, [] => some []
  | 0, _ :: _ => none
  | k + 1, b :: bs => do
    let (f, rest) ← readField (b :: bs)
    return f :: (← readFields k rest)

-- A field takes at least one byte.
def decode (bs : ByteString) : Option (List Field) :=
  readFields bs.length bs

def values (number : ℕ) (fs : List Field) : List Value :=
  fs.filterMap fun f => if f.number = number then some f.value else none

section Readers

variable {α : Type}

-- Of a field that is repeated, the last value counts. A field that is missing has its default.
def scalar (as : Value → Option α) (default : α) (number : ℕ) (fs : List Field) : Option α :=
  ((values number fs).mapM as).map fun vs => vs.getLast?.getD default

def uint64 : ℕ → List Field → Option UInt64 :=
  scalar Value.asUint64 0

def uint32 : ℕ → List Field → Option UInt32 :=
  scalar Value.asUint32 0

def string : ℕ → List Field → Option String :=
  scalar Value.asString ""

-- A message that is repeated is merged, as if its parts were one. A message that is missing is empty.
def message (decode : ByteString → Option α) (number : ℕ) (fs : List Field) : Option α :=
  ((values number fs).mapM Value.asBytes).bind fun parts => decode parts.flatten

end Readers

example : encode [⟨2, .varint 300⟩] = [16, 172, 2] := by
  simp [encode, Field.encode, Value.encode, Value.wireType, varint, byte]

example : decode [16, 172, 2] = some [⟨2, .varint 300⟩] := by
  decide

variable {n k : ℕ} {bs : ByteString} {v : Value} {f : Field} {fs fs' : List Field}

section Varint

theorem varint_ne_nil : varint n ≠ [] := by
  rw [varint]
  split_ifs <;> exact List.cons_ne_nil _ _

-- A number is read back, whatever follows it.
theorem readVarint_varint (h : n < 128 ^ (k + 1)) : readVarint (k + 1) (varint n ++ bs) = some (n, bs) := by
  induction k generalizing n with
  | zero =>
    have hlt : n < 128 := by simpa using h
    have hval : (byte n).val = n := Nat.mod_eq_of_lt (by omega)
    rw [varint, if_pos hlt, List.singleton_append, readVarint, hval, if_pos hlt]
  | succ k ih =>
    rw [varint]
    split_ifs with hlt
    case pos =>
      have hval : (byte n).val = n := Nat.mod_eq_of_lt (by omega)
      rw [List.singleton_append, readVarint, hval, if_pos hlt]
    case neg =>
      have hval : (byte (n % 128 + 128)).val = n % 128 + 128 := Nat.mod_eq_of_lt (by omega)
      have hdiv : n / 128 < 128 ^ (k + 1) := by
        rw [Nat.div_lt_iff_lt_mul (by decide), ← pow_succ]
        exact h
      have hsum : n / 128 * 128 + n % 128 = n := Nat.div_add_mod' n 128
      rw [List.cons_append, readVarint, hval, if_neg (by omega), ih hdiv, Option.map_some, Nat.add_sub_cancel]
      simp only [hsum]

theorem length_varint (h : n < 128 ^ (k + 1)) : (varint n).length ≤ k + 1 := by
  induction k generalizing n with
  | zero =>
    have hlt : n < 128 := by simpa using h
    rw [varint, if_pos hlt, List.length_singleton]
  | succ k ih =>
    rw [varint]
    split_ifs
    case pos => simp
    case neg =>
      have hdiv : n / 128 < 128 ^ (k + 1) := by
        rw [Nat.div_lt_iff_lt_mul (by decide), ← pow_succ]
        exact h
      rw [List.length_cons]
      exact Nat.succ_le_succ (ih hdiv)

-- Ten bytes are enough for 64 bits.
theorem readVarint_ten (h : n < 2 ^ 64) : readVarint 10 (varint n ++ bs) = some (n, bs) :=
  readVarint_varint (h.trans (by norm_num))

end Varint

section RoundTrip

theorem length_bytes (hk : k < 2 ^ 29) (h : bs.length < 2 ^ 64) :
    (Field.encode ⟨k, .bytes bs⟩).length ≤ bs.length + 20 := by
  have htag : (varint (k * 8 + 2)).length ≤ 10 := length_varint (by omega)
  have hlength : (varint bs.length).length ≤ 10 := length_varint (h.trans (by norm_num))
  simp only [Field.encode, Value.encode, Value.wireType, List.length_append]
  omega

theorem take_append {value : ByteString} (h : value.length = k) : take k (value ++ bs) = some (value, bs) := by
  rw [take, if_pos (by rw [List.length_append]; omega), ← h, List.take_left, List.drop_left]

theorem readValue_encode (h : v.Fits) : readValue v.wireType (v.encode ++ bs) = some (v, bs) := by
  cases v with
  | varint n =>
    have hlt : n < 2 ^ 64 := h
    simp only [Value.wireType, Value.encode, readValue, readVarint_ten hlt, Option.map_some, Nat.mod_eq_of_lt hlt]
  | fixed64 value => rw [Value.wireType, Value.encode, readValue, take_append h, Option.map_some]
  | bytes value =>
    have hlt : value.length < 2 ^ 64 := h
    simp only [Value.wireType, Value.encode, readValue, List.append_assoc, readVarint_ten hlt, Option.bind_some,
      Nat.mod_eq_of_lt hlt, take_append rfl, Option.map_some]
  | fixed32 value => rw [Value.wireType, Value.encode, readValue, take_append h, Option.map_some]

theorem Value.wireType_lt : v.wireType < 8 := by
  cases v <;> simp [wireType]

theorem readField_encode (h : f.Fits) : readField (f.encode ++ bs) = some (f, bs) := by
  have htype : f.value.wireType < 8 := Value.wireType_lt
  have hpos := h.number_pos
  have hlt := h.number_lt
  have htag : f.number * 8 + f.value.wireType < 2 ^ 64 := by omega
  have hnumber : (f.number * 8 + f.value.wireType) / 8 = f.number := by omega
  have hmod : (f.number * 8 + f.value.wireType) % 8 = f.value.wireType := by omega
  rw [Field.encode, readField, List.append_assoc, readVarint_ten htag]
  simp only [Option.bind_eq_bind, Option.bind_some, Nat.mod_eq_of_lt htag, hnumber, hmod, readValue_encode h.value]
  rw [if_pos ⟨hpos, hlt⟩]
  rfl

theorem Field.encode_ne_nil : f.encode ≠ [] :=
  List.append_ne_nil_of_left_ne_nil varint_ne_nil _

theorem readFields_encode (h : ∀ f ∈ fs, f.Fits) (hk : fs.length ≤ k) : readFields k (encode fs) = some fs := by
  induction fs generalizing k with
  | nil => cases k <;> rfl
  | cons f fs ih =>
    cases k with
    | zero => cases hk
    | succ k =>
      have hfield : readField (f.encode ++ encode fs) = some (f, encode fs) :=
        readField_encode (h f List.mem_cons_self)
      have hrest := ih (fun f hm => h f (List.mem_cons_of_mem _ hm)) (Nat.le_of_succ_le_succ hk)
      have hencode : encode (f :: fs) = f.encode ++ encode fs := rfl
      obtain ⟨b, bs, hcons⟩ := List.exists_cons_of_ne_nil (f.encode_ne_nil)
      rw [hencode, hcons, List.cons_append, readFields, ← List.cons_append, ← hcons, hfield]
      simp only [Option.bind_eq_bind, Option.bind_some, hrest]
      rfl

theorem length_le_encode : fs.length ≤ (encode fs).length := by
  induction fs with
  | nil => exact Nat.zero_le _
  | cons f fs ih =>
    have hpos : 0 < f.encode.length := List.length_pos_iff.mpr f.encode_ne_nil
    have hencode : encode (f :: fs) = f.encode ++ encode fs := rfl
    rw [hencode, List.length_append, List.length_cons]
    omega

-- The fields of a message are read back as they were written.
theorem decode_encode (h : ∀ f ∈ fs, f.Fits) : decode (encode fs) = some fs :=
  readFields_encode h length_le_encode

end RoundTrip

section Values

variable {number : ℕ} {parts : List (ℕ × Option Value)} {value : Option Value}

-- The fields of a message, of which some have no value.
def fieldsOf (parts : List (ℕ × Option Value)) : List Field :=
  parts.flatMap fun (number, value) => value.toList.map fun value => { number, value }

theorem values_fieldsOf_of_notMem (h : number ∉ parts.map Prod.fst) : values number (fieldsOf parts) = [] := by
  refine List.filterMap_eq_nil_iff.mpr fun f hf => if_neg ?_
  obtain ⟨⟨other, value⟩, hm, hf⟩ := List.mem_flatMap.mp hf
  obtain ⟨v, _, rfl⟩ := List.mem_map.mp hf
  rintro rfl
  exact h (List.mem_map_of_mem hm)

theorem values_fieldsOf (hnodup : (parts.map Prod.fst).Nodup) (h : (number, value) ∈ parts) :
    values number (fieldsOf parts) = value.toList := by
  induction parts with
  | nil => cases h
  | cons part parts ih =>
    obtain ⟨hnotMem, hnodup⟩ := List.nodup_cons.mp hnodup
    have hsplit : values number (fieldsOf (part :: parts)) =
        values number (part.2.toList.map fun value => { number := part.1, value }) ++
          values number (fieldsOf parts) := List.filterMap_append ..
    rw [hsplit]
    rcases List.mem_cons.mp h with rfl | h
    case inl =>
      rw [values_fieldsOf_of_notMem hnotMem, List.append_nil]
      cases value <;> simp [values]
    case inr =>
      have hother : part.1 ≠ number := fun heq => hnotMem (heq ▸ List.mem_map_of_mem h)
      rw [ih hnodup h]
      cases part.2 <;> simp [values, hother]

theorem scalar_fieldsOf {α : Type} {as : Value → Option α} {default : α}
    (hnodup : (parts.map Prod.fst).Nodup) (h : (number, value) ∈ parts) :
    scalar as default number (fieldsOf parts) = (value.map as).getD (some default) := by
  rw [scalar, values_fieldsOf hnodup h]
  cases value with
  | none => rfl
  | some v =>
    rw [Option.toList_some, List.mapM_cons, List.mapM_nil]
    cases hv : as v <;> simp [hv]

theorem message_fieldsOf {α : Type} {decode : ByteString → Option α}
    (hnodup : (parts.map Prod.fst).Nodup) (h : (number, value) ∈ parts) :
    message decode number (fieldsOf parts) = (value.map fun v => v.asBytes.bind decode).getD (decode []) := by
  rw [message, values_fieldsOf hnodup h]
  cases value with
  | none => rfl
  | some v =>
    rw [Option.toList_some, List.mapM_cons, List.mapM_nil]
    cases hv : v.asBytes <;> simp [hv]

theorem fits_of_mem_fieldsOf (hnumber : ∀ part ∈ parts, 0 < part.1 ∧ part.1 < 2 ^ 29)
    (hvalue : ∀ part ∈ parts, ∀ v ∈ part.2, v.Fits) (h : f ∈ fieldsOf parts) : f.Fits := by
  obtain ⟨part, hm, hf⟩ := List.mem_flatMap.mp h
  obtain ⟨v, hv, rfl⟩ := List.mem_map.mp hf
  obtain ⟨hpos, hlt⟩ := hnumber part hm
  exact { number_pos := hpos, number_lt := hlt, value := hvalue part hm v (Option.mem_toList.mp hv) }

end Values

end Protobuf
