import Mathlib

-- Strings of bytes: the bytes of texts, and numbers of 64 bits with the most significant byte first.

abbrev ByteString := List (Fin 256)

namespace ByteString

def ofString (text : String) : ByteString :=
  text.toByteArray.data.toList.map UInt8.toFin

theorem ofString_injective : Function.Injective ofString := by
  intro text text' h
  have hbytes := List.map_injective_iff.mpr (fun a b => UInt8.toFin_inj.mp) h
  exact String.toByteArray_inj.mp (ByteArray.ext (Array.toList_inj.mp hbytes))

-- The text of these bytes, if they are UTF-8
def toString? (bs : ByteString) : Option String :=
  String.fromUTF8? ⟨(bs.map UInt8.ofFin).toArray⟩

@[simp]
theorem toString?_ofString (text : String) : toString? (ofString text) = some text := by
  have hbytes : (⟨((ofString text).map UInt8.ofFin).toArray⟩ : ByteArray) = text.toByteArray := by
    simp [ofString, Function.comp_def]
  rw [toString?, hbytes, String.fromUTF8?, dif_pos text.isValidUTF8]
  rfl

-- The last digits of a number in base 256.
def bigEndian : ℕ → ℕ → ByteString
  | 0, _ => []
  | w + 1, n => ⟨n / 256 ^ w % 256, Nat.mod_lt _ (by decide)⟩ :: bigEndian w n

def value (bs : ByteString) : ℕ :=
  bs.foldl (fun n b => n * 256 + b.val) 0

@[simp]
theorem length_bigEndian (w n : ℕ) : (bigEndian w n).length = w := by
  induction w with
  | zero => rfl
  | succ w ih => rw [bigEndian, List.length_cons, ih]

theorem foldl_bigEndian (w n x : ℕ) :
    (bigEndian w n).foldl (fun n b => n * 256 + b.val) x = x * 256 ^ w + n % 256 ^ w := by
  induction w generalizing x with
  | zero => simp [bigEndian, Nat.mod_one]
  | succ w ih =>
    rw [bigEndian, List.foldl_cons, ih, Nat.mod_pow_succ, pow_succ]
    ring

theorem value_bigEndian (w n : ℕ) : value (bigEndian w n) = n % 256 ^ w := by
  rw [value, foldl_bigEndian, zero_mul, zero_add]

-- `binary.BigEndian.PutUint64` into eight bytes
def putUint64 (n : UInt64) : ByteString :=
  bigEndian 8 n.toNat

-- `binary.BigEndian.Uint64`
def uint64 (bs : ByteString) : UInt64 :=
  .ofNat (value (bs.take 8))

@[simp]
theorem length_putUint64 (n : UInt64) : (putUint64 n).length = 8 :=
  length_bigEndian ..

theorem uint64_append (n : UInt64) (bs : ByteString) : uint64 (putUint64 n ++ bs) = n := by
  have htake : (putUint64 n ++ bs).take 8 = putUint64 n := by
    rw [List.take_append_of_le_length (by simp), List.take_of_length_le (by simp)]
  have hlt : n.toNat < 256 ^ 8 := n.toNat_lt.trans_eq (by norm_num)
  rw [uint64, htake, putUint64, value_bigEndian, Nat.mod_eq_of_lt hlt, UInt64.ofNat_toNat]

@[simp]
theorem uint64_putUint64 (n : UInt64) : uint64 (putUint64 n) = n := by
  have h := uint64_append n []
  rwa [List.append_nil] at h

end ByteString
