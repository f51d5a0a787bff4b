import MallChain.Lib.Binary64

namespace Sdk

-- A number as it is written in a JSON text.
structure JsonNumber where
  negative : Bool := false
  integer  : ℕ
  fraction : List (Fin 10) := []
  exponent : Option ℤ := none
  deriving DecidableEq, Repr

namespace JsonNumber

def value (n : JsonNumber) : ℚ :=
  let fraction : ℕ := Nat.ofDigits 10 (n.fraction.reverse.map Fin.val)
  (if n.negative then -1 else 1) * (n.integer + fraction / 10 ^ n.fraction.length) *
    10 ^ n.exponent.getD 0

-- Decoded into a field of type uint64: digits and nothing else.
def parseUint (n : JsonNumber) : Option UInt64 :=
  if n.negative = false ∧ n.fraction = [] ∧ n.exponent = none ∧ n.integer < 2 ^ 64 then
    some (UInt64.ofNat n.integer)
  else none

-- Decoded without a type, as a float64.
def parseFloat (n : JsonNumber) : Option ℚ :=
  if Binary64.isFinite n.value then some (Binary64.round n.value) else none

variable {n : JsonNumber} {a : UInt64}

theorem value_of_parseUint (h : n.parseUint = some a) : n.value = a.toNat := by
  rw [parseUint] at h
  split_ifs at h with hn
  obtain ⟨hneg, hf, he, hlt⟩ := hn
  cases h
  rw [UInt64.toNat_ofNat_of_lt' hlt]
  simp [value, hneg, hf, he]

end JsonNumber

inductive Json
  | null
  | string (s : String)
  | number (n : JsonNumber)
  | other
  deriving DecidableEq, Repr

-- The fields of an object in the order of the text.
abbrev JsonObject := List (String × Json)

end Sdk
