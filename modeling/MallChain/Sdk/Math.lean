import MallChain.Lib.Rounding
import MallChain.Sdk.Result

namespace Sdk

-- The integers of `cosmossdk.io/math`: an operation panics when its result needs more than 256 bits.
namespace MathInt

def maxBitLen : ℕ := 256

def inRange (x : ℤ) : Result ℤ :=
  if x.natAbs < 2 ^ maxBitLen then .ok x else .error (.panic "Int overflow")

def add (a b : ℤ) : Result ℤ :=
  inRange (a + b)

def sub (a b : ℤ) : Result ℤ :=
  inRange (a - b)

def mul (a b : ℤ) : Result ℤ :=
  inRange (a * b)

def quo (a b : ℤ) : Result ℤ :=
  if b = 0 then .error (.panic "division by zero") else .ok (a.tdiv b)

variable {a b c : ℤ}

theorem of_inRange (h : inRange a = .ok c) : c = a := by
  simp only [inRange] at h
  split at h <;> simp_all

theorem inRange_ne_error {text : String} : inRange a ≠ .error (.error text) := by
  simp only [inRange]
  split <;> simp

theorem of_add (h : add a b = .ok c) : c = a + b :=
  of_inRange h

theorem of_sub (h : sub a b = .ok c) : c = a - b :=
  of_inRange h

theorem of_mul (h : mul a b = .ok c) : c = a * b :=
  of_inRange h

theorem of_quo (h : quo a b = .ok c) : b ≠ 0 ∧ c = a.tdiv b := by
  simp only [quo] at h
  split at h <;> simp_all

theorem of_mul_quo {d q : ℤ} (hm : mul a b = .ok c) (hq : quo c d = .ok q) :
    d ≠ 0 ∧ q = (a * b).tdiv d :=
  of_mul hm ▸ of_quo hq

end MathInt

-- The decimals of `cosmossdk.io/math`: `i` is the value times `10 ^ 18`.
structure LegacyDec where
  i : ℤ
  deriving DecidableEq, Repr

namespace LegacyDec

def precision : ℕ := 18

def precisionReuse : ℤ := 10 ^ precision

def maxDecBitLen : ℕ := MathInt.maxBitLen + 60

def chopPrecisionAndRound (x : ℤ) : ℤ :=
  Rounding.halfEven precisionReuse x

def assertInValidRange (x : ℤ) : Result LegacyDec :=
  if x.natAbs < 2 ^ maxDecBitLen then .ok ⟨x⟩ else .error (.panic "Int overflow")

-- `LegacyNewDec` and `LegacyNewDecFromInt`
def ofInt (x : ℤ) : LegacyDec :=
  ⟨x * precisionReuse⟩

-- `LegacyNewDecWithPrec`
def withPrec (x : ℤ) (prec : ℕ) : LegacyDec :=
  ⟨x * 10 ^ (precision - prec)⟩

def add (a b : LegacyDec) : Result LegacyDec :=
  assertInValidRange (a.i + b.i)

def sub (a b : LegacyDec) : Result LegacyDec :=
  assertInValidRange (a.i - b.i)

def mul (a b : LegacyDec) : Result LegacyDec :=
  assertInValidRange (chopPrecisionAndRound (a.i * b.i))

def quo (a b : LegacyDec) : Result LegacyDec :=
  if b.i = 0 then .error (.panic "division by zero")
  else assertInValidRange
    (chopPrecisionAndRound ((a.i * precisionReuse * precisionReuse).tdiv b.i))

def truncateInt (a : LegacyDec) : Result ℤ :=
  MathInt.inRange (a.i.tdiv precisionReuse)

variable {a b c : LegacyDec} {x : ℤ}

theorem precisionReuse_pos : 0 < precisionReuse := by
  decide

theorem assertInValidRange_ok (h : x.natAbs < 2 ^ maxDecBitLen) : assertInValidRange x = .ok ⟨x⟩ := by
  rw [assertInValidRange, if_pos h]

theorem natAbs_of_assertInValidRange (h : assertInValidRange x = .ok c) :
    x.natAbs < 2 ^ maxDecBitLen := by
  rw [assertInValidRange] at h
  split at h
  case isTrue hlt => exact hlt
  case isFalse => cases h

theorem of_assertInValidRange (h : assertInValidRange x = .ok c) : c.i = x := by
  rw [assertInValidRange_ok (natAbs_of_assertInValidRange h)] at h
  cases h
  rfl

theorem of_add (h : add a b = .ok c) : c.i = a.i + b.i :=
  of_assertInValidRange h

theorem of_sub (h : sub a b = .ok c) : c.i = a.i - b.i :=
  of_assertInValidRange h

theorem of_mul (h : mul a b = .ok c) : c.i = chopPrecisionAndRound (a.i * b.i) :=
  of_assertInValidRange h

-- A product with a factor that is an integer is exact.
theorem mul_ofInt : mul a (ofInt x) = assertInValidRange (a.i * x) := by
  rw [mul, ofInt, ← mul_assoc]
  exact congrArg assertInValidRange (Rounding.halfEven_mul precisionReuse_pos.ne')

theorem ofInt_mul : mul (ofInt x) a = assertInValidRange (x * a.i) := by
  rw [mul, ofInt, mul_right_comm]
  exact congrArg assertInValidRange (Rounding.halfEven_mul precisionReuse_pos.ne')

theorem of_mul_ofInt (h : mul a (ofInt x) = .ok c) : c.i = a.i * x :=
  of_assertInValidRange (mul_ofInt ▸ h)

theorem of_ofInt_mul (h : mul (ofInt x) a = .ok c) : c.i = x * a.i :=
  of_assertInValidRange (ofInt_mul ▸ h)

theorem of_quo (h : quo a b = .ok c) : b.i ≠ 0 ∧
    c.i = chopPrecisionAndRound ((a.i * precisionReuse * precisionReuse).tdiv b.i) := by
  simp only [quo] at h
  split at h
  · cases h
  · exact ⟨‹_›, of_assertInValidRange h⟩

theorem of_truncateInt (h : truncateInt a = .ok x) : x = a.i.tdiv precisionReuse :=
  MathInt.of_inRange h

theorem of_truncateInt_nonneg (h : truncateInt a = .ok x) (ha : 0 ≤ a.i) :
    x = a.i / precisionReuse :=
  (of_truncateInt h).trans (Int.tdiv_eq_ediv_of_nonneg ha)

-- Base 10 digits, at least one of them.
def parseDigits : List Char → Option ℕ
  | [] => none
  | cs => cs.foldlM (fun n c => if c.isDigit then some (10 * n + (c.toNat - 48)) else none) 0

-- `big.Int.SetString` in base 10
def setString : List Char → Option ℤ
  | '-' :: cs => (parseDigits cs).map fun n => -(n : ℤ)
  | '+' :: cs => (parseDigits cs).map fun n => (n : ℤ)
  | cs => (parseDigits cs).map fun n => (n : ℤ)

-- The digits before and after the decimal point.
def splitDecimal (cs : List Char) : Option (List Char × List Char) :=
  match cs.splitOn '.' with
  | [int] => some (int, [])
  | [int, dec] => if dec = [] ∨ int = [] then none else some (int, dec)
  | _ => none

-- `LegacyNewDecFromStr`
def fromStr (str : String) : Option LegacyDec := do
  let (neg, cs) := match str.toList with
    | '-' :: cs => (true, cs)
    | cs => (false, cs)
  guard (cs ≠ [])
  let (int, dec) ← splitDecimal cs
  guard (dec.length ≤ precision)
  let combined ← setString (int ++ dec ++ List.replicate (precision - dec.length) '0')
  guard (combined.natAbs < 2 ^ maxDecBitLen)
  return ⟨if neg then -combined else combined⟩

example : fromStr "0.003" = some (withPrec 3 3) := by
  decide +kernel

end LegacyDec

end Sdk
