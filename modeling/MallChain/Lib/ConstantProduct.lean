import Mathlib

-- A pool of two assets that is owned in shares.
structure ConstantProduct (α : Type*) where
  reserveA : α
  reserveB : α
  shares   : α

namespace ConstantProduct

variable {α : Type*} [CommRing α] [LinearOrder α] [IsStrictOrderedRing α] {P P' : ConstantProduct α}

def product (P : ConstantProduct α) : α :=
  P.reserveA * P.reserveB

-- A share of the second pool is worth at least a share of the first one: the product of the reserves
-- over the square of the shares does not fall. The divisions are multiplied out.
def KeepsValue (P P' : ConstantProduct α) : Prop :=
  P.product * P'.shares ^ 2 ≤ P'.product * P.shares ^ 2

omit [IsStrictOrderedRing α] in
theorem KeepsValue.refl (P : ConstantProduct α) : P.KeepsValue P :=
  le_refl _

-- Neither reserve falls behind the shares.
theorem KeepsValue.of_sides (hA : P.reserveA * P'.shares ≤ P'.reserveA * P.shares)
    (hB : P.reserveB * P'.shares ≤ P'.reserveB * P.shares) (h₀ : 0 ≤ P.reserveB * P'.shares)
    (h₁ : 0 ≤ P'.reserveA * P.shares) : P.KeepsValue P' := by
  have h := mul_le_mul hA hB h₀ h₁
  simp only [KeepsValue, product]
  linarith

-- A trade does not touch the shares, so only the product counts.
theorem KeepsValue.of_product (hs : P'.shares = P.shares) (h : P.product ≤ P'.product) :
    P.KeepsValue P' := by
  rw [KeepsValue, hs]
  exact mul_le_mul_of_nonneg_right h (sq_nonneg _)

-- A deposit of `a` on a side mints at most its part of the shares.
theorem side_of_deposit {r a t m : α} (h : r * m ≤ a * t) : r * (t + m) ≤ (r + a) * t := by
  linarith

-- A withdrawal of `l` shares pays at most their part of a side.
theorem side_of_withdrawal {r o t l : α} (h : t * o ≤ l * r) : r * (t - l) ≤ (r - o) * t := by
  linarith

-- What a trade pays may not exceed its part of the grown side.
theorem product_of_trade {r r' a o : α} (h : o * (r + a) ≤ a * r') :
    r * r' ≤ (r + a) * (r' - o) := by
  linarith

end ConstantProduct
