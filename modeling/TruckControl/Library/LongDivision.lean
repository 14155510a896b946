import Mathlib.Data.Nat.Notation
import Mathlib.Tactic.SplitIfs

/-!
# Long division, bit by bit

The remainder is kept below twice the divisor: it is compared one step after its last bit was
shifted in.
-/

namespace TruckControl.LongDivision

/-- The bits that were shifted in make `a`; the quotient is one bit behind. -/
structure Partial (d a q r : ℕ) : Prop where
  eq : a = 2 * (d * q) + r
  lt : r < 2 * d

/-- The next bit of the quotient. -/
def bit (d r : ℕ) : ℕ := if d ≤ r then 1 else 0

variable {d a q r : ℕ}

theorem start (hd : 0 < d) : Partial d 0 0 0 := ⟨rfl, by omega⟩

theorem bit_le (d r : ℕ) : bit d r ≤ 1 := by
  rw [bit]
  split_ifs <;> omega

theorem Partial.sub_lt (h : Partial d a q r) : r - d * bit d r < d := by
  have hlt := h.lt
  rw [bit]
  split_ifs <;> omega

/-- The bit of the quotient taken off. -/
theorem Partial.eq_add_sub (h : Partial d a q r) :
    a = d * (2 * q + bit d r) + (r - d * bit d r) := by
  have hle : d * bit d r ≤ r := by
    rw [bit]
    split_ifs <;> omega
  have hdist : d * (2 * q + bit d r) = 2 * (d * q) + d * bit d r := by
    rw [Nat.mul_add, Nat.mul_left_comm]
  rw [hdist, h.eq]
  omega

theorem Partial.step (h : Partial d a q r) {b : ℕ} (hb : b ≤ 1) :
    Partial d (2 * a + b) (2 * q + bit d r) (2 * (r - d * bit d r) + b) := by
  have hsub := h.sub_lt
  have heq := h.eq_add_sub
  exact ⟨by omega, by omega⟩

/-- The quotient of all bits. -/
theorem Partial.div_eq (h : Partial d a q r) (hd : 0 < d) : a / d = 2 * q + bit d r := by
  have hsub := h.sub_lt
  rw [h.eq_add_sub, Nat.add_comm, Nat.add_mul_div_left _ _ hd, Nat.div_eq_of_lt hsub,
    Nat.zero_add]

end TruckControl.LongDivision
