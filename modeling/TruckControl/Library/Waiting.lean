import Mathlib.Logic.Function.Iterate

/-!
# Waiting

A state that counts takes as many steps for `n` counts as `n` times those for one.
-/

namespace TruckControl.Waiting

variable {σ : Type*} {f : σ → σ}

theorem iterate_mul {p n : ℕ} (count : ℕ → σ) (h : ∀ k < n, f^[p] (count k) = count (k + 1)) :
    f^[p * n] (count 0) = count n := by
  induction n with
  | zero => rfl
  | succ n ih =>
      rw [Nat.mul_succ, Nat.add_comm, Function.iterate_add_apply,
        ih fun k hk => h k (Nat.lt_succ_of_lt hk), h n (Nat.lt_succ_self n)]

end TruckControl.Waiting
