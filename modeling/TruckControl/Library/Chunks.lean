import Mathlib.Data.List.Basic

/-!
# Records of a fixed size

A file of records that all have the same size is cut into them by counting.
-/

namespace TruckControl

variable {α : Type*} {c : ℕ} {xs : List α}

/-- Record `i` among records of `c` elements each. -/
def chunk (c : ℕ) (xs : List α) (i : ℕ) : List α := (xs.drop (c * i)).take c

/-- A record is whole exactly if the file reaches its end. -/
theorem length_chunk_iff (hc : 0 < c) {i : ℕ} :
    (chunk c xs i).length = c ↔ c * (i + 1) ≤ xs.length := by
  rw [chunk, List.length_take, List.length_drop, Nat.mul_succ]
  omega

theorem chunk_append {i : ℕ} (h : c * (i + 1) ≤ xs.length) (ys : List α) :
    chunk c (xs ++ ys) i = chunk c xs i := by
  rw [Nat.mul_succ] at h
  rw [chunk, chunk, List.drop_append_of_le_length (by omega),
    List.take_append_of_le_length (by rw [List.length_drop]; omega)]

/-- A loop that takes one record off the rest of the file in each turn. -/
theorem rest_foldl_range {σ : Type*} {next : σ → ℕ → σ} (rest : σ → List α)
    (hnext : ∀ s i, rest (next s i) = (rest s).drop c) (s : σ) (n : ℕ) :
    rest ((List.range n).foldl next s) = (rest s).drop (c * n) := by
  induction n with
  | zero => rfl
  | succ n ih =>
      rw [List.range_succ, List.foldl_append, List.foldl_cons, List.foldl_nil, hnext, ih,
        List.drop_drop, Nat.mul_succ]

theorem length_flatMap_range (f : ℕ → List α) (n : ℕ) (hf : ∀ i < n, (f i).length = c) :
    ((List.range n).flatMap f).length = c * n := by
  induction n with
  | zero => rfl
  | succ n ih =>
      rw [List.range_succ, List.flatMap_append, List.length_append,
        ih fun i hi => hf i (Nat.lt_succ_of_lt hi), List.flatMap_singleton,
        hf n (Nat.lt_succ_self n), Nat.mul_succ]

/-- Records that were written one after the other are found again. -/
theorem chunk_flatMap (f : ℕ → List α) {n i : ℕ} (hf : ∀ i < n, (f i).length = c) (hi : i < n) :
    chunk c ((List.range n).flatMap f) i = f i := by
  induction n with
  | zero => exact absurd hi (Nat.not_lt_zero i)
  | succ n ih =>
      have hlength := length_flatMap_range f n fun i hi => hf i (Nat.lt_succ_of_lt hi)
      rw [List.range_succ, List.flatMap_append, List.flatMap_singleton]
      rcases Nat.lt_succ_iff_lt_or_eq.mp hi with hlt | rfl
      · have hin : c * (i + 1) ≤ ((List.range n).flatMap f).length := by
          rw [hlength]
          exact Nat.mul_le_mul_left c hlt
        rw [chunk_append hin, ih (fun i hi => hf i (Nat.lt_succ_of_lt hi)) hlt]
      · rw [chunk, ← hlength, List.drop_left, List.take_of_length_le (Nat.le_of_eq (hf i hi))]

end TruckControl
