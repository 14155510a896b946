import Mathlib.Data.List.Basic

/-!
# Texts in memory, and pointers that walk over them

A scanner counts the cells in front of a separator, up to a limit.
-/

namespace TruckControl.Scan

variable {α : Type*} {mem : ℕ → α} {p : ℕ} {a b : List α} {c : α}

/-- `n` cells of the memory. -/
def slice (mem : ℕ → α) (p n : ℕ) : List α := (List.range n).map fun k => mem (p + k)

/-- A text lies at a place of the memory. -/
def At (mem : ℕ → α) (p : ℕ) (text : List α) : Prop := slice mem p text.length = text

@[simp] theorem length_slice (mem : ℕ → α) (p n : ℕ) : (slice mem p n).length = n := by
  simp [slice]

theorem slice_add (mem : ℕ → α) (p m n : ℕ) :
    slice mem p (m + n) = slice mem p m ++ slice mem (p + m) n := by
  rw [slice, List.range_add, List.map_append, List.map_map]
  simp [slice, Function.comp_def, Nat.add_assoc]

theorem slice_congr {mem' : ℕ → α} {n : ℕ} (h : ∀ k < n, mem (p + k) = mem' (p + k)) :
    slice mem p n = slice mem' p n := by
  apply List.map_congr_left
  intro k hk
  exact h k (List.mem_range.mp hk)

theorem at_append : At mem p (a ++ b) ↔ At mem p a ∧ At mem (p + a.length) b := by
  rw [At, At, At, List.length_append, slice_add]
  constructor
  · intro h
    exact List.append_inj h (length_slice mem p a.length)
  · intro h
    rw [h.1, h.2]

theorem at_cons : At mem p (c :: b) ↔ mem p = c ∧ At mem (p + 1) b := by
  rw [← List.singleton_append, at_append]
  simp [At, slice]

/-- A part of the text lies at its place. -/
theorem At.drop (h : At mem p a) {n : ℕ} (hn : n ≤ a.length) : At mem (p + n) (a.drop n) := by
  rw [← List.take_append_drop n a, at_append, List.length_take, Nat.min_eq_left hn] at h
  exact h.2

section

variable [DecidableEq α]

/-- How many cells there are in front of the separator; `left` is how many may be counted. -/
def scan (mem : ℕ → α) (c : α) : ℕ → ℕ → ℕ
  | 0, _ => 0
  | left + 1, p => if mem p ≠ c then scan mem c left (p + 1) + 1 else 0

/-- The scanner finds the end of a field. -/
theorem scan_of_at (h : At mem p (a ++ c :: b)) (hc : c ∉ a) {left : ℕ} (hleft : a.length ≤ left) :
    scan mem c left p = a.length := by
  induction a generalizing p left with
  | nil =>
      cases left with
      | zero => rfl
      | succ left =>
          rw [List.nil_append, at_cons] at h
          rw [scan, if_neg (not_not.mpr h.1), List.length_nil]
  | cons x a ih =>
      cases left with
      | zero => exact absurd hleft (Nat.not_succ_le_zero _)
      | succ left =>
          rw [List.cons_append, at_cons] at h
          have hne : mem p ≠ c := by
            rw [h.1]
            exact fun heq => hc (heq ▸ List.mem_cons_self)
          rw [scan, if_pos hne, ih h.2 (fun hmem => hc (List.mem_cons_of_mem x hmem))
            (Nat.succ_le_succ_iff.mp hleft), List.length_cons]

end

end TruckControl.Scan
