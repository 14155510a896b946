import Mathlib.Data.Nat.Notation
import Mathlib.Tactic.ByContra
import Mathlib.Tactic.SplitIfs

/-!
# Times between marks

Some of the times are marked: how long ago the last of them was, and which it was.
-/

namespace TruckControl.Gaps

variable (mark : ℕ → Bool)

/-- How many times have passed since the last mark, or since the beginning. -/
def since : ℕ → ℕ
  | 0 => 0
  | n + 1 => if mark n then 0 else since n + 1

/-- The last mark before a time. -/
def lastBelow : ℕ → Option ℕ
  | 0 => none
  | n + 1 => if mark n then some n else lastBelow n

variable {mark}

theorem since_le (n : ℕ) : since mark n ≤ n := by
  induction n with
  | zero => exact Nat.le_refl 0
  | succ n ih =>
      rw [since]
      split_ifs <;> omega

/-- None of the last `j` times is marked. -/
theorem le_since_iff (j n : ℕ) :
    j ≤ since mark n ↔ j ≤ n ∧ ∀ k, n - j ≤ k → k < n → mark k = false := by
  induction n generalizing j with
  | zero =>
      rw [since]
      constructor
      · intro h
        exact ⟨h, fun k _ hk => absurd hk (Nat.not_lt_zero k)⟩
      · intro h
        exact h.1
  | succ n ih =>
      cases j with
      | zero =>
          constructor
          · intro _
            exact ⟨Nat.zero_le _, fun k hlow hk => by omega⟩
          · intro _
            exact Nat.zero_le _
      | succ j =>
          rw [since]
          cases hmark : mark n with
          | true =>
              constructor
              · intro h
                simp at h
              · intro h
                have hfalse := h.2 n (by omega) (Nat.lt_succ_self n)
                rw [hmark] at hfalse
                cases hfalse
          | false =>
              simp only [Bool.false_eq_true, if_false, Nat.add_le_add_iff_right, ih]
              constructor
              · intro h
                refine ⟨h.1, fun k hlow hk => ?_⟩
                rcases Nat.lt_succ_iff_lt_or_eq.mp hk with hk | rfl
                · exact h.2 k (by omega) hk
                · exact hmark
              · intro h
                exact ⟨h.1, fun k hlow hk => h.2 k (by omega) (by omega)⟩

/-- Every gap is at most `b` long exactly if no window one longer is without a mark. -/
theorem forall_since_lt_iff (b n : ℕ) :
    (∀ m < n, mark m = false → since mark m < b) ↔
      ∀ m, m + (b + 1) ≤ n → ∃ k, m ≤ k ∧ k < m + (b + 1) ∧ mark k = true := by
  constructor
  · intro h m hm
    by_contra hnone
    simp only [not_exists, not_and, Bool.not_eq_true] at hnone
    have hlong : b ≤ since mark (m + b) :=
      (le_since_iff b (m + b)).mpr ⟨by omega, fun k hlow hk => hnone k (by omega) (by omega)⟩
    have hshort := h (m + b) (by omega) (hnone (m + b) (by omega) (by omega))
    omega
  · intro h m hm hmark
    by_contra hlong
    have hge : b ≤ since mark m := by omega
    obtain ⟨hle, hnone⟩ := (le_since_iff b m).mp hge
    obtain ⟨k, hlow, hk, htrue⟩ := h (m - b) (by omega)
    have hfalse : mark k = false := by
      rcases Nat.lt_or_ge k m with hlt | hge
      · exact hnone k hlow hlt
      · rw [show k = m by omega, hmark]
    rw [hfalse] at htrue
    cases htrue

theorem lastBelow_eq_some_iff (n k : ℕ) :
    lastBelow mark n = some k ↔
      k < n ∧ mark k = true ∧ ∀ j, k < j → j < n → mark j = false := by
  induction n with
  | zero => simp [lastBelow]
  | succ n ih =>
      rw [lastBelow]
      cases hmark : mark n with
      | true =>
          simp only [if_true, Option.some.injEq]
          constructor
          · rintro rfl
            exact ⟨Nat.lt_succ_self n, hmark, fun j hlow hj => by omega⟩
          · intro h
            by_contra hne
            have hfalse := h.2.2 n (by omega) (Nat.lt_succ_self n)
            rw [hmark] at hfalse
            cases hfalse
      | false =>
          simp only [Bool.false_eq_true, if_false, ih]
          constructor
          · intro h
            refine ⟨by omega, h.2.1, fun j hlow hj => ?_⟩
            rcases Nat.lt_succ_iff_lt_or_eq.mp hj with hj | rfl
            · exact h.2.2 j hlow hj
            · exact hmark
          · intro h
            have hne : k ≠ n := fun heq => by
              rw [heq, hmark] at h
              cases h.2.1
            exact ⟨by omega, h.2.1, fun j hlow hj => h.2.2 j hlow (by omega)⟩

/-- A mark is not forgotten. -/
theorem exists_lastBelow {n k : ℕ} (hk : k < n) (hmark : mark k = true) :
    ∃ j, lastBelow mark n = some j ∧ k ≤ j := by
  induction n with
  | zero => cases hk
  | succ n ih =>
      rw [lastBelow]
      split_ifs with hn
      · exact ⟨n, rfl, by omega⟩
      · rcases Nat.lt_succ_iff_lt_or_eq.mp hk with hk | rfl
        · exact ih hk
        · exact absurd hmark hn

end TruckControl.Gaps
