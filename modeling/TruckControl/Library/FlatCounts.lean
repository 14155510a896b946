import Mathlib.Data.List.Basic

/-!
# Counts over the parts of a list

Two lists put together from parts, where no part of the first counts more than the part of
the second in its place.
-/

namespace TruckControl.FlatCounts

variable {α β : Type*} {p : β → Bool} {f g : α → List β}

theorem countP_flatMap_le {l : List α} (hle : ∀ a ∈ l, (f a).countP p ≤ (g a).countP p) :
    (l.flatMap f).countP p ≤ (l.flatMap g).countP p := by
  induction l with
  | nil => exact Nat.le_refl 0
  | cons a l ih =>
      obtain ⟨ha, hl⟩ := List.forall_mem_cons.mp hle
      rw [List.flatMap_cons, List.flatMap_cons, List.countP_append, List.countP_append]
      exact Nat.add_le_add ha (ih hl)

/-- If the lists count the same then all their parts do. -/
theorem countP_eq_of_flatMap {l : List α} (hle : ∀ a ∈ l, (f a).countP p ≤ (g a).countP p)
    (heq : (l.flatMap f).countP p = (l.flatMap g).countP p) :
    ∀ a ∈ l, (f a).countP p = (g a).countP p := by
  induction l with
  | nil => simp
  | cons a l ih =>
      obtain ⟨ha, hl⟩ := List.forall_mem_cons.mp hle
      have hrest := countP_flatMap_le hl
      rw [List.flatMap_cons, List.flatMap_cons, List.countP_append, List.countP_append] at heq
      exact List.forall_mem_cons.mpr ⟨by omega, ih hl (by omega)⟩

end TruckControl.FlatCounts
