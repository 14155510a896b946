import Mathlib.Data.List.Basic

/-!
# A buffer and its history

Items are added at the end of a buffer. It has worked as a queue when what was taken,
followed by what it still holds, is what was added.
-/

namespace TruckControl

/-- Everything added to a buffer, everything taken from it, and what it holds. -/
structure BufferLog (α : Type*) where
  added : List α
  taken : List α
  held : List α

namespace BufferLog

variable {α : Type*} {added taken held : List α} {x : α}

def InOrder (b : BufferLog α) : Prop := b.taken ++ b.held = b.added

theorem InOrder.add (h : InOrder ⟨added, taken, held⟩) (x : α) :
    InOrder ⟨added ++ [x], taken, held ++ [x]⟩ := by
  simp only [InOrder] at h ⊢
  rw [← List.append_assoc, h]

/-- Moving an item past a list changes nothing only when the list repeats the item. -/
theorem cons_eq_concat_iff (x : α) (l : List α) : x :: l = l ++ [x] ↔ ∀ y ∈ l, y = x := by
  induction l with
  | nil => simp
  | cons y l ih =>
      rw [List.cons_append, List.cons.injEq, List.forall_mem_cons]
      constructor
      · intro h
        obtain ⟨rfl, htail⟩ := h
        exact ⟨rfl, ih.mp htail⟩
      · intro h
        obtain ⟨rfl, htail⟩ := h
        exact ⟨rfl, ih.mpr htail⟩

/-- A buffer that gives its newest item keeps the order only when all its items are alike. -/
theorem InOrder.takeLast_iff (h : InOrder ⟨added, taken, held ++ [x]⟩) :
    InOrder ⟨added, taken ++ [x], held⟩ ↔ ∀ y ∈ held, y = x := by
  simp only [InOrder] at h ⊢
  rw [← h, List.append_assoc, List.append_cancel_left_eq, List.singleton_append]
  exact cons_eq_concat_iff x held

end BufferLog

end TruckControl
