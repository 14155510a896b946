import Mathlib.Data.List.Basic

/-!
# Switching with hysteresis

A switch goes off at a value above a band, on at one below it, and stays as it is between
them. Here the values come in a list.
-/

namespace TruckControl.Hysteresis

variable {α : Type*} (above below : α → Prop)

/-- One of the values is above the band, and none after it is below. -/
def Cut (xs : List α) : Prop :=
  ∃ before x after, xs = before ++ x :: after ∧ above x ∧ ∀ y ∈ after, ¬ below y

theorem not_cut_nil : ¬ Cut above below [] := by
  rintro ⟨before, x, after, heq, -⟩
  cases before <;> cases heq

theorem cut_cons (x : α) (xs : List α) :
    Cut above below (x :: xs) ↔ (above x ∧ ∀ y ∈ xs, ¬ below y) ∨ Cut above below xs := by
  constructor
  · rintro ⟨before, y, after, heq, habove, hbelow⟩
    cases before with
    | nil =>
        obtain ⟨rfl, rfl⟩ := List.cons.inj heq
        exact .inl ⟨habove, hbelow⟩
    | cons z before =>
        obtain ⟨rfl, rfl⟩ := List.cons.inj heq
        exact .inr ⟨before, y, after, rfl, habove, hbelow⟩
  · rintro (⟨habove, hbelow⟩ | ⟨before, y, after, rfl, habove, hbelow⟩)
    · exact ⟨[], x, xs, rfl, habove, hbelow⟩
    · exact ⟨x :: before, y, after, rfl, habove, hbelow⟩

variable [DecidablePred above] [DecidablePred below]

/-- The switch after a value. -/
def latch (on : Bool) (x : α) : Bool :=
  if above x then false else if below x then true else on

theorem latch_eq_false_iff (on : Bool) (x : α) :
    latch above below on x = false ↔ above x ∨ on = false ∧ ¬ below x := by
  rw [latch]
  split_ifs <;> simp [*]

theorem foldl_latch_eq_false_iff (on : Bool) (xs : List α) :
    xs.foldl (latch above below) on = false ↔
      Cut above below xs ∨ on = false ∧ ∀ x ∈ xs, ¬ below x := by
  induction xs generalizing on with
  | nil => simp [not_cut_nil]
  | cons x xs ih =>
      rw [List.foldl_cons, ih, latch_eq_false_iff, cut_cons, List.forall_mem_cons]
      tauto

/-- Whether the values tell how the switch is: it was on, or one of them is outside the
band. -/
theorem foldl_latch_iff_cut (on : Bool) (xs : List α) :
    (xs.foldl (latch above below) on = false ↔ Cut above below xs) ↔
      on = true ∨ ∃ x ∈ xs, above x ∨ below x := by
  rw [foldl_latch_eq_false_iff]
  cases on with
  | true => simp
  | false =>
      constructor
      · intro h
        by_contra hnone
        push Not at hnone
        obtain ⟨before, x, after, rfl, habove, -⟩ :=
          h.mp (.inr ⟨rfl, fun x hx => (hnone.2 x hx).2⟩)
        exact (hnone.2 x (by simp)).1 habove
      · rintro (hon | ⟨x, hx, hout⟩)
        · cases hon
        · refine ⟨?_, .inl⟩
          rintro (hcut | ⟨-, hbelow⟩)
          · exact hcut
          · have habove := hout.resolve_right (hbelow x hx)
            obtain ⟨before, after, rfl⟩ := List.append_of_mem hx
            exact ⟨before, x, after, rfl, habove, fun y hy => hbelow y (by simp [hy])⟩

end TruckControl.Hysteresis
