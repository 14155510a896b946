import Mathlib.Data.List.Basic

/-!
# A register and its writers

Some items of a list assign a value to a register, the others leave it alone. The list is
run from its front, as a queue is, or from its end, as a stack is.
-/

namespace TruckControl.Register

variable {α β : Type*} (write : β → Option α)

/-- The register after the items were run from the front of the list on. -/
def run (r : α) (items : List β) : α := items.foldl (fun r b => (write b).getD r) r

/-- The register after the items were run from the end of the list on. -/
def runBack (r : α) (items : List β) : α := items.foldr (fun b r => (write b).getD r) r

@[simp] theorem run_nil (r : α) : run write r [] = r := rfl

@[simp] theorem run_cons (r : α) (b : β) (items : List β) :
    run write r (b :: items) = run write ((write b).getD r) items := rfl

@[simp] theorem runBack_nil (r : α) : runBack write r [] = r := rfl

@[simp] theorem runBack_cons (r : α) (b : β) (items : List β) :
    runBack write r (b :: items) = (write b).getD (runBack write r items) := rfl

theorem run_append (r : α) (items later : List β) :
    run write r (items ++ later) = run write (run write r items) later :=
  List.foldl_append

theorem runBack_append (r : α) (items later : List β) :
    runBack write r (items ++ later) = runBack write (runBack write r later) items :=
  List.foldr_append

variable {write}

theorem run_of_none {items : List β} (h : ∀ b ∈ items, write b = none) (r : α) :
    run write r items = r := by
  induction items with
  | nil => rfl
  | cons b items ih =>
      obtain ⟨hb, hrest⟩ := List.forall_mem_cons.mp h
      rw [run_cons, hb, Option.getD_none, ih hrest]

theorem runBack_of_none {items : List β} (h : ∀ b ∈ items, write b = none) (r : α) :
    runBack write r items = r := by
  induction items with
  | nil => rfl
  | cons b items ih =>
      obtain ⟨hb, hrest⟩ := List.forall_mem_cons.mp h
      rw [runBack_cons, hb, Option.getD_none, ih hrest]

/-- Run from the end, the first writer of the list has the last word. -/
theorem runBack_eq_head? (items : List β) (r : α) :
    runBack write r items = (items.filterMap write).head?.getD r := by
  induction items with
  | nil => rfl
  | cons b items ih =>
      cases hb : write b with
      | none => rw [runBack_cons, hb, List.filterMap_cons_none hb, Option.getD_none, ih]
      | some v =>
          rw [runBack_cons, hb, List.filterMap_cons_some hb]
          rfl

end TruckControl.Register
