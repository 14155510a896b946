import Mathlib.Data.List.Basic

/-!
# Items written as pairs

A record of two cells for each item, one after the other: the even cells hold one value
of an item, the odd cells the other.
-/

namespace TruckControl.Pairs

variable {α β : Type*}

/-- Two cells for each item. -/
def flat (f g : α → β) (l : List α) : List β := l.flatMap fun a => [f a, g a]

variable {f g : α → β}

@[simp] theorem flat_nil : flat f g [] = [] := rfl

@[simp] theorem flat_cons (a : α) (l : List α) : flat f g (a :: l) = f a :: g a :: flat f g l := rfl

theorem length_flat (l : List α) : (flat f g l).length = 2 * l.length := by
  induction l with
  | nil => rfl
  | cons a l ih =>
      rw [flat_cons, List.length_cons, List.length_cons, List.length_cons, ih]
      omega

theorem getElem?_even (l : List α) (i : ℕ) : (flat f g l)[2 * i]? = l[i]?.map f := by
  induction l generalizing i with
  | nil => simp
  | cons a l ih =>
      cases i with
      | zero => rfl
      | succ i => simpa [Nat.mul_succ] using ih i

theorem getElem?_odd (l : List α) (i : ℕ) : (flat f g l)[2 * i + 1]? = l[i]?.map g := by
  induction l generalizing i with
  | nil => simp
  | cons a l ih =>
      cases i with
      | zero => rfl
      | succ i => simpa [Nat.mul_succ] using ih i

/-! ## Reading -/

/-- The even cells. -/
def evens : List α → List α
  | [] => []
  | [a] => [a]
  | a :: _ :: l => a :: evens l

theorem getElem?_evens (l : List α) (i : ℕ) : (evens l)[i]? = l[2 * i]? := by
  induction l using evens.induct generalizing i with
  | case1 => simp [evens]
  | case2 a =>
      cases i with
      | zero => rfl
      | succ i => simp [evens, Nat.mul_succ]
  | case3 a b l ih =>
      cases i with
      | zero => rfl
      | succ i => simpa [evens, Nat.mul_succ] using ih i

theorem length_evens (l : List α) : (evens l).length = (l.length + 1) / 2 := by
  induction l using evens.induct with
  | case1 => simp [evens]
  | case2 a => simp [evens]
  | case3 a b l ih =>
      rw [evens, List.length_cons, ih, List.length_cons, List.length_cons]
      omega

theorem evens_flat_append (l : List α) (rest : List β) :
    evens (flat f g l ++ rest) = l.map f ++ evens rest := by
  induction l with
  | nil => rfl
  | cons a l ih => rw [flat_cons, List.cons_append, List.cons_append, evens, ih]; rfl

end TruckControl.Pairs
