import Mathlib.Data.List.Basic

/-!
# A signal that is toggled

A value that is seen switches the signal on if it is off. A signal that is on is switched off
by the next value, whatever that is. The signal should tell which values are high.
-/

namespace TruckControl.Toggle

variable {α : Type*} (seen high : α → Prop) [DecidablePred seen] [DecidablePred high]

/-- The signal after a value. -/
def toggle (on : Bool) (x : α) : Bool := !on && decide (seen x)

/-- After each value the signal tells whether that value is high. -/
def Follows : Bool → List α → Prop
  | _, [] => True
  | on, x :: xs => toggle seen on x = decide (high x) ∧ Follows (toggle seen on x) xs

/-- A signal that was this makes the right thing of the value. -/
def Agrees (on : Bool) (x : α) : Prop := if on then ¬ high x else (seen x ↔ high x)

variable {seen high}

theorem toggle_eq_iff (on : Bool) (x : α) :
    toggle seen on x = decide (high x) ↔ Agrees seen high on x := by
  cases on <;> simp [toggle, Agrees]

/-- Only neighbours matter. -/
theorem follows_iff_isChain (on : Bool) (xs : List α) :
    Follows seen high on xs ↔
      (∀ x ∈ xs.head?, Agrees seen high on x) ∧
        xs.IsChain fun x y => Agrees seen high (high x) y := by
  induction xs generalizing on with
  | nil => simp [Follows]
  | cons x xs ih =>
      rw [Follows, ih, toggle_eq_iff]
      simp only [List.head?_cons, Option.mem_some_iff, forall_eq']
      refine and_congr_right fun hx => ?_
      rw [(toggle_eq_iff on x).mpr hx]
      cases xs with
      | nil => simp
      | cons y ys => simp only [List.isChain_cons_cons, List.head?_cons, Option.mem_some_iff,
          forall_eq']

theorem follows_iff_forall (on : Bool) (xs : List α) :
    Follows seen high on xs ↔ ∀ front x back, xs = front ++ x :: back →
      (front ++ [x]).foldl (toggle seen) on = decide (high x) := by
  induction xs generalizing on with
  | nil => simp [Follows]
  | cons x xs ih =>
      rw [Follows, ih]
      constructor
      · intro h front y back heq
        cases front with
        | nil =>
            obtain ⟨rfl, rfl⟩ := List.cons.inj heq
            exact h.1
        | cons z front =>
            obtain ⟨rfl, hxs⟩ := List.cons.inj heq
            exact h.2 front y back hxs
      · intro h
        refine ⟨h [] x xs rfl, fun front y back hxs => ?_⟩
        exact h (x :: front) y back (by rw [hxs]; rfl)

/-- A signal that follows is on after the last value if that is high. -/
theorem Follows.foldl_concat {on : Bool} {front back : List α} {x : α}
    (h : Follows seen high on (front ++ x :: back)) :
    (front ++ [x]).foldl (toggle seen) on = decide (high x) :=
  (follows_iff_forall on _).mp h front x back rfl

end TruckControl.Toggle
