import Mathlib.Algebra.BigOperators.Group.Finset.Basic
import Mathlib.Algebra.BigOperators.Group.Finset.Piecewise
import Mathlib.Algebra.Order.BigOperators.Group.Finset
import TruckControl.Library.Monitor
import TruckControl.Library.Ranking

/-!
# Threads of a monitor that come to an end

When no new requests are made, and no thread wakes up by itself, every run is finite. If the
wake-ups are enough, it ends with all threads outside.
-/

namespace TruckControl.Monitor

/-! ## Sums over threads -/

section

variable {ι α : Type*} [Fintype ι]

/-- A sum of ones and zeros that is the number of its terms has no zeros. -/
theorem eq_one_of_sum {f : ι → ℕ} (hle : ∀ v, f v ≤ 1) (hsum : ∑ v, f v = Fintype.card ι)
    (t : ι) : f t = 1 := by
  by_contra hne
  have hzero : f t < 1 := Nat.lt_of_le_of_ne (hle t) hne
  have hlt := Finset.sum_lt_sum (fun v (_ : v ∈ Finset.univ) => hle v) ⟨t, Finset.mem_univ t, hzero⟩
  rw [hsum, Finset.sum_const, Finset.card_univ, Nat.nsmul_eq_mul, Nat.mul_one] at hlt
  exact Nat.lt_irrefl _ hlt

variable [DecidableEq ι]

theorem sum_change {f g : ι → ℕ} (t : ι) (h : ∀ v, v ≠ t → g v = f v) :
    (∑ u, g u) + f t = (∑ u, f u) + g t := by
  have hg : g = Function.update f t (g t) := by
    funext v
    by_cases hv : v = t
    · rw [hv, Function.update_self]
    · rw [Function.update_of_ne hv, h v hv]
  rw [hg, Finset.sum_update_of_mem (Finset.mem_univ t), Function.update_self,
    Finset.sum_eq_add_sum_sdiff_singleton_of_mem (Finset.mem_univ t) f]
  omega

theorem sum_update (w : α → ℕ) (f : ι → α) (t : ι) (x : α) :
    (∑ u, w (Function.update f t x u)) + w (f t) = (∑ u, w (f u)) + w x := by
  have hchange := sum_change (f := fun u => w (f u)) (g := fun u => w (Function.update f t x u)) t
    fun v hv => by rw [Function.update_of_ne hv]
  simpa only [Function.update_self] using hchange

/-- One term falls by more than all the others together can rise. -/
theorem sum_lt_of_fall {f g : ι → ℕ} (t : ι) (k : ℕ) (hothers : ∀ v, v ≠ t → g v ≤ f v + k)
    (hfall : g t + k * Fintype.card ι < f t + k) : ∑ v, g v < ∑ v, f v := by
  have hrest : ∑ v ∈ Finset.univ.erase t, g v ≤
      (∑ v ∈ Finset.univ.erase t, f v) + k * (Fintype.card ι - 1) := by
    have hle : ∑ v ∈ Finset.univ.erase t, g v ≤ ∑ v ∈ Finset.univ.erase t, (f v + k) :=
      Finset.sum_le_sum fun v hv => hothers v (Finset.ne_of_mem_erase hv)
    rw [Finset.sum_add_distrib, Finset.sum_const, Finset.card_erase_of_mem (Finset.mem_univ t),
      Finset.card_univ, Nat.nsmul_eq_mul,
      Nat.mul_comm] at hle
    exact hle
  have hcard : 0 < Fintype.card ι := Fintype.card_pos_iff.mpr ⟨t⟩
  have hmul : k * (Fintype.card ι - 1) + k = k * Fintype.card ι := by
    rw [← Nat.mul_succ, Nat.succ_eq_add_one, Nat.sub_add_cancel hcard]
  rw [← Finset.add_sum_erase Finset.univ g (Finset.mem_univ t),
    ← Finset.add_sum_erase Finset.univ f (Finset.mem_univ t)]
  omega

end

/-! ## The calls that are left -/

section

variable {ι S C R P D W : Type*}

/-- How many calls a thread still makes, outside and from within a call. -/
structure Drain (M : Monitor ι S C R P D W) where
  idle : P → ℕ
  left : P → C → ℕ
  done_le : ∀ p c s v w r, M.test c s = .done v w r → idle (M.next p c r) ≤ left p c
  wait_le : ∀ p c s v c', M.test c s = .wait v c' → left p c' ≤ left p c

/-- The thread makes no call any more. -/
def Drain.Settled {M : Monitor ι S C R P D W} (d : Drain M) (s : State ι S C P D) (t : ι) : Prop :=
  s.place t = .outside ∧ d.idle (s.task t) = 0

end

section

variable {ι S C R P D W : Type*} [DecidableEq ι] {M : Monitor ι S C R P D W}
  {s s' : State ι S C P D} {e : Turn ι C W}

/-- The events of a run without new requests: every step in a procedure, and the calls and the
work after which less is left. -/
inductive Drain.Takes (d : Drain M) (s : State ι S C P D) : Turn ι C W → Prop where
  | call (t : ι) (c : C) (s' : State ι S C P D) (hmove : Move M s (.call t c) s')
      (hless : d.left (s.task t) c < d.idle (s.task t)) : Takes d s (.call t c)
  | run (t u : ι) (s' : State ι S C P D) (hmove : Move M s (.run t u) s') : Takes d s (.run t u)
  | work (t : ι) (w : W) (p : P) (x : D) (hplace : s.place t = .outside)
      (hwork : M.work t w (s.task t) s.data = some (p, x))
      (hless : d.idle p < d.idle (s.task t)) : Takes d s (.work t w)

/-- A thread that is not asleep goes on, unless another one has the mutex; and then that one
does. -/
theorem Drain.exists_takes_of_place (d : Drain M) (hlocked : Locked s) {t : ι}
    (houtside : s.place t ≠ .outside) (hasleep : (s.place t).isAsleep = false) :
    ∃ e, d.Takes s e := by
  have hinside (u : ι) (hu : (s.place u).inside = true) : ∃ e, d.Takes s e := by
    cases hplace : s.place u with
    | testing c =>
        cases htest : M.test c s.shared with
        | wait v c' => exact ⟨_, .run u u _ (.wait u u c c' v hplace htest)⟩
        | done v w r => exact ⟨_, .run u u _ (.done u u c v w r hplace htest)⟩
    | waking w => exact ⟨_, .run u u _ (.wake u u w hplace)⟩
    | unlocking => exact ⟨_, .run u u _ (.unlock u u hplace)⟩
    | outside | locking c | asleep c => rw [hplace] at hu; cases hu
  cases hplace : s.place t with
  | outside => exact absurd hplace houtside
  | asleep c => rw [hplace] at hasleep; cases hasleep
  | locking c =>
      cases howner : s.owner with
      | none => exact ⟨_, .run t t _ (.lock t t c hplace howner)⟩
      | some u => exact hinside u ((hlocked u).mp howner)
  | testing c | waking w | unlocking => exact hinside t (by rw [hplace]; rfl)

/-- If the threads that sleep are never the only ones, some thread goes on until all have
settled. -/
theorem Drain.exists_takes (d : Drain M) (hlocked : Locked s)
    (hoffer : ∀ t, s.place t = .outside → 0 < d.idle (s.task t) → ∃ e, d.Takes s e)
    (hwake : (∀ t, d.Settled s t ∨ (s.place t).isAsleep = true) → ∀ t, d.Settled s t)
    (hnot : ¬ ∀ t, d.Settled s t) : ∃ e, d.Takes s e := by
  by_contra hnone
  apply hnot
  apply hwake
  intro t
  by_cases houtside : s.place t = .outside
  · refine .inl ⟨houtside, ?_⟩
    by_contra hidle
    exact hnone (hoffer t houtside (Nat.pos_of_ne_zero hidle))
  · refine .inr ?_
    by_contra hasleep
    exact hnone (d.exists_takes_of_place hlocked houtside (Bool.not_eq_true _ ▸ hasleep))

/-! ## Every run is finite -/

variable [Fintype ι]

/-- The steps until the thread is outside again, with those that its wake-up costs the others,
and those of the calls to come. -/
def Drain.weight (d : Drain M) (place : Place C) (p : P) : ℕ :=
  let turn := 2 * Fintype.card ι + 6
  match place with
  | .outside => turn * d.idle p
  | .unlocking => turn * d.idle p + 1
  | .waking _ => turn * d.idle p + (2 * Fintype.card ι + 2)
  | .asleep c => turn * d.left p c + (2 * Fintype.card ι + 3)
  | .testing c => turn * d.left p c + (2 * Fintype.card ι + 4)
  | .locking c => turn * d.left p c + (2 * Fintype.card ι + 5)

def Drain.rank (d : Drain M) (s : State ι S C P D) : ℕ :=
  ∑ t, d.weight (s.place t) (s.task t)

theorem Drain.weight_wakeUp_le (d : Drain M) (w : Wake) (u v : ι) (place : ι → Place C) (p : P) :
    d.weight (wakeUp w u place v) p ≤ d.weight (place v) p + 2 := by
  rcases wakeUp_eq w u place v with h | h
  · rw [h]
    exact Nat.le_add_right _ 2
  · rw [h]
    cases place v with
    | asleep c =>
        simp only [Place.awake, weight]
        omega
    | _ => exact Nat.le_add_right _ 2

/-- A move of one thread alone. -/
theorem Drain.rank_lt_of_alone (d : Drain M) (t : ι) (hplace : ∀ v, v ≠ t → s'.place v = s.place v)
    (htask : ∀ v, v ≠ t → s'.task v = s.task v)
    (hfall : d.weight (s'.place t) (s'.task t) < d.weight (s.place t) (s.task t)) :
    d.rank s' < d.rank s := by
  refine sum_lt_of_fall t 0 ?_ (by omega)
  intro v hv
  rw [hplace v hv, htask v hv]
  omega

theorem Drain.rank_lt_of_move (d : Drain M) (h : Move M s e s') (htakes : d.Takes s e) :
    d.rank s' < d.rank s := by
  have hplaces (t : ι) (x : Place C) (v : ι) (hv : v ≠ t) :
      Function.update s.place t x v = s.place v := Function.update_of_ne hv x s.place
  have htasks (t : ι) (x : P) (v : ι) (hv : v ≠ t) :
      Function.update s.task t x v = s.task v := Function.update_of_ne hv x s.task
  cases h with
  | call t c hplace _ =>
      cases htakes with
      | call _ _ _ _ hless =>
          refine d.rank_lt_of_alone t (hplaces t _) (fun _ _ => rfl) ?_
          have hmul := Nat.mul_le_mul_left (2 * Fintype.card ι + 6) hless
          simp only [Function.update_self, hplace, weight]
          rw [Nat.mul_succ] at hmul
          omega
  | lock t u c hplace _ =>
      refine d.rank_lt_of_alone t (hplaces t _) (fun _ _ => rfl) ?_
      simp only [Function.update_self, hplace, weight]
      omega
  | wait t u c c' v hplace htest =>
      refine d.rank_lt_of_alone t (hplaces t _) (fun _ _ => rfl) ?_
      have hmul := Nat.mul_le_mul_left (2 * Fintype.card ι + 6)
        (d.wait_le (s.task t) c s.shared v c' htest)
      simp only [Function.update_self, hplace, weight]
      omega
  | done t u c v w r hplace htest =>
      refine d.rank_lt_of_alone t (hplaces t _) (htasks t _) ?_
      have hmul := Nat.mul_le_mul_left (2 * Fintype.card ι + 6)
        (d.done_le (s.task t) c s.shared v w r htest)
      simp only [Function.update_self, hplace, weight]
      omega
  | wake t u w hplace =>
      refine sum_lt_of_fall t 2 ?_ ?_
      · intro v hv
        simp only [Function.update_of_ne hv]
        exact d.weight_wakeUp_le w u v s.place (s.task v)
      · simp only [Function.update_self, hplace, weight]
        omega
  | unlock t u hplace =>
      refine d.rank_lt_of_alone t (hplaces t _) (fun _ _ => rfl) ?_
      simp only [Function.update_self, hplace, weight]
      omega
  | work t w p x hplace hwork =>
      cases htakes with
      | work _ _ p' x' _ hwork' hless =>
          rw [hwork, Option.some.injEq, Prod.mk.injEq] at hwork'
          refine d.rank_lt_of_alone t (fun _ _ => rfl) (htasks t _) ?_
          have hmul := Nat.mul_le_mul_left (2 * Fintype.card ι + 6) hless
          rw [Nat.mul_succ, ← hwork'.1] at hmul
          simp only [Function.update_self, hplace, weight]
          omega
  | spurious t c hplace => cases htakes

theorem Drain.rank_lt (d : Drain M) (h : d.Takes s e) : d.rank (M.step s e) < d.rank s := by
  have hmove : ∃ s', Move M s e s' := by
    cases h with
    | call t c s' hmove _ => exact ⟨s', hmove⟩
    | run t u s' hmove => exact ⟨s', hmove⟩
    | work t w p x hplace hwork _ => exact ⟨_, .work t w p x hplace hwork⟩
  obtain ⟨s', hmove⟩ := hmove
  rw [hmove.step_eq]
  exact d.rank_lt_of_move hmove h

/-- A run without new requests has at most `rank` events. -/
theorem Drain.length_le_rank (d : Drain M) {es : List (Turn ι C W)}
    (h : Transition.Meets M.step d.Takes s es) : es.length ≤ d.rank s := by
  induction es generalizing s with
  | nil => exact Nat.zero_le _
  | cons e es ih =>
      have hfall := d.rank_lt h.1
      have hrest := ih h.2
      rw [List.length_cons]
      omega

end

end TruckControl.Monitor
