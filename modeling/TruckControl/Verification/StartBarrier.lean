import TruckControl.Library.MonitorProgress
import TruckControl.Model.WorkRoutine

/-!
# All tasks are ready before one starts

`threads_ready_count` is the number of the threads that have counted themselves, in every order
of their steps.
-/

namespace TruckControl.WorkRoutine

open Monitor

variable {n : ℕ} {s s' : Threads n} {e : Turn (Fin n) Call (Option ℕ)}

/-! ## The count -/

/-- One for a thread that has counted itself. -/
def arrived (place : Place Call) (stage : Stage) : ℕ :=
  if stage = .started ∨ place.pending = some .wait then 1 else 0

def arrivals (s : Threads n) : ℕ := ∑ t, arrived (s.place t) (s.task t)

theorem arrived_le_one (place : Place Call) (stage : Stage) : arrived place stage ≤ 1 := by
  rw [arrived]
  split <;> omega

theorem arrivals_le (s : Threads n) : arrivals s ≤ n := by
  have hle := Finset.sum_le_card_nsmul Finset.univ (fun t => arrived (s.place t) (s.task t)) 1
    fun t _ => arrived_le_one _ _
  rwa [Finset.card_univ, Fintype.card_fin, Nat.nsmul_eq_mul, Nat.mul_one] at hle

theorem arrived_of_arrivals (h : arrivals s = n) (t : Fin n) :
    arrived (s.place t) (s.task t) = 1 := by
  refine eq_one_of_sum (f := fun t => arrived (s.place t) (s.task t)) (fun _ => arrived_le_one _ _)
    ?_ t
  rw [Fintype.card_fin]
  exact h

theorem arrivals_change (t : Fin n) (hplace : ∀ v, v ≠ t → s'.place v = s.place v)
    (htask : ∀ v, v ≠ t → s'.task v = s.task v) :
    arrivals s' + arrived (s.place t) (s.task t) =
      arrivals s + arrived (s'.place t) (s'.task t) := by
  refine sum_change (f := fun t => arrived (s.place t) (s.task t))
    (g := fun t => arrived (s'.place t) (s'.task t)) t fun v hv => ?_
  rw [hplace v hv, htask v hv]

/-! ## The invariant -/

/-- The count is right, a thread sleeps only until the last one has counted itself, and no task
has started before. -/
structure Ready (s : Threads n) : Prop where
  locked : Locked s
  count : s.shared = arrivals s
  cleared : ∀ t c, (s.place t).pending = some c → s.task t = .cleared
  asleep : ∀ t c, s.place t = .asleep c → c = .wait ∧
    (s.shared < n ∨ ∃ u, s.place u = .waking .broadcast)
  started : ∀ t, s.task t = .started → s.shared = n

theorem ready_init (h : Init s) : Ready s := by
  obtain ⟨shutdownAll, rfl⟩ := h
  refine ⟨?_, ?_, fun _ _ => nofun, fun _ _ => nofun, fun _ => nofun⟩
  · intro t
    simp [start, Place.inside]
  · exact (Finset.sum_eq_zero fun t _ => rfl).symm

/-- While a thread has the mutex, the others sleep because the count is not complete. -/
theorem Ready.lt_of_asleep (h : Ready s) {t u : Fin n} {c : Call}
    (ht : (s.place t).inside = true) (hw : s.place t ≠ .waking .broadcast)
    (hu : s.place u = .asleep c) : s.shared < n := by
  refine (h.asleep u c hu).2.resolve_right ?_
  intro hwaking
  obtain ⟨v, hv⟩ := hwaking
  have htv : t = v := h.locked.unique ht (by rw [hv]; rfl)
  exact hw (htv ▸ hv)

/-- A step in which nobody makes or ends a call changes nobody's count. -/
theorem Ready.of_pending (h : Ready s) (hlocked : Locked s')
    (hpending : ∀ v, (s'.place v).pending = (s.place v).pending) (htask : s'.task = s.task)
    (hshared : s'.shared = s.shared)
    (hasleep : ∀ v c, s'.place v = .asleep c → c = .wait ∧
      (s.shared < n ∨ ∃ u, s'.place u = .waking .broadcast)) : Ready s' := by
  refine ⟨hlocked, ?_, ?_, ?_, ?_⟩
  · rw [hshared, h.count, arrivals, arrivals]
    refine Finset.sum_congr rfl fun v _ => ?_
    rw [arrived, arrived, hpending v, htask]
  · intro v c hc
    rw [htask]
    exact h.cleared v c (hpending v ▸ hc)
  · rw [hshared]
    exact hasleep
  · intro v hv
    rw [hshared]
    rw [htask] at hv
    exact h.started v hv

/-- A move of one thread that is no wake-up and changes nobody's count. -/
theorem Ready.update (h : Ready s) (hlocked : Locked s') {t : Fin n} {p : Place Call}
    (hold : ∀ w, s.place t ≠ .waking w) (hpending : p.pending = (s.place t).pending)
    (hasleep : ∀ c, p ≠ .asleep c) (hplace : s'.place = Function.update s.place t p)
    (htask : s'.task = s.task) (hshared : s'.shared = s.shared) : Ready s' := by
  have hsame (v : Fin n) : (s'.place v).pending = (s.place v).pending := by
    rw [hplace]
    by_cases hv : v = t
    · rw [hv, Function.update_self, hpending]
    · rw [Function.update_of_ne hv]
  refine h.of_pending hlocked hsame htask hshared ?_
  intro v c hv
  rw [hplace] at hv
  by_cases hvt : v = t
  · rw [hvt, Function.update_self] at hv
    exact absurd hv (hasleep c)
  · rw [Function.update_of_ne hvt] at hv
    obtain ⟨hwait, hreason⟩ := h.asleep v c hv
    refine ⟨hwait, hreason.imp_right fun hu => ?_⟩
    obtain ⟨u, hu⟩ := hu
    refine ⟨u, ?_⟩
    rw [hplace]
    by_cases hut : u = t
    · exact absurd (hut ▸ hu) (hold .broadcast)
    · rw [Function.update_of_ne hut, hu]

/-! ## Every step keeps it -/

theorem arrived_cleared (place : Place Call) :
    arrived place .cleared = if place.pending = some .wait then 1 else 0 := by
  simp [arrived]

/-- The count under the mutex, case by case: a thread counts itself once, and the last one
wakes the others. -/
theorem test_cases (c : Call) (k : ℕ) :
    (c = .ready ∧ k + 1 = n ∧ test n c k = .done n .broadcast ()) ∨
      (c = .ready ∧ k + 1 ≠ n ∧ test n c k = .wait (k + 1) .wait) ∨
      (c = .wait ∧ k ≠ n ∧ test n c k = .wait k .wait) ∨
      (c = .wait ∧ k = n ∧ test n c k = .done n .nobody ()) := by
  cases c with
  | ready =>
      by_cases hlast : k + 1 = n
      · refine .inl ⟨rfl, hlast, ?_⟩
        rw [test]
        simp only [hlast, if_true]
      · refine .inr (.inl ⟨rfl, hlast, ?_⟩)
        rw [test]
        simp only [hlast, if_false]
  | wait =>
      by_cases hall : k = n
      · refine .inr (.inr (.inr ⟨rfl, hall, ?_⟩))
        rw [test]
        simp [hall]
      · refine .inr (.inr (.inl ⟨rfl, hall, ?_⟩))
        rw [test]
        simp [hall]

theorem Ready.wait (h : Ready s) (hlocked : Locked s') {t : Fin n} {c c' : Call} {k : ℕ}
    (ht : s.place t = .testing c) (htest : test n c s.shared = .wait k c')
    (hplace : s'.place = Function.update s.place t (.asleep c')) (htask : s'.task = s.task)
    (hshared : s'.shared = k) : Ready s' := by
  have hin : (s.place t).inside = true := by rw [ht]; rfl
  have hwaking : s.place t ≠ .waking .broadcast := by rw [ht]; exact nofun
  have hcleared := h.cleared t c (by rw [ht]; rfl)
  have hself : s'.place t = .asleep c' := by rw [hplace, Function.update_self]
  have hother (v : Fin n) (hv : v ≠ t) : s'.place v = s.place v := by
    rw [hplace, Function.update_of_ne hv]
  -- this thread is counted now, and the count is not complete
  have hcount : c' = .wait ∧ k = arrivals s' ∧ k ≠ n ∧ (∀ v, s.task v ≠ .started) := by
    have hchange := arrivals_change t hother fun v _ => by rw [htask]
    rw [hself, htask, hcleared, arrived_cleared, arrived_cleared, ht, ← h.count] at hchange
    have hle := arrivals_le s'
    rcases test_cases (n := n) c s.shared with ⟨rfl, hk, heq⟩ | ⟨rfl, hk, heq⟩ | ⟨rfl, hk, heq⟩ |
      ⟨rfl, hk, heq⟩
    · rw [heq] at htest
      cases htest
    · rw [heq] at htest
      cases htest
      simp only [Place.pending, reduceCtorEq, if_true, if_false, Option.some.injEq] at hchange
      refine ⟨rfl, by omega, hk, ?_⟩
      intro v hv
      have hn := h.started v hv
      omega
    · rw [heq] at htest
      cases htest
      simp only [Place.pending, if_true] at hchange
      refine ⟨rfl, by omega, hk, ?_⟩
      intro v hv
      exact hk (h.started v hv)
    · rw [heq] at htest
      cases htest
  obtain ⟨rfl, hk, hne, hnone⟩ := hcount
  have hlt : k < n := Nat.lt_of_le_of_ne (hk ▸ arrivals_le s') hne
  refine ⟨hlocked, hshared.trans hk, ?_, ?_, ?_⟩
  · intro v c'' hc
    rw [htask]
    by_cases hv : v = t
    · rw [hv, hcleared]
    · rw [hother v hv] at hc
      exact h.cleared v c'' hc
  · intro v c'' hc
    rw [hshared]
    refine ⟨?_, .inl hlt⟩
    by_cases hv : v = t
    · rw [hv, hself] at hc
      cases hc
      rfl
    · rw [hother v hv] at hc
      exact (h.asleep v c'' hc).1
  · intro v hv
    rw [htask] at hv
    exact absurd hv (hnone v)

theorem Ready.done (h : Ready s) (hlocked : Locked s') {t : Fin n} {c : Call} {k : ℕ} {w : Wake}
    (ht : s.place t = .testing c) (htest : test n c s.shared = .done k w ())
    (hplace : s'.place = Function.update s.place t (.waking w))
    (htask : s'.task = Function.update s.task t .started) (hshared : s'.shared = k) :
    Ready s' := by
  have hin : (s.place t).inside = true := by rw [ht]; rfl
  have hwaking : s.place t ≠ .waking .broadcast := by rw [ht]; exact nofun
  have hcleared := h.cleared t c (by rw [ht]; rfl)
  have hself : s'.place t = .waking w := by rw [hplace, Function.update_self]
  have hother (v : Fin n) (hv : v ≠ t) : s'.place v = s.place v := by
    rw [hplace, Function.update_of_ne hv]
  have hothers (v : Fin n) (hv : v ≠ t) : s'.task v = s.task v := by
    rw [htask, Function.update_of_ne hv]
  have hcount : k = n ∧ arrivals s' = n ∧ (w = .broadcast ∨ s.shared = n) := by
    have hchange := arrivals_change t hother hothers
    have hnew : arrived (s'.place t) (s'.task t) = 1 := by
      rw [htask, Function.update_self]
      simp [arrived]
    rw [hnew, hcleared, arrived_cleared, ht, ← h.count] at hchange
    rcases test_cases (n := n) c s.shared with ⟨rfl, hk, heq⟩ | ⟨rfl, hk, heq⟩ | ⟨rfl, hk, heq⟩ |
      ⟨rfl, hk, heq⟩
    · rw [heq] at htest
      cases htest
      simp only [Place.pending, reduceCtorEq, if_false, Option.some.injEq] at hchange
      exact ⟨rfl, by omega, .inl rfl⟩
    · rw [heq] at htest
      cases htest
    · rw [heq] at htest
      cases htest
    · rw [heq] at htest
      cases htest
      simp only [Place.pending, if_true] at hchange
      exact ⟨rfl, by omega, .inr hk⟩
  obtain ⟨rfl, harrivals, hreason⟩ := hcount
  refine ⟨hlocked, hshared.trans harrivals.symm, ?_, ?_, fun _ _ => hshared⟩
  · intro v c'' hc
    by_cases hv : v = t
    · rw [hv, hself] at hc
      cases hc
    · rw [hother v hv] at hc
      rw [hothers v hv]
      exact h.cleared v c'' hc
  · intro v c'' hc
    by_cases hv : v = t
    · rw [hv, hself] at hc
      cases hc
    · rw [hother v hv] at hc
      refine ⟨(h.asleep v c'' hc).1, ?_⟩
      rcases hreason with rfl | hall
      · exact .inr ⟨t, hself⟩
      · have hlt := h.lt_of_asleep hin hwaking hc
        omega

theorem Ready.wake (h : Ready s) (hlocked : Locked s') {t u : Fin n} {w : Wake}
    (ht : s.place t = .waking w)
    (hplace : s'.place = Function.update (wakeUp w u s.place) t .unlocking)
    (htask : s'.task = s.task) (hshared : s'.shared = s.shared) : Ready s' := by
  have hin : (s.place t).inside = true := by rw [ht]; rfl
  have hsame (v : Fin n) : (s'.place v).pending = (s.place v).pending := by
    rw [hplace]
    by_cases hv : v = t
    · rw [hv, Function.update_self, ht]
      rfl
    · rw [Function.update_of_ne hv, pending_wakeUp]
  refine h.of_pending hlocked hsame htask hshared ?_
  intro v c hv
  rw [hplace] at hv
  by_cases hvt : v = t
  · rw [hvt, Function.update_self] at hv
    cases hv
  · rw [Function.update_of_ne hvt] at hv
    obtain ⟨hv, hw⟩ := asleep_of_wakeUp hv
    refine ⟨(h.asleep v c hv).1, .inl (h.lt_of_asleep hin ?_ hv)⟩
    rw [ht]
    exact fun heq => hw (Place.waking.inj heq)

/-- The work of a thread outside changes no count: a thread that clears `shutdown_all` is not
counted, and one that has started is. -/
theorem Ready.work (h : Ready s) {t : Fin n} {stage : Stage} (ht : s.place t = .outside)
    (hstage : s.task t = .created ∧ stage = .cleared ∨ s.task t = .started ∧ stage = .started)
    (hplace : s'.place = s.place) (howner : s'.owner = s.owner)
    (htask : s'.task = Function.update s.task t stage) (hshared : s'.shared = s.shared) :
    Ready s' := by
  have hothers (v : Fin n) (hv : v ≠ t) : s'.task v = s.task v := by
    rw [htask, Function.update_of_ne hv]
  have hself : s'.task t = stage := by rw [htask, Function.update_self]
  refine ⟨?_, ?_, ?_, ?_, ?_⟩
  · intro v
    rw [howner, hplace]
    exact h.locked v
  · have hchange := arrivals_change t (fun v _ => by rw [hplace]) hothers
    have hsame : arrived (s'.place t) (s'.task t) = arrived (s.place t) (s.task t) := by
      rw [hplace, hself, ht]
      rcases hstage with ⟨hold, rfl⟩ | ⟨hold, rfl⟩
      · rw [hold]
        rfl
      · rw [hold]
    rw [hshared, h.count]
    omega
  · intro v c hc
    rw [hplace] at hc
    by_cases hv : v = t
    · rw [hv, ht] at hc
      cases hc
    · rw [hothers v hv]
      exact h.cleared v c hc
  · intro v c hv
    rw [hplace] at hv ⊢
    rw [hshared]
    exact h.asleep v c hv
  · intro v hv
    rw [hshared]
    by_cases hvt : v = t
    · rw [hvt, hself] at hv
      rcases hstage with ⟨-, rfl⟩ | ⟨hold, -⟩
      · cases hv
      · exact h.started t hold
    · rw [hothers v hvt] at hv
      exact h.started v hv

theorem Ready.move (h : Ready s) (hmove : Move (workRoutine n) s e s') : Ready s' := by
  have hlocked := h.locked.move hmove
  cases hmove with
  | call t c hplace hmay =>
      obtain ⟨hcleared, rfl⟩ := of_decide_eq_true hmay
      have hsame (v : Fin n) : arrived (Function.update s.place t (.locking .ready) v) (s.task v) =
          arrived (s.place v) (s.task v) := by
        by_cases hv : v = t
        · rw [hv, Function.update_self, hcleared, hplace]
          rfl
        · rw [Function.update_of_ne hv]
      refine ⟨hlocked, h.count.trans (Finset.sum_congr rfl fun v _ => (hsame v).symm), ?_, ?_,
        h.started⟩
      · intro v c hc
        by_cases hv : v = t
        · rw [hv, hcleared]
        · simp only [Function.update_of_ne hv] at hc
          exact h.cleared v c hc
      · intro v c hv
        by_cases hvt : v = t
        · simp only [hvt, Function.update_self] at hv
          cases hv
        · simp only [Function.update_of_ne hvt] at hv
          refine ⟨(h.asleep v c hv).1, (h.asleep v c hv).2.imp_right fun hu => ?_⟩
          obtain ⟨u, hu⟩ := hu
          refine ⟨u, ?_⟩
          have hut : u ≠ t := by
            intro heq
            rw [heq, hplace] at hu
            cases hu
          simp only [Function.update_of_ne hut, hu]
  | lock t u c hplace howner =>
      refine h.update hlocked (t := t) (p := .testing c) ?_ ?_ (fun _ => nofun) rfl rfl rfl
      · rw [hplace]
        exact fun _ => nofun
      · rw [hplace]
        rfl
  | wait t u c c' k hplace htest => exact h.wait hlocked hplace htest rfl rfl rfl
  | done t u c k w r hplace htest => exact h.done hlocked hplace htest rfl rfl rfl
  | wake t u w hplace => exact h.wake hlocked hplace rfl rfl rfl
  | unlock t u hplace =>
      refine h.update hlocked (t := t) (p := .outside) ?_ ?_ (fun _ => nofun) rfl rfl rfl
      · rw [hplace]
        exact fun _ => nofun
      · rw [hplace]
        rfl
  | work t stored stage shutdownAll hplace hwork =>
      refine h.work hplace ?_ rfl rfl rfl rfl
      cases htask : s.task t with
      | created =>
          simp only [workRoutine, htask] at hwork
          cases hwork
          exact .inl ⟨rfl, rfl⟩
      | cleared =>
          simp only [workRoutine, htask] at hwork
          cases hwork
      | started =>
          simp only [workRoutine, htask] at hwork
          cases hwork
          exact .inr ⟨rfl, rfl⟩
  | spurious t c hplace =>
      refine h.update hlocked (t := t) (p := .locking c) ?_ ?_ (fun _ => nofun) rfl rfl rfl
      · rw [hplace]
        exact fun _ => nofun
      · rw [hplace]
        rfl

theorem ready_of_reachable (h : Transition.Reachable (workRoutine n).step Init s) : Ready s :=
  invariant_of_moves (fun _ => ready_init) (fun _ _ _ hs hmove => hs.move hmove) h

/-! ## What it gives -/

/-- A task starts when all threads are past their start: from then on `work_routine` does not
store into `shutdown_all` any more, and what a task stores there stays until a task stores
again. -/
theorem task_starts_after_all (h : Transition.Reachable (workRoutine n).step Init s) {t : Fin n}
    (ht : s.task t = .started) :
    s.shared = n ∧ (∀ u, s.task u = .started ∨ (s.place u).pending = some .wait) ∧
      ∀ e, ((workRoutine n).step s e).data ≠ s.data →
        ∃ u v, e = .work u (some v) ∧ s.task u = .started := by
  have hready := ready_of_reachable h
  have hall := hready.started t ht
  have harrived (u : Fin n) : s.task u = .started ∨ (s.place u).pending = some .wait := by
    have hone := arrived_of_arrivals (hready.count.symm.trans hall) u
    rw [arrived] at hone
    split at hone
    · assumption
    · cases hone
  refine ⟨hall, harrived, ?_⟩
  intro e he
  rcases move_or_idle (workRoutine n) s e with hmove | hidle
  · generalize (workRoutine n).step s e = s' at hmove he
    cases hmove with
    | work u stored stage shutdownAll hplace hwork =>
        have hstarted : s.task u = .started := by
          refine (harrived u).resolve_right ?_
          rw [hplace]
          exact nofun
        simp only [workRoutine, hstarted] at hwork
        cases stored with
        | none =>
            cases hwork
            exact absurd rfl he
        | some v => exact ⟨u, v, rfl, hstarted⟩
    | _ => exact absurd rfl he
  · rw [hidle] at he
    exact absurd rfl he

/-- The steps up to the start of the task. -/
def startDrain (n : ℕ) : Drain (workRoutine n) where
  idle
    | .created => 2
    | .cleared => 1
    | .started => 0
  left _ _ := 0
  done_le _ _ _ _ _ _ _ := Nat.le_refl 0
  wait_le _ _ _ _ _ _ := Nat.le_refl 0

theorem settled_iff (t : Fin n) :
    (startDrain n).Settled s t ↔ s.place t = .outside ∧ s.task t = .started := by
  refine and_congr_right fun _ => ?_
  cases s.task t <;> simp [startDrain]

theorem exists_takes_of_ready (h : Ready s) (hnot : ¬ ∀ t, (startDrain n).Settled s t) :
    ∃ e, (startDrain n).Takes s e := by
  refine (startDrain n).exists_takes h.locked ?_ ?_ hnot
  · intro t hplace hidle
    cases htask : s.task t with
    | created =>
        refine ⟨_, .work t none .cleared 0 hplace ?_ ?_⟩
        · rw [htask]
          rfl
        · rw [htask]
          exact Nat.one_lt_two
    | cleared =>
        refine ⟨_, .call t Call.ready _ (.call t Call.ready hplace ?_) ?_⟩
        · exact decide_eq_true ⟨htask, rfl⟩
        · rw [htask]
          exact Nat.zero_lt_one
    | started =>
        rw [htask] at hidle
        exact absurd hidle (Nat.lt_irrefl 0)
  · intro hall t
    refine (hall t).resolve_right ?_
    intro hasleep
    obtain ⟨c, hc⟩ := (Place.isAsleep_iff _).mp hasleep
    -- everybody has counted itself, so that nobody has a reason to sleep
    have harrived (u : Fin n) : arrived (s.place u) (s.task u) = 1 := by
      rcases hall u with hu | hu
      · rw [arrived, if_pos (.inl ((settled_iff u).mp hu).2)]
      · obtain ⟨c', hc'⟩ := (Place.isAsleep_iff _).mp hu
        refine if_pos (.inr ?_)
        rw [hc', (h.asleep u c' hc').1]
        rfl
    have hcount : arrivals s = n := by
      rw [arrivals, Finset.sum_congr rfl fun u _ => harrived u, Finset.sum_const,
        Finset.card_univ, Fintype.card_fin, Nat.nsmul_eq_mul, Nat.mul_one]
    rcases (h.asleep t c hc).2 with hlt | hwaking
    · rw [h.count, hcount] at hlt
      exact Nat.lt_irrefl n hlt
    · obtain ⟨u, hu⟩ := hwaking
      rcases hall u with hu' | hu'
      · rw [hu'.1] at hu
        cases hu
      · rw [hu] at hu'
        cases hu'

/-- No thread is left asleep: in every order of the threads' steps, somebody goes on until every
task has started, and that takes a bounded number of steps. -/
theorem tasks_all_start (h : Transition.Reachable (workRoutine n).step Init s)
    {es : List (Turn (Fin n) Call (Option ℕ))}
    (hes : Transition.Meets (workRoutine n).step (startDrain n).Takes s es) :
    es.length ≤ (startDrain n).rank s ∧
      ((∃ e, (startDrain n).Takes (Transition.exec (workRoutine n).step s es) e) ∨
        ∀ t, (Transition.exec (workRoutine n).step s es).task t = .started) := by
  refine ⟨(startDrain n).length_le_rank hes, ?_⟩
  by_cases hall : ∀ t, (startDrain n).Settled (Transition.exec (workRoutine n).step s es) t
  · exact .inr fun t => ((settled_iff t).mp (hall t)).2
  · exact .inl (exists_takes_of_ready (ready_of_reachable (h.after es)) hall)

/-! ## Two threads -/

/-- `t` waits, and `u` starts. -/
def twoStart (t u : Fin n) : List (Turn (Fin n) Call (Option ℕ)) :=
  [.work t none, .call t .ready, .run t t, .run t t, .work u none, .call u .ready, .run u u,
    .run u u]

theorem task_starts_after_all_two :
    let s := Transition.exec (workRoutine 2).step (start 2 1) (twoStart 0 1)
    s.shared = 2 ∧ (∀ u, s.task u = .started ∨ (s.place u).pending = some .wait) ∧
      ∀ e, ((workRoutine 2).step s e).data ≠ s.data →
        ∃ u v, e = .work u (some v) ∧ s.task u = .started :=
  task_starts_after_all ⟨_, twoStart 0 1, ⟨1, rfl⟩, rfl⟩ (t := 1) (by decide)

theorem tasks_all_start_two :
    let s := Transition.exec (workRoutine 2).step (start 2 1) (twoStart 0 1)
    let es : List (Turn (Fin 2) Call (Option ℕ)) := [.run 1 1]
    es.length ≤ (startDrain 2).rank s ∧
      ((∃ e, (startDrain 2).Takes (Transition.exec (workRoutine 2).step s es) e) ∨
        ∀ t, (Transition.exec (workRoutine 2).step s es).task t = .started) := by
  intro s es
  have htakes : (startDrain 2).Takes s (.run 1 1) :=
    .run 1 1 _ (.wake 1 1 .broadcast (by decide))
  exact tasks_all_start ⟨_, twoStart 0 1, ⟨1, rfl⟩, rfl⟩ ⟨htakes, trivial⟩

end TruckControl.WorkRoutine
