import TruckControl.Library.MonitorProgress
import TruckControl.Model.Rdwr

/-!
# Readers and writers exclude each other

The two counters of the lock are the numbers of the threads that have it, in every
interleaving of any number of threads, whatever they do between their calls.
-/

namespace TruckControl

open Monitor

namespace Rdwr

/-! ## The functions, case by case -/

/-- A call that does not wait: from `l` to `v`, with its wake-up and its result. -/
inductive Returns : RdwrCall → Rdwr → Rdwr → Wake → ℤ → Prop where
  | rlock (l : Rdwr) (hwriter : l.writerWriting = 0) :
      Returns .rlock l { l with readersReading := l.readersReading + 1 } .nobody 0
  | runlock (l v : Rdwr) (w : Wake) (hreader : l.readersReading = v.readersReading + 1)
      (hwriter : v.writerWriting = l.writerWriting)
      (hwake : w = if v.readersReading = 0 then .signal else .nobody) : Returns .runlock l v w 0
  | wlock (l : Rdwr) (hwriter : l.writerWriting = 0) (hreader : l.readersReading = 0) :
      Returns .wlock l { l with writerWriting := 1 } .nobody 0
  | wunlock (l : Rdwr) (hwriter : l.writerWriting ≠ 0) :
      Returns .wunlock l { l with writerWriting := 0 } .broadcast 0
  | unread (l : Rdwr) (hreader : l.readersReading = 0) : Returns .runlock l l .nobody (-1)
  | unwritten (l : Rdwr) (hwriter : l.writerWriting = 0) : Returns .wunlock l l .nobody (-1)

theorem returns_of_test {c : RdwrCall} {l v : Rdwr} {w : Wake} {r : ℤ}
    (h : test c l = .done v w r) : Returns c l v w r := by
  cases c with
  | rlock =>
      rw [test, pthreadRdwrRlockNp] at h
      split at h
      · cases h
      · rename_i hwriter
        cases h
        exact .rlock l (not_not.mp hwriter)
  | runlock =>
      rw [test, pthreadRdwrRunlockNp] at h
      split at h
      · rename_i hreader
        cases h
        exact .unread l hreader
      · rename_i hreader
        cases h
        exact .runlock l _ _ (Nat.succ_pred_eq_of_ne_zero hreader).symm rfl rfl
  | wlock =>
      rw [test, pthreadRdwrWlockNp] at h
      split at h
      · cases h
      · rename_i hfree
        obtain ⟨hwriter, hreader⟩ := not_or.mp hfree
        cases h
        rw [not_not.mp hwriter]
        exact .wlock l (not_not.mp hwriter) (not_not.mp hreader)
  | wunlock =>
      rw [test, pthreadRdwrWunlockNp] at h
      split at h
      · rename_i hwriter
        cases h
        exact .unwritten l hwriter
      · rename_i hwriter
        cases h
        exact .wunlock l hwriter

/-- A call that waits leaves the counters as they are, and goes on with the same test. -/
theorem waits_of_test {c c' : RdwrCall} {l v : Rdwr} (h : test c l = .wait v c') :
    v = l ∧ c' = c ∧ (c = .rlock ∧ l.writerWriting ≠ 0 ∨
      c = .wlock ∧ (l.writerWriting ≠ 0 ∨ l.readersReading ≠ 0)) := by
  cases c with
  | rlock =>
      rw [test, pthreadRdwrRlockNp] at h
      split at h
      · rename_i hwriter
        cases h
        exact ⟨rfl, rfl, .inl ⟨rfl, hwriter⟩⟩
      · cases h
  | wlock =>
      rw [test, pthreadRdwrWlockNp] at h
      split at h
      · rename_i hbusy
        cases h
        exact ⟨rfl, rfl, .inr ⟨rfl, hbusy⟩⟩
      · cases h
  | runlock =>
      rw [test, pthreadRdwrRunlockNp] at h
      split at h <;> cases h
  | wunlock =>
      rw [test, pthreadRdwrWunlockNp] at h
      split at h <;> cases h

end Rdwr

namespace RdwrUsers

variable {ι P D W : Type*} {users : RdwrUsers ι P D W} {s s' : State ι Rdwr RdwrCall P D}

/-- One for a thread in the phase. -/
def count (users : RdwrUsers ι P D W) (q : Phase) (p : P) : ℕ :=
  if users.phase p = q then 1 else 0

section

variable [Fintype ι]

/-- The counters are the numbers of readers and of writers, and a thread is only in calls that it
may make. -/
structure Counted (users : RdwrUsers ι P D W) (s : State ι Rdwr RdwrCall P D) : Prop where
  pending : ∀ t c, (s.place t).pending = some c → users.may (s.task t) c = true
  readers : s.shared.readersReading = ∑ t, users.count .reading (s.task t)
  writers : s.shared.writerWriting = ∑ t, users.count .writing (s.task t)
  alone : s.shared.writerWriting ≤ 1
  exclusive : s.shared.writerWriting ≠ 0 → s.shared.readersReading = 0

theorem counted_init (h : users.Init s) : users.Counted s := by
  obtain ⟨hshared, -, hplace, hphase⟩ := h
  have hnone (q : Phase) (hq : q ≠ .out) : ∑ t, users.count q (s.task t) = 0 :=
    Finset.sum_eq_zero fun t _ => if_neg (by rw [hphase t]; exact Ne.symm hq)
  refine ⟨?_, ?_, ?_, ?_, ?_⟩
  · intro t c hc
    rw [hplace t] at hc
    cases hc
  · rw [hshared, hnone .reading (by decide)]
    rfl
  · rw [hshared, hnone .writing (by decide)]
    rfl
  · rw [hshared]
    exact Nat.zero_le _
  · rw [hshared]
    exact fun hne => absurd rfl hne

theorem Counted.readers_pos (h : users.Counted s) {t : ι} (ht : users.Reads s t) :
    0 < s.shared.readersReading := by
  have hle := Finset.single_le_sum (f := fun u => users.count .reading (s.task u))
    (fun u _ => Nat.zero_le _) (Finset.mem_univ t)
  rw [h.readers]
  have hone : users.count .reading (s.task t) = 1 := if_pos ht
  omega

theorem Counted.writers_pos (h : users.Counted s) {t : ι} (ht : users.Writes s t) :
    0 < s.shared.writerWriting := by
  have hle := Finset.single_le_sum (f := fun u => users.count .writing (s.task u))
    (fun u _ => Nat.zero_le _) (Finset.mem_univ t)
  rw [h.writers]
  have hone : users.count .writing (s.task t) = 1 := if_pos ht
  omega

/-- Nobody reads beside a writer. -/
theorem Counted.not_reads (h : users.Counted s) {t u : ι} (ht : users.Writes s t) :
    ¬ users.Reads s u := by
  intro hu
  have hzero := h.exclusive (Nat.pos_iff_ne_zero.mp (h.writers_pos ht))
  have hpos := h.readers_pos hu
  omega

/-- Nobody else writes. -/
theorem Counted.writer_unique (h : users.Counted s) {t u : ι}
    (ht : users.Writes s t) (hu : users.Writes s u) : t = u := by
  by_contra hne
  have hpair := Finset.add_le_sum (f := fun v => users.count .writing (s.task v))
    (fun v _ => Nat.zero_le _) (Finset.mem_univ t) (Finset.mem_univ u) hne
  have htone : users.count .writing (s.task t) = 1 := if_pos ht
  have huone : users.count .writing (s.task u) = 1 := if_pos hu
  have hle := h.alone
  rw [h.writers] at hle
  omega

/-- The call of a thread that holds the lock as it says does not fail. -/
theorem Counted.returns_zero (h : users.Counted s) {t : ι} {c : RdwrCall}
    (hphase : users.phase (s.task t) = c.before) {v : Rdwr} {w : Wake} {r : ℤ}
    (hreturns : Rdwr.Returns c s.shared v w r) : r = 0 := by
  cases hreturns with
  | unread _ hreader =>
      have hpos := h.readers_pos hphase
      omega
  | unwritten _ hwriter =>
      have hpos := h.writers_pos hphase
      omega
  | rlock | runlock | wlock | wunlock => rfl

/-- A call belongs to the phase of its thread. -/
theorem Counted.pending_phase (h : users.Counted s) {t : ι} {c : RdwrCall}
    (hc : (s.place t).pending = some c) : users.phase (s.task t) = c.before :=
  users.may_phase _ c (h.pending t c hc)

theorem Counted.readersReading_eq_card (h : users.Counted s) :
    s.shared.readersReading =
      (Finset.univ.filter fun t => users.phase (s.task t) = .reading).card := by
  rw [h.readers, Finset.card_filter]
  rfl

theorem Counted.writerWriting_eq_card (h : users.Counted s) :
    s.shared.writerWriting =
      (Finset.univ.filter fun t => users.phase (s.task t) = .writing).card := by
  rw [h.writers, Finset.card_filter]
  rfl

/-! ## Every step keeps the counts -/

variable [DecidableEq ι] {e : Turn ι RdwrCall W}

theorem count_next {t : ι} {c : RdwrCall} (hmay : users.may (s.task t) c = true) (q : Phase) :
    (∑ u, users.count q (Function.update s.task t (users.next (s.task t) c 0) u)) +
      (if c.before = q then 1 else 0) =
    (∑ u, users.count q (s.task u)) + (if c.after = q then 1 else 0) := by
  have hsum := sum_update (users.count q) s.task t (users.next (s.task t) c 0)
  have hold : users.count q (s.task t) = if c.before = q then 1 else 0 := by
    rw [count, users.may_phase _ c hmay]
  have hnew : users.count q (users.next (s.task t) c 0) = if c.after = q then 1 else 0 := by
    rw [count, users.next_phase _ _ hmay]
  rwa [hold, hnew] at hsum

/-- A call counts its thread where it is from now on. -/
theorem Counted.counts_next (h : users.Counted s) {t : ι} {c : RdwrCall}
    (hmay : users.may (s.task t) c = true) {v : Rdwr} {w : Wake}
    (hreturns : Rdwr.Returns c s.shared v w 0) :
    let task := Function.update s.task t (users.next (s.task t) c 0)
    v.readersReading = ∑ u, users.count .reading (task u) ∧
      v.writerWriting = ∑ u, users.count .writing (task u) ∧
      v.writerWriting ≤ 1 ∧ (v.writerWriting ≠ 0 → v.readersReading = 0) := by
  intro task
  have hread := users.count_next hmay .reading
  have hwrite := users.count_next hmay .writing
  rw [← h.readers] at hread
  rw [← h.writers] at hwrite
  have halone := h.alone
  have hexclusive := h.exclusive
  change (∑ u, users.count .reading (task u)) + _ = _ at hread
  change (∑ u, users.count .writing (task u)) + _ = _ at hwrite
  generalize ∑ u, users.count .reading (task u) = readers at hread
  generalize ∑ u, users.count .writing (task u) = writers at hwrite
  cases hreturns with
  | rlock _ hwriter =>
      simp only [RdwrCall.before, RdwrCall.after, reduceCtorEq, if_true, if_false] at hread hwrite
      refine ⟨?_, ?_, halone, ?_⟩ <;> simp only <;> omega
  | runlock _ _ _ hreader hwriter hwake =>
      simp only [RdwrCall.before, RdwrCall.after, reduceCtorEq, if_true, if_false] at hread hwrite
      omega
  | wlock _ hwriter hreader =>
      simp only [RdwrCall.before, RdwrCall.after, reduceCtorEq, if_true, if_false] at hread hwrite
      refine ⟨?_, ?_, Nat.le_refl 1, fun _ => hreader⟩ <;> simp only <;> omega
  | wunlock _ hwriter =>
      simp only [RdwrCall.before, RdwrCall.after, reduceCtorEq, if_true, if_false] at hread hwrite
      refine ⟨?_, ?_, Nat.zero_le 1, fun hne => absurd rfl hne⟩ <;> simp only <;> omega

theorem Counted.move (h : users.Counted s) (hmove : Move users.monitor s e s') :
    users.Counted s' := by
  have hpending (t : ι) (p : Place RdwrCall)
      (hp : ∀ c, p.pending = some c → users.may (s.task t) c = true) (u : ι) (c : RdwrCall)
      (hc : (Function.update s.place t p u).pending = some c) :
      users.may (s.task u) c = true := by
    by_cases hu : u = t
    · rw [hu, Function.update_self] at hc
      rw [hu]
      exact hp c hc
    · rw [Function.update_of_ne hu] at hc
      exact h.pending u c hc
  have hsame (t : ι) (c : RdwrCall) (hc : (s.place t).pending = some c) (p : Place RdwrCall)
      (hp : p.pending = some c) (c' : RdwrCall) (hc' : p.pending = some c') :
      users.may (s.task t) c' = true := by
    rw [hp] at hc'
    cases hc'
    exact h.pending t c hc
  cases hmove with
  | call t c hplace hmay =>
      refine ⟨hpending t _ ?_, h.readers, h.writers, h.alone, h.exclusive⟩
      intro c' hc'
      cases hc'
      exact hmay
  | lock t u c hplace howner =>
      exact ⟨hpending t _ (hsame t c (by rw [hplace]; rfl) _ rfl), h.readers, h.writers, h.alone,
        h.exclusive⟩
  | wait t u c c' v hplace htest =>
      obtain ⟨rfl, rfl, -⟩ := Rdwr.waits_of_test htest
      exact ⟨hpending t _ (hsame t c' (by rw [hplace]; rfl) _ rfl), h.readers, h.writers, h.alone,
        h.exclusive⟩
  | done t u c v w r hplace htest =>
      have hreturns := Rdwr.returns_of_test htest
      have hmay := h.pending t c (by rw [hplace]; rfl)
      have hzero := h.returns_zero (users.may_phase _ c hmay) hreturns
      subst hzero
      obtain ⟨hreaders, hwriters, halone, hexclusive⟩ := h.counts_next hmay hreturns
      refine ⟨?_, hreaders, hwriters, halone, hexclusive⟩
      intro u c' hc'
      by_cases hu : u = t
      · simp only [hu, Function.update_self] at hc'
        cases hc'
      · simp only [Function.update_of_ne hu] at hc' ⊢
        exact h.pending u c' hc'
  | wake t u w hplace =>
      refine ⟨?_, h.readers, h.writers, h.alone, h.exclusive⟩
      intro v c hc
      by_cases hv : v = t
      · simp only [hv, Function.update_self] at hc
        cases hc
      · simp only [Function.update_of_ne hv, pending_wakeUp] at hc
        exact h.pending v c hc
  | unlock t u hplace =>
      refine ⟨hpending t _ ?_, h.readers, h.writers, h.alone, h.exclusive⟩
      intro c hc
      cases hc
  | work t w p d hplace hwork =>
      have hphase := users.work_phase t w _ _ p d hwork
      have hcount (q : Phase) :
          ∑ u, users.count q (Function.update s.task t p u) = ∑ u, users.count q (s.task u) := by
        have hsum := sum_update (users.count q) s.task t p
        have hone : users.count q p = users.count q (s.task t) := by rw [count, count, hphase]
        omega
      refine ⟨?_, ?_, ?_, h.alone, h.exclusive⟩
      · intro u c hc
        by_cases hu : u = t
        · rw [hu, hplace] at hc
          cases hc
        · simp only [Function.update_of_ne hu, h.pending u c hc]
      · exact h.readers.trans (hcount .reading).symm
      · exact h.writers.trans (hcount .writing).symm
  | spurious t c hplace =>
      exact ⟨hpending t _ (hsame t c (by rw [hplace]; rfl) _ rfl), h.readers, h.writers, h.alone,
        h.exclusive⟩

theorem counted_of_reachable (h : Transition.Reachable users.monitor.step users.Init s) :
    users.Counted s :=
  invariant_of_moves (fun _ => counted_init) (fun _ _ _ hs hmove => hs.move hmove) h

/-- In every interleaving the counters are the numbers of readers and of writers, a writer is
alone, and no call that gives the lock back fails. -/
theorem rdwrLock_excludes (users : RdwrUsers ι P D W)
    (h : Transition.Reachable users.monitor.step users.Init s) :
    s.shared.readersReading =
        (Finset.univ.filter fun t => users.phase (s.task t) = .reading).card ∧
      s.shared.writerWriting =
        (Finset.univ.filter fun t => users.phase (s.task t) = .writing).card ∧
      (∀ t u, users.Writes s t → ¬ users.Reads s u ∧ (users.Writes s u → u = t)) ∧
      ∀ t c v w r, s.place t = .testing c → Rdwr.test c s.shared = .done v w r → r = 0 := by
  have hs := counted_of_reachable h
  refine ⟨hs.readersReading_eq_card, hs.writerWriting_eq_card, ?_, ?_⟩
  · intro t u ht
    exact ⟨hs.not_reads ht, fun hu => hs.writer_unique hu ht⟩
  · intro t c v w r hplace htest
    have hphase := hs.pending_phase (t := t) (c := c) (by rw [hplace]; rfl)
    exact hs.returns_zero hphase (Rdwr.returns_of_test htest)

end

/-- A reader has the lock, and a writer waits for it. -/
theorem rdwrLock_excludes_waiting_writer :
    let run : List (Turn (Fin 2) RdwrCall Empty) := [.call 0 .rlock, .run 0 0, .run 0 0, .run 0 0,
      .run 0 0, .call 1 .wlock, .run 1 1, .run 1 1]
    let s := Transition.exec (plainUsers (Fin 2)).monitor.step (plainStart (Fin 2)) run
    (s.shared.readersReading = 1 ∧ s.place 1 = .asleep .wlock) ∧
      s.shared.readersReading = (Finset.univ.filter fun t => s.task t = .reading).card ∧
      s.shared.writerWriting = (Finset.univ.filter fun t => s.task t = .writing).card ∧
      (∀ t u, (plainUsers (Fin 2)).Writes s t → ¬ (plainUsers (Fin 2)).Reads s u ∧
        ((plainUsers (Fin 2)).Writes s u → u = t)) ∧
      ∀ t c v w r, s.place t = .testing c → Rdwr.test c s.shared = .done v w r → r = 0 := by
  intro run s
  refine ⟨by decide, ?_⟩
  exact rdwrLock_excludes (plainUsers (Fin 2)) ⟨_, run, plainStart_init (Fin 2), rfl⟩

end RdwrUsers

end TruckControl
