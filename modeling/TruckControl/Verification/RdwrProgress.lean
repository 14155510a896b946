import TruckControl.Verification.RdwrExclusion

/-!
# The lock wakes everybody it has to

A reader that gives the lock back signals one waiting thread only. That is enough: when the
lock is free, a writer that still waits has another thread before it that will wake it.
-/

namespace TruckControl

open Monitor

namespace Rdwr

def Busy (l : Rdwr) : Prop := l.writerWriting ≠ 0 ∨ l.readersReading ≠ 0

end Rdwr

/-- A thread that will wake the writers, or that will have the lock itself and wake them then. -/
inductive Carries : Place RdwrCall → Prop where
  | signal : Carries (.waking .signal)
  | broadcast : Carries (.waking .broadcast)
  | locking : Carries (.locking .wlock)
  | testing : Carries (.testing .wlock)

namespace RdwrUsers

section

variable {ι P D W : Type*} {users : RdwrUsers ι P D W} {s s' : State ι Rdwr RdwrCall P D}
  {e : Turn ι RdwrCall W}

/-- Why a thread may go on sleeping. -/
structure Expected (s : State ι Rdwr RdwrCall P D) : Prop where
  calls : ∀ t c, s.place t = .asleep c → c = .rlock ∨ c = .wlock
  readers : ∀ t, s.place t = .asleep .rlock →
    s.shared.writerWriting ≠ 0 ∨ ∃ u, s.place u = .waking .broadcast
  writers : ∀ t, s.place t = .asleep .wlock → s.shared.Busy ∨ ∃ u, Carries (s.place u)

theorem expected_init (h : users.Init s) : Expected s := by
  obtain ⟨-, -, hplace, -⟩ := h
  refine ⟨?_, ?_, ?_⟩
  · intro t c ht
    rw [hplace t] at ht
    cases ht
  · intro t ht
    rw [hplace t] at ht
    cases ht
  · intro t ht
    rw [hplace t] at ht
    cases ht

/-- With the lock free and everybody outside or asleep, nobody is asleep. -/
theorem Expected.not_asleep (h : Expected s) (hfree : ¬ s.shared.Busy)
    (hplaces : ∀ t, s.place t = .outside ∨ (s.place t).isAsleep = true) (t : ι) :
    (s.place t).isAsleep = false := by
  have hnot (u : ι) : s.place u ≠ .waking .broadcast ∧ ¬ Carries (s.place u) := by
    rcases hplaces u with hu | hu
    · rw [hu]
      exact ⟨nofun, nofun⟩
    · obtain ⟨c, hc⟩ := (Place.isAsleep_iff _).mp hu
      rw [hc]
      exact ⟨nofun, nofun⟩
  by_contra hasleep
  obtain ⟨c, hc⟩ := (Place.isAsleep_iff _).mp (Bool.not_eq_false _ ▸ hasleep)
  rcases h.calls t c hc with rfl | rfl
  · rcases h.readers t hc with hwriter | ⟨u, hu⟩
    · exact hfree (.inl hwriter)
    · exact (hnot u).1 hu
  · rcases h.writers t hc with hbusy | ⟨u, hu⟩
    · exact hfree hbusy
    · exact (hnot u).2 hu

/-- While a thread has the mutex, no other wakes the readers. -/
theorem Expected.writer_of_inside (h : Expected s) (hlocked : Locked s) {t x : ι}
    (ht : (s.place t).inside = true) (hx : s.place x = .asleep .rlock) :
    s.shared.writerWriting ≠ 0 ∨ s.place t = .waking .broadcast := by
  refine (h.readers x hx).imp_right fun hu => ?_
  obtain ⟨u, hu⟩ := hu
  have hut : t = u := hlocked.unique ht (by rw [hu]; rfl)
  rw [hut, hu]

/-- Nor does any other carry the wake-up on, if it is not a writer on its way to the mutex. -/
theorem Expected.carrier_of_inside (h : Expected s) (hlocked : Locked s) {t x : ι}
    (ht : (s.place t).inside = true) (hx : s.place x = .asleep .wlock) :
    s.shared.Busy ∨ Carries (s.place t) ∨ ∃ u, u ≠ t ∧ s.place u = .locking .wlock := by
  refine (h.writers x hx).imp_right fun hu => ?_
  obtain ⟨u, hu⟩ := hu
  by_cases hut : u = t
  · exact .inl (hut ▸ hu)
  · have houtside := hlocked.outside_of_ne ht hut
    refine .inr ⟨u, hut, ?_⟩
    generalize s.place u = p at hu houtside
    cases hu with
    | locking => rfl
    | signal | broadcast | testing => cases houtside

variable [DecidableEq ι]

/-- The move of a thread that does not wake anybody, to a place where it does not sleep. -/
theorem Expected.update (h : Expected s) {t : ι} {p : Place RdwrCall}
    (hp : ∀ c, p ≠ .asleep c) (hbroadcast : s.place t = .waking .broadcast → p = s.place t)
    (hcarries : Carries (s.place t) → Carries p) (hplace : s'.place = Function.update s.place t p)
    (hshared : s'.shared = s.shared) : Expected s' := by
  have hsleeps {v : ι} {c : RdwrCall} (hv : s'.place v = .asleep c) : s.place v = .asleep c := by
    rw [hplace] at hv
    by_cases hvt : v = t
    · rw [hvt, Function.update_self] at hv
      exact absurd hv (hp c)
    · rwa [Function.update_of_ne hvt] at hv
  refine ⟨fun v c hv => h.calls v c (hsleeps hv), ?_, ?_⟩
  · intro v hv
    rw [hshared]
    refine (h.readers v (hsleeps hv)).imp_right fun hu => ?_
    obtain ⟨u, hu⟩ := hu
    refine ⟨u, ?_⟩
    rw [hplace]
    by_cases hut : u = t
    · rw [hut, Function.update_self, hbroadcast (hut ▸ hu), ← hut, hu]
    · rw [Function.update_of_ne hut, hu]
  · intro v hv
    rw [hshared]
    refine (h.writers v (hsleeps hv)).imp_right fun hu => ?_
    obtain ⟨u, hu⟩ := hu
    refine ⟨u, ?_⟩
    rw [hplace]
    by_cases hut : u = t
    · rw [hut, Function.update_self]
      exact hcarries (hut ▸ hu)
    · rwa [Function.update_of_ne hut]

/-- A thread that finds the lock taken goes to sleep. -/
theorem Expected.wait (h : Expected s) (hlocked : Locked s) {t : ι} {c : RdwrCall}
    (ht : s.place t = .testing c) (hbusy : c = .rlock ∧ s.shared.writerWriting ≠ 0 ∨
      c = .wlock ∧ (s.shared.writerWriting ≠ 0 ∨ s.shared.readersReading ≠ 0))
    (hplace : s'.place = Function.update s.place t (.asleep c)) (hshared : s'.shared = s.shared) :
    Expected s' := by
  have hin : (s.place t).inside = true := by rw [ht]; rfl
  have hsleeps {x : ι} {c' : RdwrCall} (hx : s'.place x = .asleep c') :
      s.place x = .asleep c' ∨ c' = c := by
    rw [hplace] at hx
    by_cases hxt : x = t
    · rw [hxt, Function.update_self] at hx
      cases hx
      exact .inr rfl
    · rw [Function.update_of_ne hxt] at hx
      exact .inl hx
  refine ⟨?_, ?_, ?_⟩
  · intro x c' hx
    rcases hsleeps hx with hx | rfl
    · exact h.calls x c' hx
    · exact hbusy.imp And.left And.left
  · intro x hx
    rw [hshared]
    left
    rcases hsleeps hx with hx | rfl
    · refine (h.writer_of_inside hlocked hin hx).resolve_right ?_
      rw [ht]
      exact nofun
    · simpa using hbusy
  · intro x hx
    rw [hshared]
    rcases hsleeps hx with hx | rfl
    · rcases h.carrier_of_inside hlocked hin hx with hfree | hcarries | ⟨u, hut, hu⟩
      · exact .inl hfree
      · -- it was this thread, and it finds the lock taken
        rw [ht] at hcarries
        cases hcarries
        exact .inl (by simpa [Rdwr.Busy] using hbusy)
      · refine .inr ⟨u, ?_⟩
        rw [hplace, Function.update_of_ne hut, hu]
        exact .locking
    · exact .inl (by simpa [Rdwr.Busy] using hbusy)

/-- A thread that wakes the others, and is about to unlock the mutex. -/
theorem Expected.wake (h : Expected s) (hlocked : Locked s) {t u : ι} {w : Wake}
    (ht : s.place t = .waking w)
    (hplace : s'.place = Function.update (wakeUp w u s.place) t .unlocking)
    (hshared : s'.shared = s.shared) : Expected s' := by
  have hin : (s.place t).inside = true := by rw [ht]; rfl
  have hsleeps {x : ι} {c : RdwrCall} (hx : s'.place x = .asleep c) :
      wakeUp w u s.place x = .asleep c := by
    rw [hplace] at hx
    by_cases hxt : x = t
    · rw [hxt, Function.update_self] at hx
      cases hx
    · rwa [Function.update_of_ne hxt] at hx
  have hwriter {x : ι} (hx : s.place x = .asleep .rlock) (hw : w ≠ .broadcast) :
      s.shared.writerWriting ≠ 0 := by
    refine (h.writer_of_inside hlocked hin hx).resolve_right ?_
    rw [ht]
    exact fun heq => hw (Place.waking.inj heq)
  refine ⟨?_, ?_, ?_⟩
  · intro x c hx
    exact h.calls x c (asleep_of_wakeUp (hsleeps hx)).1
  · intro x hx
    rw [hshared]
    obtain ⟨hx, hw⟩ := asleep_of_wakeUp (hsleeps hx)
    exact .inl (hwriter hx hw)
  · intro x hx
    rw [hshared]
    obtain ⟨hxs, hw⟩ := asleep_of_wakeUp (hsleeps hx)
    rcases h.carrier_of_inside hlocked hin hxs with hfree | hcarries | ⟨v, hvt, hv⟩
    · exact .inl hfree
    · -- the signal wakes one thread, and if that is a writer it takes over
      rw [ht] at hcarries
      cases hcarries with
      | broadcast => exact absurd rfl hw
      | signal =>
          obtain ⟨c, hu, hu'⟩ := locking_of_signal (hsleeps hx)
          rcases h.calls u c hu with rfl | rfl
          · exact .inl (.inl (hwriter hu hw))
          · have hut : u ≠ t := by
              intro heq
              rw [heq, ht] at hu
              cases hu
            refine .inr ⟨u, ?_⟩
            rw [hplace, Function.update_of_ne hut, hu']
            exact .locking
    · have hsame : wakeUp w u s.place v = .locking .wlock := by
        rcases wakeUp_eq w u s.place v with hv' | hv'
        · rw [hv', hv]
        · rw [hv', hv]
          rfl
      refine .inr ⟨v, ?_⟩
      rw [hplace, Function.update_of_ne hvt, hsame]
      exact .locking

variable [Fintype ι]

/-- A call that does not wait. The one that leaves the lock free is about to wake somebody. -/
theorem Expected.done (h : Expected s) (hlocked : Locked s) (hcounted : users.Counted s) {t : ι}
    {c : RdwrCall} (ht : s.place t = .testing c) {v : Rdwr} {w : Wake}
    (hreturns : Rdwr.Returns c s.shared v w 0)
    (hplace : s'.place = Function.update s.place t (.waking w)) (hshared : s'.shared = v) :
    Expected s' := by
  have hin : (s.place t).inside = true := by rw [ht]; rfl
  have hsleeps {x : ι} {c' : RdwrCall} (hx : s'.place x = .asleep c') : s.place x = .asleep c' := by
    rw [hplace] at hx
    by_cases hxt : x = t
    · rw [hxt, Function.update_self] at hx
      cases hx
    · rwa [Function.update_of_ne hxt] at hx
  have hself : s'.place t = .waking w := by rw [hplace, Function.update_self]
  refine ⟨fun x c' hx => h.calls x c' (hsleeps hx), ?_, ?_⟩
  · intro x hx
    have hbefore : s.shared.writerWriting ≠ 0 := by
      refine (h.writer_of_inside hlocked hin (hsleeps hx)).resolve_right ?_
      rw [ht]
      exact nofun
    rw [hshared]
    cases hreturns with
    | rlock _ hfree => exact absurd hfree hbefore
    | runlock _ _ _ hreader _ _ =>
        have hzero := hcounted.exclusive hbefore
        omega
    | wlock => exact .inl Nat.one_ne_zero
    | wunlock => exact .inr ⟨t, hself⟩
  · intro x hx
    rw [hshared]
    cases hreturns with
    | rlock => exact .inl (.inr (Nat.succ_ne_zero _))
    | runlock _ _ _ _ _ hwake =>
        by_cases hlast : v.readersReading = 0
        · rw [if_pos hlast] at hwake
          refine .inr ⟨t, ?_⟩
          rw [hself, hwake]
          exact .signal
        · exact .inl (.inr hlast)
    | wlock => exact .inl (.inl Nat.one_ne_zero)
    | wunlock =>
        refine .inr ⟨t, ?_⟩
        rw [hself]
        exact .broadcast

theorem Expected.move (h : Expected s) (hlocked : Locked s) (hcounted : users.Counted s)
    (hmove : Move users.monitor s e s') : Expected s' := by
  cases hmove with
  | call t c hplace hmay =>
      refine h.update (t := t) (p := .locking c) (fun _ => nofun) ?_ ?_ rfl rfl
      · rw [hplace]
        exact nofun
      · rw [hplace]
        exact nofun
  | lock t u c hplace howner =>
      refine h.update (t := t) (p := .testing c) (fun _ => nofun) ?_ ?_ rfl rfl
      · rw [hplace]
        exact nofun
      · rw [hplace]
        intro hcarries
        cases hcarries
        exact .testing
  | wait t u c c' v hplace htest =>
      obtain ⟨rfl, rfl, hbusy⟩ := Rdwr.waits_of_test htest
      exact h.wait hlocked hplace hbusy rfl rfl
  | done t u c v w r hplace htest =>
      have hreturns := Rdwr.returns_of_test htest
      have hphase := hcounted.pending_phase (t := t) (c := c) (by rw [hplace]; rfl)
      have hzero := hcounted.returns_zero hphase hreturns
      subst hzero
      exact h.done hlocked hcounted hplace hreturns rfl rfl
  | wake t u w hplace => exact h.wake hlocked hplace rfl rfl
  | unlock t u hplace =>
      refine h.update (t := t) (p := .outside) (fun _ => nofun) ?_ ?_ rfl rfl
      · rw [hplace]
        exact nofun
      · rw [hplace]
        exact nofun
  | work t w p d hplace hwork => exact ⟨h.calls, h.readers, h.writers⟩
  | spurious t c hplace =>
      refine h.update (t := t) (p := .locking c) (fun _ => nofun) ?_ ?_ rfl rfl
      · rw [hplace]
        exact nofun
      · rw [hplace]
        exact nofun

/-- What holds of the lock in every reachable state. -/
structure Sound (users : RdwrUsers ι P D W) (s : State ι Rdwr RdwrCall P D) : Prop where
  locked : Locked s
  counted : users.Counted s
  expected : Expected s

theorem sound_of_reachable (h : Transition.Reachable users.monitor.step users.Init s) :
    users.Sound s := by
  refine invariant_of_moves ?_ ?_ h
  · intro s hs
    refine ⟨?_, counted_init hs, expected_init hs⟩
    intro t
    rw [hs.2.1, hs.2.2.1 t]
    simp [Place.inside]
  · intro s e s' hs hmove
    exact ⟨hs.locked.move hmove, hs.counted.move hmove,
      hs.expected.move hs.locked hs.counted hmove⟩

omit [DecidableEq ι] in
theorem not_busy_of_out (h : users.Counted s)
    (hout : ∀ t, users.phase (s.task t) = .out) : ¬ s.shared.Busy := by
  have hnone (q : Phase) (hq : q ≠ .out) : ∑ t, users.count q (s.task t) = 0 := by
    refine Finset.sum_eq_zero fun t _ => if_neg ?_
    rw [hout t]
    exact Ne.symm hq
  rw [Rdwr.Busy, h.readers, h.writers, hnone .reading (by decide),
    hnone .writing (by decide)]
  simp

omit [DecidableEq ι] in
/-- When nobody outside has the lock and all others sleep, then nobody sleeps. -/
theorem Sound.outside_of_asleep (h : users.Sound s)
    (hall : ∀ t, s.place t = .outside ∧ users.phase (s.task t) = .out ∨
      (s.place t).isAsleep = true) (t : ι) : s.place t = .outside := by
  have hout (u : ι) : users.phase (s.task u) = .out := by
    rcases hall u with houtside | hasleep
    · exact houtside.2
    · obtain ⟨c, hc⟩ := (Place.isAsleep_iff _).mp hasleep
      have hphase := h.counted.pending_phase (t := u) (c := c) (by rw [hc]; rfl)
      rcases h.expected.calls u c hc with rfl | rfl
      · exact hphase
      · exact hphase
  have hawake := h.expected.not_asleep (not_busy_of_out h.counted hout) fun u =>
    (hall u).imp_left And.left
  refine ((hall t).imp_left And.left).resolve_right ?_
  rw [hawake t]
  exact nofun

end

end RdwrUsers

/-! ## Threads that come to an end -/

section

variable {ι : Type*} {s s' : State ι Rdwr RdwrCall Phase Unit} {e : Turn ι RdwrCall Empty}

/-- A thread that has the lock still gives it back, and one that is about to take it does so
after that. -/
def plainDrain (ι : Type*) : Drain (plainUsers ι).monitor where
  idle q := if q = .out then 0 else 1
  left _ c := if c.after = .out then 0 else 1
  done_le _ _ _ _ _ _ _ := Nat.le_refl _
  wait_le p c s v c' h := by
    obtain ⟨-, rfl, -⟩ := Rdwr.waits_of_test h
    exact Nat.le_refl _

theorem settled_iff (t : ι) :
    (plainDrain ι).Settled s t ↔ s.place t = .outside ∧ s.task t = .out := by
  refine and_congr_right fun _ => ?_
  simp [plainDrain]

variable [DecidableEq ι]

/-- A thread that asks for the lock goes on asking until it has it. -/
theorem pending_or_holds_of_move (hmove : Move (plainUsers ι).monitor s e s') {t : ι}
    {c : RdwrCall} (hc : (s.place t).pending = some c) :
    (s'.place t).pending = some c ∨ s'.task t = c.after := by
  have hkept (u : ι) (p : Place RdwrCall) (hp : u = t → p.pending = some c) :
      (Function.update s.place u p t).pending = some c := by
    by_cases hut : t = u
    · rw [hut, Function.update_self]
      exact hp hut.symm
    · rwa [Function.update_of_ne hut]
  cases hmove with
  | call u c' hplace _ =>
      refine .inl (hkept u _ fun hut => ?_)
      rw [← hut, hplace] at hc
      cases hc
  | lock u _ c' hplace _ =>
      refine .inl (hkept u _ fun hut => ?_)
      rwa [← hut, hplace] at hc
  | wait u _ c' c'' v hplace htest =>
      obtain ⟨-, rfl, -⟩ := Rdwr.waits_of_test htest
      refine .inl (hkept u _ fun hut => ?_)
      rwa [← hut, hplace] at hc
  | done u _ c' v w r hplace _ =>
      by_cases hut : t = u
      · right
        rw [hut, hplace] at hc
        cases hc
        simp only [hut, Function.update_self]
        rfl
      · refine .inl (hkept u _ fun heq => absurd heq.symm hut)
  | wake u v w hplace =>
      left
      by_cases hut : t = u
      · rw [hut, hplace] at hc
        cases hc
      · simp only [Function.update_of_ne hut, pending_wakeUp, hc]
  | unlock u _ hplace =>
      refine .inl (hkept u _ fun hut => ?_)
      rw [← hut, hplace] at hc
      cases hc
  | work => exact .inl hc
  | spurious u c' hplace =>
      refine .inl (hkept u _ fun hut => ?_)
      rwa [← hut, hplace] at hc

theorem exists_holds_of_settled {t : ι} {c : RdwrCall} {es : List (Turn ι RdwrCall Empty)}
    (hc : (s.place t).pending = some c)
    (hsettled : (Transition.exec (plainUsers ι).monitor.step s es).place t = .outside) :
    ∃ fs, fs <+: es ∧ (Transition.exec (plainUsers ι).monitor.step s fs).task t = c.after := by
  induction es generalizing s with
  | nil =>
      rw [Transition.exec_nil] at hsettled
      rw [hsettled] at hc
      cases hc
  | cons e es ih =>
      have hnext : (((plainUsers ι).monitor.step s e).place t).pending = some c ∨
          ((plainUsers ι).monitor.step s e).task t = c.after := by
        rcases move_or_idle (plainUsers ι).monitor s e with hmove | hidle
        · exact pending_or_holds_of_move hmove hc
        · rw [hidle]
          exact .inl hc
      rcases hnext with hnext | hnext
      · obtain ⟨fs, hfs, hholds⟩ := ih hnext hsettled
        exact ⟨e :: fs, List.cons_prefix_cons.mpr ⟨rfl, hfs⟩, hholds⟩
      · exact ⟨[e], List.cons_prefix_cons.mpr ⟨rfl, List.nil_prefix⟩, hnext⟩

variable [Fintype ι]

/-- Somebody goes on until nobody is in the lock's code or has the lock. -/
theorem exists_takes_of_sound (h : (plainUsers ι).Sound s)
    (hnot : ¬ ∀ t, (plainDrain ι).Settled s t) : ∃ e, (plainDrain ι).Takes s e := by
  refine (plainDrain ι).exists_takes h.locked ?_ ?_ hnot
  · intro t hplace hidle
    have hgive (c : RdwrCall) (hc : s.task t = c.before) (hafter : c.after = .out) :
        ∃ e, (plainDrain ι).Takes s e := by
      refine ⟨_, .call t c _ (.call t c hplace (decide_eq_true hc)) ?_⟩
      have hleft : (plainDrain ι).left (s.task t) c = 0 := if_pos hafter
      omega
    cases hphase : s.task t with
    | out =>
        rw [hphase] at hidle
        exact absurd hidle (Nat.lt_irrefl 0)
    | reading => exact hgive .runlock hphase rfl
    | writing => exact hgive .wunlock hphase rfl
  · intro hall
    have houtside := h.outside_of_asleep fun t =>
      (hall t).imp_left fun hsettled => (settled_iff t).mp hsettled
    intro t
    refine (hall t).resolve_right ?_
    rw [houtside t]
    exact nofun

/-- From every reachable state on, when nobody makes a new request: somebody goes on until all
threads are outside without the lock, that takes a bounded number of steps whatever their
order, and by then every thread that asked for the lock has had it. -/
theorem rdwrLock_drains
    (h : Transition.Reachable (plainUsers ι).monitor.step (plainUsers ι).Init s) :
    (∀ es, Transition.Meets (plainUsers ι).monitor.step (plainDrain ι).Takes s es →
      es.length ≤ (plainDrain ι).rank s ∧
      ((∃ e, (plainDrain ι).Takes (Transition.exec (plainUsers ι).monitor.step s es) e) ∨
        (∀ t, (plainDrain ι).Settled (Transition.exec (plainUsers ι).monitor.step s es) t) ∧
        ∀ t c, (s.place t).pending = some c → ∃ fs, fs <+: es ∧
          (Transition.exec (plainUsers ι).monitor.step s fs).task t = c.after)) := by
  intro es hes
  refine ⟨(plainDrain ι).length_le_rank hes, ?_⟩
  by_cases hall : ∀ t, (plainDrain ι).Settled (Transition.exec (plainUsers ι).monitor.step s es) t
  · refine .inr ⟨hall, ?_⟩
    intro t c hc
    exact exists_holds_of_settled hc (hall t).1
  · exact .inl (exists_takes_of_sound (RdwrUsers.sound_of_reachable (h.after es)) hall)

end

/-- The reader gives the lock back, and a writer sleeps. -/
theorem rdwrLock_drains_waiting_writer :
    let run : List (Turn (Fin 2) RdwrCall Empty) := [.call 0 .rlock, .run 0 0, .run 0 0, .run 0 0,
      .run 0 0, .call 1 .wlock, .run 1 1, .run 1 1]
    let s := Transition.exec (plainUsers (Fin 2)).monitor.step (plainStart (Fin 2)) run
    let es : List (Turn (Fin 2) RdwrCall Empty) := [.call 0 .runlock]
    s.place 1 = .asleep .wlock ∧ es.length ≤ (plainDrain (Fin 2)).rank s ∧
      ((∃ e, (plainDrain (Fin 2)).Takes
          (Transition.exec (plainUsers (Fin 2)).monitor.step s es) e) ∨
        (∀ t, (plainDrain (Fin 2)).Settled
          (Transition.exec (plainUsers (Fin 2)).monitor.step s es) t) ∧
        ∀ t c, (s.place t).pending = some c → ∃ fs, fs <+: es ∧
          (Transition.exec (plainUsers (Fin 2)).monitor.step s fs).task t = c.after) := by
  intro run s es
  refine ⟨by decide, ?_⟩
  have hreach : Transition.Reachable (plainUsers (Fin 2)).monitor.step
      (plainUsers (Fin 2)).Init s :=
    ⟨_, run, plainStart_init (Fin 2), rfl⟩
  have htakes : (plainDrain (Fin 2)).Takes s (.call 0 .runlock) :=
    .call 0 RdwrCall.runlock _ (.call 0 RdwrCall.runlock rfl rfl) Nat.zero_lt_one
  exact rdwrLock_drains hreach es ⟨htakes, trivial⟩

end TruckControl
