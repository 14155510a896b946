import Mathlib.Logic.Function.Basic
import TruckControl.Library.Transition

/-!
# Monitors

Threads call procedures that test shared variables under a mutex, and wait on a condition
variable while the test fails. Between its calls a thread works on data of its own choice.
-/

namespace TruckControl.Monitor

/-- Who is woken at the end of a procedure. -/
inductive Wake where
  | nobody
  | signal
  | broadcast
  deriving DecidableEq

/-- What a test comes to: wait and go on with `c` afterwards, or return `r`. -/
inductive Outcome (S C R : Type*) where
  | wait (s : S) (c : C)
  | done (s : S) (w : Wake) (r : R)

/-- Where a thread is in the code of a procedure. -/
inductive Place (C : Type*) where
  | outside
  | locking (c : C)
  | testing (c : C)
  | asleep (c : C)
  | waking (w : Wake)
  | unlocking
  deriving DecidableEq

namespace Place

variable {C : Type*}

/-- The mutex is held here. -/
def inside : Place C → Bool
  | testing _ | waking _ | unlocking => true
  | outside | locking _ | asleep _ => false

def isAsleep : Place C → Bool
  | asleep _ => true
  | _ => false

/-- A thread that waits is made to lock the mutex again. -/
def awake : Place C → Place C
  | asleep c => locking c
  | p => p

/-- The call whose test is still to come. -/
def pending : Place C → Option C
  | locking c | testing c | asleep c => some c
  | outside | waking _ | unlocking => none

theorem isAsleep_iff (p : Place C) : p.isAsleep = true ↔ ∃ c, p = asleep c := by
  cases p <;> simp [isAsleep]

theorem awake_ne_asleep (p : Place C) (c : C) : p.awake ≠ asleep c := by
  cases p <;> simp [awake]

@[simp] theorem pending_awake (p : Place C) : p.awake.pending = p.pending := by
  cases p <;> rfl

@[simp] theorem inside_awake (p : Place C) : p.awake.inside = p.inside := by
  cases p <;> rfl

end Place

end Monitor

open Monitor

/-- The procedures (`test`), and the threads that use them: the calls that a thread may make,
what it does with the result, and its work in between, for which the environment has a choice. -/
structure Monitor (ι S C R P D W : Type*) where
  test : C → S → Outcome S C R
  may : P → C → Bool
  next : P → C → R → P
  work : ι → W → P → D → Option (P × D)

namespace Monitor

structure State (ι S C P D : Type*) where
  shared : S
  owner : Option ι
  place : ι → Place C
  task : ι → P
  data : D

/-- A thread starts a call, makes its next step in one, works, or wakes up by itself. A signal
wakes `u` if it waits. -/
inductive Turn (ι C W : Type*) where
  | call (t : ι) (c : C)
  | run (t u : ι)
  | work (t : ι) (w : W)
  | spurious (t : ι)

section

variable {ι S C P D : Type*} {s : State ι S C P D}

/-- The owner of the mutex is the thread that is inside. -/
def Locked (s : State ι S C P D) : Prop :=
  ∀ t, s.owner = some t ↔ (s.place t).inside = true

theorem Locked.unique (h : Locked s) {t u : ι} (ht : (s.place t).inside = true)
    (hu : (s.place u).inside = true) : t = u := by
  have hboth := (h t).mpr ht
  rw [(h u).mpr hu] at hboth
  exact (Option.some.inj hboth).symm

theorem Locked.outside_of_ne (h : Locked s) {t u : ι} (ht : (s.place t).inside = true)
    (hu : u ≠ t) : (s.place u).inside = false := by
  by_contra hne
  exact hu (h.unique (Bool.not_eq_false _ ▸ hne) ht)

end

section

variable {ι S C R P D W : Type*} [DecidableEq ι]

/-- A signal that cannot wake `u` wakes all: it may wake more than one thread. -/
def wakeUp (w : Wake) (u : ι) (place : ι → Place C) : ι → Place C :=
  match w with
  | .nobody => place
  | .signal =>
      if (place u).isAsleep then Function.update place u (place u).awake
      else fun v => (place v).awake
  | .broadcast => fun v => (place v).awake

/-- The next step of a thread that is in the code of a procedure. -/
def run (M : Monitor ι S C R P D W) (s : State ι S C P D) (t u : ι) : State ι S C P D :=
  match s.place t with
  | .outside | .asleep _ => s
  | .locking c =>
      match s.owner with
      | some _ => s
      | none => { s with owner := some t, place := Function.update s.place t (.testing c) }
  | .testing c =>
      match M.test c s.shared with
      | .wait v c' =>
          { s with
            shared := v
            owner := none
            place := Function.update s.place t (.asleep c') }
      | .done v w r =>
          { s with
            shared := v
            place := Function.update s.place t (.waking w)
            task := Function.update s.task t (M.next (s.task t) c r) }
  | .waking w => { s with place := Function.update (wakeUp w u s.place) t .unlocking }
  | .unlocking => { s with owner := none, place := Function.update s.place t .outside }

def step (M : Monitor ι S C R P D W) (s : State ι S C P D) : Turn ι C W → State ι S C P D
  | .call t c =>
      match s.place t with
      | .outside =>
          if M.may (s.task t) c then
            { s with place := Function.update s.place t (.locking c) }
          else s
      | _ => s
  | .run t u => M.run s t u
  | .work t w =>
      match s.place t with
      | .outside =>
          match M.work t w (s.task t) s.data with
          | none => s
          | some (p, d) => { s with task := Function.update s.task t p, data := d }
      | _ => s
  | .spurious t =>
      match s.place t with
      | .asleep c => { s with place := Function.update s.place t (.locking c) }
      | _ => s

/-! ## What a step does -/

/-- The events that do something, with the state they lead to. -/
inductive Move (M : Monitor ι S C R P D W) (s : State ι S C P D) :
    Turn ι C W → State ι S C P D → Prop where
  | call (t : ι) (c : C) (hplace : s.place t = .outside) (hmay : M.may (s.task t) c = true) :
      Move M s (.call t c) { s with place := Function.update s.place t (.locking c) }
  | lock (t u : ι) (c : C) (hplace : s.place t = .locking c) (howner : s.owner = none) :
      Move M s (.run t u)
        { s with owner := some t, place := Function.update s.place t (.testing c) }
  | wait (t u : ι) (c c' : C) (v : S) (hplace : s.place t = .testing c)
      (htest : M.test c s.shared = .wait v c') :
      Move M s (.run t u)
        { s with shared := v, owner := none, place := Function.update s.place t (.asleep c') }
  | done (t u : ι) (c : C) (v : S) (w : Wake) (r : R) (hplace : s.place t = .testing c)
      (htest : M.test c s.shared = .done v w r) :
      Move M s (.run t u)
        { s with
          shared := v
          place := Function.update s.place t (.waking w)
          task := Function.update s.task t (M.next (s.task t) c r) }
  | wake (t u : ι) (w : Wake) (hplace : s.place t = .waking w) :
      Move M s (.run t u) { s with place := Function.update (wakeUp w u s.place) t .unlocking }
  | unlock (t u : ι) (hplace : s.place t = .unlocking) :
      Move M s (.run t u) { s with owner := none, place := Function.update s.place t .outside }
  | work (t : ι) (w : W) (p : P) (d : D) (hplace : s.place t = .outside)
      (hwork : M.work t w (s.task t) s.data = some (p, d)) :
      Move M s (.work t w) { s with task := Function.update s.task t p, data := d }
  | spurious (t : ι) (c : C) (hplace : s.place t = .asleep c) :
      Move M s (.spurious t) { s with place := Function.update s.place t (.locking c) }

variable {M : Monitor ι S C R P D W} {s s' : State ι S C P D}

/-- Every event is a move, or it cannot be taken now. -/
theorem move_or_idle (M : Monitor ι S C R P D W) (s : State ι S C P D) (e : Turn ι C W) :
    Move M s e (M.step s e) ∨ M.step s e = s := by
  cases e with
  | call t c =>
      rw [step]
      split
      · rename_i hplace
        split
        · rename_i hmay
          exact .inl (.call t c hplace hmay)
        · exact .inr rfl
      · exact .inr rfl
  | run t u =>
      rw [step, run]
      split
      · exact .inr rfl
      · exact .inr rfl
      · rename_i c hplace
        split
        · exact .inr rfl
        · rename_i howner
          exact .inl (.lock t u c hplace howner)
      · rename_i c hplace
        split
        · rename_i v c' htest
          exact .inl (.wait t u c c' v hplace htest)
        · rename_i v w r htest
          exact .inl (.done t u c v w r hplace htest)
      · rename_i w hplace
        exact .inl (.wake t u w hplace)
      · rename_i hplace
        exact .inl (.unlock t u hplace)
  | work t w =>
      rw [step]
      split
      · rename_i hplace
        split
        · exact .inr rfl
        · rename_i p d hwork
          exact .inl (.work t w p d hplace hwork)
      · exact .inr rfl
  | spurious t =>
      rw [step]
      split
      · rename_i c hplace
        exact .inl (.spurious t c hplace)
      · exact .inr rfl

/-- And a move is what the event does. -/
theorem Move.step_eq {e : Turn ι C W} (h : Move M s e s') : M.step s e = s' := by
  cases h with
  | call t c hplace hmay => simp only [step, hplace, hmay, if_true]
  | lock t u c hplace howner => simp only [step, run, hplace, howner]
  | wait t u c c' v hplace htest => simp only [step, run, hplace, htest]
  | done t u c v w r hplace htest => simp only [step, run, hplace, htest]
  | wake t u w hplace => simp only [step, run, hplace]
  | unlock t u hplace => simp only [step, run, hplace]
  | work t w p d hplace hwork => simp only [step, hplace, hwork]
  | spurious t c hplace => simp only [step, hplace]

/-- What every move keeps holds of every reachable state. -/
theorem invariant_of_moves {init I : State ι S C P D → Prop} (hinit : ∀ s, init s → I s)
    (hmove : ∀ s e s', I s → Move M s e s' → I s')
    (h : Transition.Reachable M.step init s) : I s := by
  apply h.invariant hinit
  intro s e _ hs
  rcases move_or_idle M s e with hmoves | hidle
  · exact hmove s e _ hs hmoves
  · rwa [hidle]

/-! ## Waking up -/

theorem wakeUp_eq (w : Wake) (u : ι) (place : ι → Place C) (v : ι) :
    wakeUp w u place v = place v ∨ wakeUp w u place v = (place v).awake := by
  cases w with
  | nobody => exact .inl rfl
  | signal =>
      rw [wakeUp]
      split
      · by_cases hv : v = u
        · rw [hv, Function.update_self]
          exact .inr rfl
        · exact .inl (Function.update_of_ne hv _ _)
      · exact .inr rfl
  | broadcast => exact .inr rfl

theorem inside_wakeUp (w : Wake) (u : ι) (place : ι → Place C) (v : ι) :
    (wakeUp w u place v).inside = (place v).inside := by
  rcases wakeUp_eq w u place v with h | h
  · rw [h]
  · rw [h, Place.inside_awake]

theorem pending_wakeUp (w : Wake) (u : ι) (place : ι → Place C) (v : ι) :
    (wakeUp w u place v).pending = (place v).pending := by
  rcases wakeUp_eq w u place v with h | h
  · rw [h]
  · rw [h, Place.pending_awake]

/-- A thread is still asleep only if it was and the call was not a broadcast. -/
theorem asleep_of_wakeUp {w : Wake} {u v : ι} {place : ι → Place C} {c : C}
    (h : wakeUp w u place v = .asleep c) : place v = .asleep c ∧ w ≠ .broadcast := by
  have hsame : wakeUp w u place v = place v := by
    rcases wakeUp_eq w u place v with hv | hv
    · exact hv
    · rw [hv] at h
      exact absurd h (Place.awake_ne_asleep _ c)
  refine ⟨hsame ▸ h, ?_⟩
  intro hw
  rw [hw] at h
  exact Place.awake_ne_asleep (place v) c h

/-- A signal wakes the thread it is for if there are others that it does not wake. -/
theorem locking_of_signal {u v : ι} {place : ι → Place C} {c : C}
    (h : wakeUp .signal u place v = .asleep c) :
    ∃ c', place u = .asleep c' ∧ wakeUp .signal u place u = .locking c' := by
  cases hasleep : (place u).isAsleep with
  | true =>
      obtain ⟨c', hu⟩ := (Place.isAsleep_iff _).mp hasleep
      refine ⟨c', hu, ?_⟩
      rw [wakeUp, if_pos hasleep, Function.update_self, hu]
      rfl
  | false =>
      rw [wakeUp, hasleep] at h
      exact absurd h (Place.awake_ne_asleep (place v) c)

/-! ## The mutex -/

theorem Locked.move (h : Locked s) {e : Turn ι C W} (hmove : Move M s e s') : Locked s' := by
  have hkept (t : ι) (p : Place C) (hp : p.inside = (s.place t).inside) (v : ι) :
      s.owner = some v ↔ (Function.update s.place t p v).inside = true := by
    by_cases hv : v = t
    · rw [hv, Function.update_self, hp, h t]
    · rw [Function.update_of_ne hv, h v]
  have hleft (t : ι) (p : Place C) (hin : (s.place t).inside = true) (hp : p.inside = false)
      (v : ι) : none = some v ↔ (Function.update s.place t p v).inside = true := by
    by_cases hv : v = t
    · simp [hv, hp]
    · rw [Function.update_of_ne hv, h.outside_of_ne hin hv]
      simp
  cases hmove with
  | call t c hplace _ => exact hkept t _ (by rw [hplace]; rfl)
  | lock t u c hplace howner =>
      intro v
      by_cases hv : v = t
      · simp [hv, Place.inside]
      · have hnone : (s.place v).inside = false := by
          rw [← Bool.not_eq_true, ← h v, howner]
          simp
        simp [Function.update_of_ne hv, hnone, Ne.symm hv]
  | wait t u c c' v hplace _ => exact hleft t _ (by rw [hplace]; rfl) rfl
  | done t u c v w r hplace _ => exact hkept t _ (by rw [hplace]; rfl)
  | wake t u w hplace =>
      intro x
      by_cases hx : x = t
      · simp [hx, h t, hplace, Place.inside]
      · simp only [Function.update_of_ne hx, inside_wakeUp, h x]
  | unlock t u hplace => exact hleft t _ (by rw [hplace]; rfl) rfl
  | work t w p d _ _ => exact h
  | spurious t c hplace => exact hkept t _ (by rw [hplace]; rfl)

end

end Monitor

end TruckControl
