import TruckControl.Verification.ListAtomic
import TruckControl.Verification.RdwrProgress

/-!
# The threads at the list do not block each other

A thread that is in one of the functions goes on, or waits for the lock, and then there is
another one that goes on.
-/

namespace TruckControl

open LinkedList Monitor

namespace ListTask

variable {l : OllistT} {p : ListTask}

/-- `malloc` finds a block. -/
def CanAlloc (l : OllistT) : Prop :=
  (∃ block, l.data.live block = false) ∧ ∃ block, l.nodes.live block = false

/-- In a function there is always a next statement, or a call of the lock. -/
theorem go_or_may (left : OData → OData) (hat : p.At l) (halloc : CanAlloc l)
    (hidle : p ≠ .idle) :
    (∃ block, (p.work left l (.go block)).isSome) ∨ ∃ c, p.may c = true := by
  obtain ⟨⟨record, hrecord⟩, node, hnode⟩ := halloc
  cases p with
  | idle => exact absurd rfl hidle
  | findData index => exact .inr ⟨.rlock, rfl⟩
  | findEnd status datap => exact .inr ⟨.runlock, rfl⟩
  | insertData index datap2 => exact .inr ⟨.wlock, rfl⟩
  | insertEnd => exact .inr ⟨.wunlock, rfl⟩
  | insertLocked index datap2 =>
      refine .inl ⟨record, ?_⟩
      rw [work, go, hrecord]
      rfl
  | allocating index datap cur prev =>
      refine .inl ⟨node, ?_⟩
      rw [work, go, hnode]
      rfl
  | findLocked | finding | findReturn | inserting | linking | insertReturn =>
      exact .inl ⟨0, rfl⟩
  | fault phase => exact absurd hat id

end ListTask

namespace ListThreads

variable {ι : Type*} [Fintype ι] [DecidableEq ι] {left : OData → OData} {s : ListThreads ι}

/-- The events with which a thread goes on in a function, in the lock or outside of it. -/
inductive GoesOn : Turn ι RdwrCall ListWork → Prop where
  | call (t : ι) (c : RdwrCall) : GoesOn (.call t c)
  | run (t u : ι) : GoesOn (.run t u)
  | go (t : ι) (block : ℕ) : GoesOn (.work t (.go block))

/-- Nothing is left of any call. -/
def AllReturned (s : ListThreads ι) : Prop :=
  ∀ t, s.place t = .outside ∧ s.task t = .idle

theorem sound_of_reachable (h : Transition.Reachable (listUsers left ι).monitor.step Init s) :
    (listUsers left ι).Sound s := by
  obtain ⟨s₀, es, h₀, rfl⟩ := h
  refine RdwrUsers.sound_of_reachable ⟨s₀, es, ?_, rfl⟩
  obtain ⟨hshared, howner, hplace, htask, -⟩ := h₀
  refine ⟨hshared, howner, hplace, ?_⟩
  intro t
  rw [htask t]
  rfl

/-- The code of the lock, apart from what is called when. -/
def lockDrain (left : OData → OData) (ι : Type*) : Drain (listUsers left ι).monitor where
  idle _ := 0
  left _ _ := 0
  done_le _ _ _ _ _ _ _ := Nat.le_refl _
  wait_le _ _ _ _ _ _ := Nat.le_refl _

omit [Fintype ι] in
/-- A thread in the code of the lock that does not sleep. -/
theorem goesOn_of_place (hlocked : Locked s) {t : ι} (houtside : s.place t ≠ .outside)
    (hasleep : (s.place t).isAsleep = false) :
    ∃ e s', Move (listUsers left ι).monitor s e s' ∧ GoesOn e := by
  obtain ⟨e, he⟩ := (lockDrain left ι).exists_takes_of_place hlocked houtside hasleep
  cases he with
  | call t c s' hmove => exact ⟨_, s', hmove, .call t c⟩
  | run t u s' hmove => exact ⟨_, s', hmove, .run t u⟩
  | work t w p x hplace hwork hless => exact absurd hless (Nat.lt_irrefl 0)

omit [Fintype ι] in
/-- A thread that is in a function, and not in the lock. -/
theorem goesOn_of_task (halloc : ListTask.CanAlloc s.data) {t : ι} (hat : (s.task t).At s.data)
    (houtside : s.place t = .outside) (hidle : s.task t ≠ .idle) :
    ∃ e s', Move (listUsers left ι).monitor s e s' ∧ GoesOn e := by
  rcases ListTask.go_or_may left hat halloc hidle with ⟨block, hgo⟩ | ⟨c, hmay⟩
  · obtain ⟨⟨p, l⟩, hwork⟩ := Option.isSome_iff_exists.mp hgo
    have hmonitor : (listUsers left ι).monitor.work t (.go block) (s.task t) s.data =
        some (p, l) := hwork
    exact ⟨_, _, .work t (.go block) p l houtside hmonitor, .go t block⟩
  · exact ⟨_, _, .call t c houtside hmay, .call t c⟩

/-- In every reachable state in which `malloc` finds a block, some thread goes on in what it
does, until every call of the functions has returned. -/
theorem list_goes_on (h : Transition.Reachable (listUsers left ι).monitor.step Init s)
    (halloc : ListTask.CanAlloc s.data) (hnot : ¬ AllReturned s) :
    ∃ e s', Move (listUsers left ι).monitor s e s' ∧ GoesOn e := by
  have hsound := sound_of_reachable h
  obtain ⟨a, ha, -⟩ := exists_follows h
  by_contra hnone
  have hidle (t : ι) (houtside : s.place t = .outside) : s.task t = .idle := by
    by_contra hne
    exact hnone (goesOn_of_task halloc (ha.knows t) houtside hne)
  have hall (t : ι) : s.place t = .outside ∧ (s.task t).phase = .out ∨
      (s.place t).isAsleep = true := by
    by_cases houtside : s.place t = .outside
    · refine .inl ⟨houtside, ?_⟩
      rw [hidle t houtside]
      rfl
    · refine .inr ?_
      by_contra hasleep
      exact hnone (goesOn_of_place hsound.locked houtside (Bool.not_eq_true _ ▸ hasleep))
  apply hnot
  intro t
  have houtside := hsound.outside_of_asleep hall t
  exact ⟨houtside, hidle t houtside⟩

/-- One thread inserts, and another one sleeps until it may search. -/
theorem list_goes_on_waiting_reader :
    let es : List (Turn (Fin 2) RdwrCall ListWork) := [.work 0 (.insert 3 9), .call 0 .wlock,
      .run 0 0, .run 0 0, .run 0 0, .run 0 0, .work 1 (.find 3), .call 1 .rlock, .run 1 1, .run 1 1]
    let s := Transition.exec (listUsers id (Fin 2)).monitor.step (listStart (Fin 2)) es
    s.place 1 = .asleep .rlock ∧
      ∃ e s', Move (listUsers id (Fin 2)).monitor s e s' ∧ GoesOn e := by
  intro es s
  have hasleep : s.place 1 = .asleep .rlock := rfl
  refine ⟨hasleep, list_goes_on ⟨_, es, listStart_init, rfl⟩ ⟨⟨0, rfl⟩, 0, rfl⟩ ?_⟩
  intro hall
  have houtside := (hall 1).1
  rw [hasleep] at houtside
  cases houtside

end ListThreads

end TruckControl
