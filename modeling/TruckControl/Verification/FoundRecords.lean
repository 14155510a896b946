import TruckControl.Verification.ListAtomic

/-!
# How long a record that was found is there

`ollist_find_data` gives out a pointer to a record of the list, and the lock is given back
before the caller looks at it.
-/

namespace TruckControl

open LinkedList Monitor

/-- The list has the record at `p` for the index. -/
def OllistT.Has (l : OllistT) (i : ℤ) (p : ℕ) : Prop :=
  ∃ a, Reaches l.nodes l.first a ∧ (l.nodes.content a).key = i ∧ (l.nodes.content a).value = p

namespace AtomicTable

variable {ι κ α : Type*} [DecidableEq ι] [DecidableEq κ] {left : α → α} {a b : AtomicTable ι κ α}
  {seen : List (TableLabel ι κ α)} {key : κ} {p : ℕ}

/-- A record that is in the table stays there, allocated, or a copy is put in its place. -/
theorem Owned.keeps_or_puts (h : a.Owned) (hp : a.table key = some p)
    (hstep : Simulation.AtMostOne (Step left) a seen b) :
    b.table key = some p ∧ b.records.live p = true ∨
      ∃ t record, a.task t = .copied key record ∧ b.task t = .inserted ∧
        b.table key = some record ∧ record ≠ p ∧ b.records.live p = false := by
  have hlive := h.live key p hp
  cases hstep with
  | stay => exact .inl ⟨hp, hlive⟩
  | one hstep =>
      cases hstep with
      | find | look | found | insert | inserted => exact .inl ⟨hp, hlive⟩
      | store t record x ht => exact .inl ⟨hp, hlive⟩
      | copy t key' source record ht hfree =>
          exact .inl ⟨hp, a.records.live_alloc hlive record _⟩
      | put t key' record ht =>
          by_cases hkey : key = key'
          · subst hkey
            refine .inr ⟨t, record, ht, ?_, ?_, ?_, ?_⟩
            · simp only [Function.update_self]
            · simp only [Function.update_self]
            · intro heq
              rw [heq] at ht
              exact h.apart t key key p ht hp
            · simp only [hp, release, Memory.live_free_self]
          · refine .inl ⟨?_, ?_⟩
            · simp only [Function.update_of_ne hkey, hp]
            · simp only [live_release fun hp' => hkey (h.injective key key' p hp hp'), hlive]

/-- A copy that has been put is in the table. -/
theorem table_of_put {t : ι} {record : ℕ} (ht : a.task t = .copied key record)
    (hb : b.task t = .inserted) (hstep : Simulation.AtMostOne (Step left) a seen b) :
    b.table key = some record := by
  cases hstep with
  | stay =>
      rw [ht] at hb
      cases hb
  | one hstep =>
      have hother (u : ι) (x : TableTask κ) (hx : x ≠ .inserted) :
          Function.update a.task u x t ≠ .inserted := by
        by_cases htu : t = u
        · rwa [htu, Function.update_self]
        · rw [Function.update_of_ne htu, ht]
          exact nofun
      cases hstep with
      | find u key' hu => exact absurd hb (hother u (.find key') nofun)
      | look u key' hu => exact absurd hb (hother u (.found (a.table key')) nofun)
      | found u record' hu => exact absurd hb (hother u .idle nofun)
      | insert u key' source hu => exact absurd hb (hother u (.insert key' source) nofun)
      | copy u key' source record' hu hfree =>
          exact absurd hb (hother u (.copied key' record') nofun)
      | inserted u hu => exact absurd hb (hother u .idle nofun)
      | store u record x hu =>
          rw [ht] at hb
          cases hb
      | put u key' record' hu =>
          by_cases htu : t = u
          · subst htu
            rw [ht] at hu
            cases hu
            simp only [Function.update_self]
          · simp only [Function.update_of_ne htu, ht] at hb
            cases hb

end AtomicTable

namespace ListThreads

variable {ι : Type*} [Fintype ι] [DecidableEq ι] {left : OData → OData} {s : ListThreads ι}
  {a : AtomicTable ι ℤ OData} {i : ℤ} {p : ℕ}

/-- In this step an `ollist_insert_data` for the index takes effect. -/
def Replaces (left : OData → OData) (i : ℤ) (s : ListThreads ι)
    (e : Turn ι RdwrCall ListWork) : Prop :=
  ∃ t datap, (s.task t).op = .copied i datap ∧
    (((listUsers left ι).monitor.step s e).task t).op = .inserted

omit [DecidableEq ι] in
theorem Follows.has_iff (h : Follows left s a) : s.data.Has i p ↔ a.table i = some p := by
  obtain ⟨as, hindexes⟩ := h.indexes
  exact hindexes.eq_some_iff.symm

/-- A record of the list stays there while nothing is inserted at its index. -/
theorem has_step (h : Transition.Reachable (listUsers left ι).monitor.step Init s)
    (hp : s.data.Has i p) {e : Turn ι RdwrCall ListWork} (he : ¬ Replaces left i s e) :
    ((listUsers left ι).monitor.step s e).data.Has i p := by
  obtain ⟨a, ha, howned⟩ := exists_follows h
  obtain ⟨b, hstep, hb⟩ := ha.step e
  rcases howned.keeps_or_puts (ha.has_iff.mp hp) hstep with ⟨htable, -⟩ | hput
  · exact hb.has_iff.mpr htable
  · obtain ⟨t, datap, hbefore, hafter, -⟩ := hput
    exact absurd ⟨t, datap, (ha.tasks t).symm.trans hbefore, (hb.tasks t).symm.trans hafter⟩ he

/-- A record that is in the list stays there, and allocated, as long as nothing is inserted at
its index; and by such an insertion it is freed at once, and no longer in the list. -/
theorem record_until_replaced (h : Transition.Reachable (listUsers left ι).monitor.step Init s)
    (hp : s.data.Has i p) {es : List (Turn ι RdwrCall ListWork)}
    (hes : Transition.Meets (listUsers left ι).monitor.step (fun s e => ¬ Replaces left i s e) s
      es) :
    let s' := Transition.exec (listUsers left ι).monitor.step s es
    s'.data.Has i p ∧ s'.data.data.live p = true ∧
      ∀ e, Replaces left i s' e →
        let s'' := (listUsers left ι).monitor.step s' e
        ¬ s''.data.Has i p ∧ s''.data.data.live p = false := by
  intro s'
  have hhas : s'.data.Has i p := by
    induction es generalizing s with
    | nil => exact hp
    | cons e es ih => exact ih (h.after_one e) (has_step h hp hes.1) hes.2
  obtain ⟨a, ha, howned⟩ := exists_follows (h.after es)
  have htable := ha.has_iff.mp hhas
  refine ⟨hhas, ?_, ?_⟩
  · rw [← ha.records]
    exact howned.live i p htable
  · rintro e ⟨t, datap, hbefore, hafter⟩ s''
    obtain ⟨b, hstep, hb⟩ := ha.step e
    have hnew := AtomicTable.table_of_put ((ha.tasks t).trans hbefore)
      ((hb.tasks t).trans hafter) hstep
    have hne : datap ≠ p := by
      rintro rfl
      exact howned.apart t i i datap ((ha.tasks t).trans hbefore) htable
    rcases howned.keeps_or_puts htable hstep with ⟨hold, -⟩ | hput
    · rw [hnew] at hold
      exact absurd (Option.some.inj hold) hne
    · obtain ⟨-, -, -, -, -, -, hfreed⟩ := hput
      rw [hb.has_iff, ← hb.records]
      refine ⟨?_, hfreed⟩
      rw [hnew]
      exact fun heq => hne (Option.some.inj heq)

/-- A record has been inserted, and another thread is about to look for it. -/
theorem record_until_replaced_two :
    let s := Transition.exec (listUsers id (Fin 2)).monitor.step (listStart (Fin 2))
      (insertRun 0 3 9)
    let es : List (Turn (Fin 2) RdwrCall ListWork) := [.work 1 (.find 3)]
    let s' := Transition.exec (listUsers id (Fin 2)).monitor.step s es
    s'.data.Has 3 0 ∧ s'.data.data.live 0 = true ∧
      ∀ e, Replaces id 3 s' e →
        let s'' := (listUsers id (Fin 2)).monitor.step s' e
        ¬ s''.data.Has 3 0 ∧ s''.data.data.live 0 = false := by
  intro s es
  have hidle (t : Fin 2) : s.task t = .idle := by
    revert t
    exact Fin.forall_fin_two.mpr ⟨rfl, rfl⟩
  have hquiet : ¬ Replaces id 3 s (.work 1 (.find 3)) := by
    rintro ⟨t, datap, hbefore, -⟩
    rw [hidle t] at hbefore
    cases hbefore
  have hhas : s.data.Has 3 0 := ⟨0, .here 0, rfl, rfl⟩
  have hes : Transition.Meets (listUsers id (Fin 2)).monitor.step
      (fun s e => ¬ Replaces id 3 s e) s es := ⟨hquiet, trivial⟩
  exact record_until_replaced ⟨_, _, listStart_init, rfl⟩ hhas hes

end ListThreads

end TruckControl
