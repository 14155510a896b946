import TruckControl.Library.LinkedList
import TruckControl.Library.Simulation

/-!
# A table of records with atomic operations

A table leads from keys to records in memory. To find a record takes one step, and so does to
put a copy of a record into the table; the copy is made in a step of its own before. Users
may write to any record at any time.
-/

namespace TruckControl

/-- What a user of the table is doing. -/
inductive TableTask (κ : Type*) where
  | idle
  | find (key : κ)
  | found (record : Option ℕ)
  | insert (key : κ) (source : ℕ)
  | copied (key : κ) (record : ℕ)
  | inserted

/-- What can be seen of the users. -/
inductive TableLabel (ι κ α : Type*) where
  | find (t : ι) (key : κ)
  | found (t : ι) (record : Option ℕ)
  | insert (t : ι) (key : κ) (source : ℕ)
  | inserted (t : ι)
  | store (t : ι) (record : ℕ) (x : α)

structure AtomicTable (ι κ α : Type*) where
  table : κ → Option ℕ
  records : Memory α
  task : ι → TableTask κ

namespace AtomicTable

variable {ι κ α : Type*}

/-- The record that is replaced is freed. -/
def release (left : α → α) (old : Option ℕ) (m : Memory α) : Memory α :=
  match old with
  | none => m
  | some p => m.free left p

def start (records : Memory α) : AtomicTable ι κ α :=
  ⟨fun _ => none, records, fun _ => .idle⟩

section

variable [DecidableEq ι] [DecidableEq κ]

/-- The steps of the users. -/
inductive Step (left : α → α) (a : AtomicTable ι κ α) :
    List (TableLabel ι κ α) → AtomicTable ι κ α → Prop where
  | find (t : ι) (key : κ) (ht : a.task t = .idle) :
      Step left a [.find t key] { a with task := Function.update a.task t (.find key) }
  | look (t : ι) (key : κ) (ht : a.task t = .find key) :
      Step left a [] { a with task := Function.update a.task t (.found (a.table key)) }
  | found (t : ι) (record : Option ℕ) (ht : a.task t = .found record) :
      Step left a [.found t record] { a with task := Function.update a.task t .idle }
  | insert (t : ι) (key : κ) (source : ℕ) (ht : a.task t = .idle) :
      Step left a [.insert t key source]
        { a with task := Function.update a.task t (.insert key source) }
  | copy (t : ι) (key : κ) (source record : ℕ) (ht : a.task t = .insert key source)
      (hfree : a.records.live record = false) :
      Step left a []
        { a with
          records := a.records.alloc record (a.records.content source)
          task := Function.update a.task t (.copied key record) }
  | put (t : ι) (key : κ) (record : ℕ) (ht : a.task t = .copied key record) :
      Step left a []
        { table := Function.update a.table key (some record)
          records := release left (a.table key) a.records
          task := Function.update a.task t .inserted }
  | inserted (t : ι) (ht : a.task t = .inserted) :
      Step left a [.inserted t] { a with task := Function.update a.task t .idle }
  | store (t : ι) (record : ℕ) (x : α) (ht : a.task t = .idle) :
      Step left a [.store t record x] { a with records := a.records.set record x }

end

/-! ## Every record has one owner -/

/-- The records of the table and those on their way there are allocated, and no two of them
are the same. -/
structure Owned (a : AtomicTable ι κ α) : Prop where
  live : ∀ key p, a.table key = some p → a.records.live p = true
  injective : ∀ key key' p, a.table key = some p → a.table key' = some p → key = key'
  live_copied : ∀ t key p, a.task t = .copied key p → a.records.live p = true
  copied_injective : ∀ t u key key' p, a.task t = .copied key p → a.task u = .copied key' p →
    t = u
  apart : ∀ t key key' p, a.task t = .copied key p → a.table key' ≠ some p

variable {left : α → α} {a b : AtomicTable ι κ α} {seen : List (TableLabel ι κ α)}

theorem owned_start (records : Memory α) : (start records : AtomicTable ι κ α).Owned where
  live _ _ h := nomatch h
  injective _ _ _ h := nomatch h
  live_copied _ _ _ h := nomatch h
  copied_injective _ _ _ _ _ h := nomatch h
  apart _ _ _ _ h := nomatch h

variable [DecidableEq ι]

/-- A task that has not copied anything leaves the others as they are. -/
theorem copied_of_update {task : ι → TableTask κ} {t u : ι} {x : TableTask κ} {key : κ} {p : ℕ}
    (hx : ∀ key p, x ≠ .copied key p) (h : Function.update task t x u = .copied key p) :
    u ≠ t ∧ task u = .copied key p := by
  by_cases hu : u = t
  · rw [hu, Function.update_self] at h
    exact absurd h (hx key p)
  · rw [Function.update_of_ne hu] at h
    exact ⟨hu, h⟩

theorem Owned.change_task (h : a.Owned) (t : ι) {x : TableTask κ}
    (hx : ∀ key p, x ≠ .copied key p) :
    Owned { a with task := Function.update a.task t x } where
  live := h.live
  injective := h.injective
  live_copied u key p hu := h.live_copied u key p (copied_of_update hx hu).2
  copied_injective u v key key' p hu hv :=
    h.copied_injective u v key key' p (copied_of_update hx hu).2 (copied_of_update hx hv).2
  apart u key key' p hu := h.apart u key key' p (copied_of_update hx hu).2

theorem live_release {old : Option ℕ} {m : Memory α} {p : ℕ} (hp : old ≠ some p) :
    (release left old m).live p = m.live p := by
  cases old with
  | none => rfl
  | some q => exact m.live_free_of_ne left fun heq => hp (by rw [heq])

/-- A copy becomes the record of its key. -/
theorem Owned.put [DecidableEq κ] (h : a.Owned) {t : ι} {key : κ} {record : ℕ}
    (ht : a.task t = .copied key record) :
    Owned
      { table := Function.update a.table key (some record)
        records := release left (a.table key) a.records
        task := Function.update a.task t .inserted } := by
  have hcopied {u : ι} {k : κ} {p : ℕ}
      (hu : Function.update a.task t .inserted u = .copied k p) :
      u ≠ t ∧ a.task u = .copied k p :=
    copied_of_update (x := TableTask.inserted) (fun _ _ => nofun) hu
  have hne (k : κ) (hk : k ≠ key) (p : ℕ) (hp : a.table k = some p) : a.table key ≠ some p :=
    fun hkey => hk (h.injective k key p hp hkey)
  have hother (k : κ) (p : ℕ) (hp : Function.update a.table key (some record) k = some p) :
      k = key ∧ p = record ∨ k ≠ key ∧ a.table k = some p := by
    by_cases hk : k = key
    · rw [hk, Function.update_self] at hp
      exact .inl ⟨hk, (Option.some.inj hp).symm⟩
    · rw [Function.update_of_ne hk] at hp
      exact .inr ⟨hk, hp⟩
  refine ⟨?_, ?_, ?_, ?_, ?_⟩
  · intro k p hp
    rcases hother k p hp with ⟨-, rfl⟩ | ⟨hk, hold⟩
    · rw [live_release (h.apart t key key p ht)]
      exact h.live_copied t key p ht
    · rw [live_release (hne k hk p hold)]
      exact h.live k p hold
  · intro k k' p hp hp'
    rcases hother k p hp with ⟨rfl, rfl⟩ | ⟨hk, hold⟩ <;>
      rcases hother k' _ hp' with ⟨rfl, hrecord⟩ | ⟨hk', hold'⟩
    · rfl
    · exact absurd hold' (h.apart t _ k' _ ht)
    · exact absurd (hrecord ▸ hold) (h.apart t _ k _ ht)
    · exact h.injective k k' p hold hold'
  · intro u k p hu
    have hold := (hcopied hu).2
    rw [live_release (h.apart u k key p hold)]
    exact h.live_copied u k p hold
  · intro u v k k' p hu hv
    exact h.copied_injective u v k k' p (hcopied hu).2 (hcopied hv).2
  · intro u k k' p hu hp
    obtain ⟨hut, hold⟩ := hcopied hu
    rcases hother k' p hp with ⟨-, rfl⟩ | ⟨-, htable⟩
    · exact hut (h.copied_injective u t k key p hold ht)
    · exact h.apart u k k' p hold htable

theorem Owned.copy (h : a.Owned) {t : ι} {key : κ} {record : ℕ}
    (hfree : a.records.live record = false) (x : α) :
    Owned
      { a with
        records := a.records.alloc record x
        task := Function.update a.task t (.copied key record) } := by
  have hlive {p : ℕ} (hp : a.records.live p = true) : p ≠ record := by
    intro heq
    rw [heq, hfree] at hp
    cases hp
  have hcopied (u : ι) (k : κ) (p : ℕ)
      (hu : Function.update a.task t (.copied key record) u = .copied k p) :
      u = t ∧ p = record ∨ a.task u = .copied k p := by
    by_cases hut : u = t
    · rw [hut, Function.update_self] at hu
      cases hu
      exact .inl ⟨hut, rfl⟩
    · rw [Function.update_of_ne hut] at hu
      exact .inr hu
  refine ⟨?_, h.injective, ?_, ?_, ?_⟩
  · intro k p hp
    exact a.records.live_alloc (h.live k p hp) record x
  · intro u k p hu
    rcases hcopied u k p hu with ⟨-, rfl⟩ | hold
    · exact a.records.live_alloc_self p x
    · exact a.records.live_alloc (h.live_copied u k p hold) record x
  · intro u v k k' p hu hv
    rcases hcopied u k p hu with ⟨rfl, rfl⟩ | hold <;>
      rcases hcopied v k' _ hv with ⟨rfl, hrecord⟩ | hold'
    · rfl
    · exact absurd rfl (hlive (h.live_copied v k' _ hold'))
    · exact absurd hrecord (hlive (h.live_copied u k p hold))
    · exact h.copied_injective u v k k' p hold hold'
  · intro u k k' p hu hp
    rcases hcopied u k p hu with ⟨-, rfl⟩ | hold
    · exact absurd rfl (hlive (h.live k' p hp))
    · exact h.apart u k k' p hold hp

variable [DecidableEq κ]

theorem Owned.step (h : a.Owned) (hstep : Step left a seen b) : b.Owned := by
  cases hstep with
  | find t key ht => exact h.change_task t fun _ _ => nofun
  | look t key ht => exact h.change_task t fun _ _ => nofun
  | found t record ht => exact h.change_task t fun _ _ => nofun
  | insert t key source ht => exact h.change_task t fun _ _ => nofun
  | copy t key source record ht hfree => exact h.copy hfree _
  | put t key record ht => exact h.put ht
  | inserted t ht => exact h.change_task t fun _ _ => nofun
  | store t record x ht => exact ⟨h.live, h.injective, h.live_copied, h.copied_injective, h.apart⟩

theorem owned_of_steps {records : Memory α}
    (h : Simulation.Steps (Step left) (start records) seen a) : a.Owned :=
  h.invariant (fun _ _ _ hs hstep => hs.step hstep) (owned_start records)

end AtomicTable

end TruckControl
