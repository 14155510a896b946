import TruckControl.Library.OrderedList
import TruckControl.Model.ListThreads
import TruckControl.Verification.OllistMap
import TruckControl.Verification.RdwrExclusion

/-!
# The list of records is a table with atomic operations

The threads walk along the list and change it step by step, and the lock keeps them apart.
What can be seen of them can be seen of a table in which each operation takes effect at once.
-/

namespace TruckControl

open LinkedList Monitor

namespace ListTask

/-- What the thread does with the table. -/
def op : ListTask → TableTask ℤ
  | idle | fault _ => .idle
  | findData index | findLocked index | finding index _ _ => .find index
  | findEnd _ datap | findReturn _ datap => .found datap
  | insertData index datap2 | insertLocked index datap2 => .insert index datap2
  | inserting index datap _ _ | allocating index datap _ _ | linking index datap _ _ _ =>
      .copied index datap
  | insertEnd | insertReturn => .inserted

/-- What the thread may rely on: where it is in the list, and that it is not at a fault. -/
def At (l : OllistT) : ListTask → Prop
  | finding index cur prev | inserting index _ cur prev =>
      Passed l.nodes l.first index cur prev
  | allocating index _ cur prev => Between l.nodes l.first index cur prev
  | linking index datap new cur prev => Filled l.nodes l.first index datap new cur prev
  | findEnd status datap | findReturn status datap => status = if datap.isSome then 0 else -1
  | fault _ => False
  | idle | findData _ | findLocked _ | insertData _ _ | insertLocked _ _ | insertEnd
  | insertReturn => True

variable {l l' : OllistT} {p : ListTask}

theorem At.congr (h : At l p) (hfirst : l'.first = l.first) (hnodes : l'.nodes = l.nodes) :
    At l' p := by
  cases p with
  | finding index cur prev | inserting index datap cur prev
  | allocating index datap cur prev | linking index datap new cur prev =>
      rw [At, hfirst, hnodes]
      exact h
  | _ => exact h

/-- A thread without the lock does not rely on the list. -/
theorem At.of_out (h : At l p) (hout : p.phase = .out) (l' : OllistT) : At l' p := by
  cases p with
  | finding index cur prev | inserting index datap cur prev
  | allocating index datap cur prev | linking index datap new cur prev => cases hout
  | _ => exact h

theorem At.next (h : At l p) : At l p.next := by
  cases p <;> exact h

theorem op_next (p : ListTask) : p.next.op = p.op := by
  cases p <;> rfl

end ListTask

namespace ListThreads

variable {ι : Type*} {left : OData → OData} {s s' : ListThreads ι}

/-! ## What can be seen -/

section

variable {t : ι} {w : ListWork} {p : ListTask} {l : OllistT}

/-- Only a thread that is in no function has a choice. -/
theorem task_of_choice (hw : ∀ block, w ≠ .go block)
    (hwork : (s.task t).work left s.data w = some (p, l)) : s.task t = .idle := by
  cases w with
  | go block => exact absurd rfl (hw block)
  | find index | insert index datap2 | store datap d =>
      cases hp : s.task t with
      | idle => rfl
      | _ =>
          rw [hp] at hwork
          cases hwork

theorem shows_of_lock {e : Turn ι RdwrCall ListWork} (he : ∀ t w, e ≠ .work t w) :
    s.shows e = [] := by
  cases e with
  | work t w => exact absurd rfl (he t w)
  | call | run | spurious => rfl

/-- A thread that cannot do what was chosen shows nothing. -/
theorem shows_of_none (hwork : (s.task t).work left s.data w = none) :
    (s.task t).shows t w = [] := by
  cases hp : s.task t with
  | idle =>
      rw [hp] at hwork
      cases w with
      | go block => rfl
      | find | insert | store => cases hwork
  | findReturn status datap | insertReturn =>
      rw [hp] at hwork
      cases w with
      | go block => cases hwork
      | find | insert | store => rfl
  | _ => cases w <;> rfl

end

/-! ## The table and the list -/

variable [Fintype ι] {a b : AtomicTable ι ℤ OData}

/-- The table that the threads work on: its records are those in memory, and the list holds
where they are. -/
structure Follows (left : OData → OData) (s : ListThreads ι) (a : AtomicTable ι ℤ OData) :
    Prop where
  counted : (listUsers left ι).Counted s
  records : a.records = s.data.data
  indexes : ∃ as, Indexes s.data.nodes s.data.first as a.table
  tasks : ∀ t, a.task t = (s.task t).op
  knows : ∀ t, (s.task t).At s.data

theorem follows_init (h : s.Init) : Follows left s (AtomicTable.start s.data.data) := by
  obtain ⟨hshared, howner, hplace, htask, l, hdata⟩ := h
  refine ⟨?_, rfl, ⟨[], ?_⟩, ?_, ?_⟩
  · refine RdwrUsers.counted_init ⟨hshared, howner, hplace, fun t => ?_⟩
    rw [htask t]
    rfl
  · rw [hdata]
    exact Indexes.empty _
  · intro t
    rw [htask t]
    rfl
  · intro t
    rw [htask t]
    trivial

/-! ## The steps in the lock -/

variable [DecidableEq ι]

/-- The lock is nothing that can be seen, and a thread that has got it knows where it is. -/
theorem Follows.lock (h : Follows left s a) {e : Turn ι RdwrCall ListWork}
    (he : ∀ t w, e ≠ .work t w) (hmove : Move (listUsers left ι).monitor s e s') :
    Follows left s' a := by
  have hcounted := h.counted.move hmove
  cases hmove with
  | call t c hplace hmay => exact ⟨hcounted, h.records, h.indexes, h.tasks, h.knows⟩
  | lock t u c hplace howner => exact ⟨hcounted, h.records, h.indexes, h.tasks, h.knows⟩
  | wait t u c c' v hplace htest => exact ⟨hcounted, h.records, h.indexes, h.tasks, h.knows⟩
  | wake t u w hplace => exact ⟨hcounted, h.records, h.indexes, h.tasks, h.knows⟩
  | unlock t u hplace => exact ⟨hcounted, h.records, h.indexes, h.tasks, h.knows⟩
  | spurious t c hplace => exact ⟨hcounted, h.records, h.indexes, h.tasks, h.knows⟩
  | work t w p d hplace hwork => exact absurd rfl (he t w)
  | done t u c v w r hplace htest =>
      refine ⟨hcounted, h.records, h.indexes, fun x => ?_, fun x => ?_⟩
      · by_cases hx : x = t
        · rw [hx, h.tasks t]
          simp only [Function.update_self]
          exact (ListTask.op_next _).symm
        · simp only [Function.update_of_ne hx]
          exact h.tasks x
      · by_cases hx : x = t
        · simp only [hx, Function.update_self]
          exact (h.knows t).next
        · simp only [Function.update_of_ne hx]
          exact h.knows x

/-! ## The steps in the functions -/

/-- A thread that goes on. The list stays, or the thread is the only one that relies on it. -/
theorem Follows.own (h : Follows left s a) {t : ι} {w : ListWork} {p : ListTask} {l : OllistT}
    (hplace : s.place t = .outside) (hwork : (s.task t).work left s.data w = some (p, l))
    (htask : b.task = Function.update a.task t p.op) (hrecords : b.records = l.data)
    {as : List ℕ} (hindexes : Indexes l.nodes l.first as b.table) (hat : p.At l)
    (hsame : l.first = s.data.first ∧ l.nodes = s.data.nodes ∨
      (s.task t).phase = .writing) :
    Follows left { s with task := Function.update s.task t p, data := l } b := by
  refine ⟨h.counted.move (.work t w p l hplace hwork), hrecords, ⟨as, hindexes⟩, ?_, ?_⟩
  · intro u
    rw [htask]
    by_cases hu : u = t
    · simp only [hu, Function.update_self]
    · simp only [Function.update_of_ne hu]
      exact h.tasks u
  · intro u
    by_cases hu : u = t
    · simp only [hu, Function.update_self]
      exact hat
    · simp only [Function.update_of_ne hu]
      rcases hsame with ⟨hfirst, hnodes⟩ | hwriting
      · exact (h.knows u).congr hfirst hnodes
      · refine (h.knows u).of_out ?_ l
        cases hphase : (s.task u).phase with
        | out => rfl
        | reading => exact absurd hphase (h.counted.not_reads (t := t) hwriting)
        | writing => exact absurd (h.counted.writer_unique (t := u) (u := t) hphase hwriting) hu

/-- The table follows, with one step at most. -/
def Shown (left : OData → OData) (a : AtomicTable ι ℤ OData)
    (seen : List (TableLabel ι ℤ OData)) (s' : ListThreads ι) : Prop :=
  ∃ b, Simulation.AtMostOne (AtomicTable.Step left) a seen b ∧ Follows left s' b

/-- A step that the table does not make. -/
theorem Follows.silent (h : Follows left s a) {t : ι} {w : ListWork} {p : ListTask}
    {l : OllistT} (hplace : s.place t = .outside)
    (hwork : (s.task t).work left s.data w = some (p, l)) (hop : p.op = (s.task t).op)
    (hrecords : l.data = s.data.data) {as : List ℕ} (hindexes : Indexes l.nodes l.first as a.table)
    (hat : p.At l)
    (hsame : l.first = s.data.first ∧ l.nodes = s.data.nodes ∨ (s.task t).phase = .writing) :
    Shown left a [] { s with task := Function.update s.task t p, data := l } := by
  refine ⟨a, .stay, h.own hplace hwork ?_ (h.records.trans hrecords.symm) hindexes hat hsame⟩
  rw [hop, ← h.tasks t, Function.update_eq_self]

section

variable {t : ι} {index : ℤ} {datap new : ℕ} {cur prev : Option ℕ} {w : ListWork}
  {p : ListTask} {l : OllistT}

/-- A turn of the loop in `ollist_find_data`. -/
theorem Follows.findLoop (h : Follows left s a) (hplace : s.place t = .outside)
    (hp : s.task t = .finding index cur prev)
    (hwork : (s.task t).work left s.data w = some (ListTask.findLoop index s.data cur, s.data)) :
    Shown left a []
      { s with
        task := Function.update s.task t (ListTask.findLoop index s.data cur)
        data := s.data } := by
  obtain ⟨as, hindexes⟩ := h.indexes
  have htask := h.tasks t
  rw [hp] at htask
  have hat : Passed s.data.nodes s.data.first index cur prev := by
    have hknows := h.knows t
    rw [hp] at hknows
    exact hknows
  have hsame : s.data.first = s.data.first ∧ s.data.nodes = s.data.nodes ∨
      (s.task t).phase = .writing := .inl ⟨rfl, rfl⟩
  have hlook : AtomicTable.Step left a []
      { a with task := Function.update a.task t (.found (a.table index)) } :=
    .look t index htask
  have hmiss (hbetween : Between s.data.nodes s.data.first index cur prev)
      (hend : ListTask.findLoop index s.data cur = .findEnd (-1) none) :
      Shown left a []
        { s with
          task := Function.update s.task t (ListTask.findLoop index s.data cur)
          data := s.data } := by
    rw [hend] at hwork ⊢
    have hnone := hindexes.eq_none hbetween
    rw [hnone] at hlook
    exact ⟨_, .one hlook, h.own hplace hwork rfl h.records hindexes rfl hsame⟩
  cases cur with
  | none => exact hmiss ⟨hat, nofun⟩ rfl
  | some c =>
      have hc := hindexes.mem_of_passed hat
      have hlive := hindexes.live c hc
      by_cases heq : (s.data.nodes.content c).key = index
      · have hend : ListTask.findLoop index s.data (some c) =
            .findEnd 0 (some (s.data.nodes.content c).value) := by
          simp [ListTask.findLoop, hlive, heq]
        have hvalue := hindexes.value hc
        rw [heq] at hvalue
        rw [hend] at hwork ⊢
        rw [hvalue] at hlook
        exact ⟨_, .one hlook, h.own hplace hwork rfl h.records hindexes rfl hsame⟩
      · by_cases hgt : (s.data.nodes.content c).key > index
        · refine hmiss ⟨hat, ?_⟩ (by simp [ListTask.findLoop, hlive, heq, hgt])
          intro d hd
          cases hd
          exact hgt
        · have hgo : ListTask.findLoop index s.data (some c) =
              .finding index (s.data.nodes.content c).next (some c) := by
            simp [ListTask.findLoop, hlive, heq, hgt]
          have hnext := hat.next (lt_of_le_of_ne (not_lt.mp hgt) heq)
          rw [hgo] at hwork ⊢
          exact h.silent hplace hwork (by rw [hp]; rfl) rfl hindexes hnext hsame

/-- The list has its new record: by a new value, or by a new node. -/
theorem Follows.put (h : Follows left s a) (hplace : s.place t = .outside)
    (hop : (s.task t).op = .copied index datap) (hphase : (s.task t).phase = .writing)
    (hwork : (s.task t).work left s.data w = some (.insertEnd, l))
    (hdata : l.data = AtomicTable.release left (a.table index) s.data.data) {as : List ℕ}
    (hindexes : Indexes l.nodes l.first as (Function.update a.table index (some datap))) :
    Shown left a [] { s with task := Function.update s.task t .insertEnd, data := l } := by
  have htask : a.task t = .copied index datap := (h.tasks t).trans hop
  refine ⟨_, .one (.put t index datap htask),
    h.own hplace hwork rfl ?_ hindexes trivial (.inr hphase)⟩
  rw [hdata, ← h.records]

/-- A turn of the loop in `ollist_insert_data`. -/
theorem Follows.insertLoop (h : Follows left s a) (hplace : s.place t = .outside)
    (hp : s.task t = .inserting index datap cur prev)
    (hwork : (s.task t).work left s.data w =
      some (ListTask.insertLoop left index datap s.data prev cur)) :
    Shown left a []
      { s with
        task := Function.update s.task t
          (ListTask.insertLoop left index datap s.data prev cur).1
        data := (ListTask.insertLoop left index datap s.data prev cur).2 } := by
  obtain ⟨as, hindexes⟩ := h.indexes
  have hat : Passed s.data.nodes s.data.first index cur prev := by
    have hknows := h.knows t
    rw [hp] at hknows
    exact hknows
  have hphase : (s.task t).phase = .writing := by
    rw [hp]
    rfl
  have hop : (s.task t).op = .copied index datap := by
    rw [hp]
    rfl
  have hmiss (hbetween : Between s.data.nodes s.data.first index cur prev)
      (hend : ListTask.insertLoop left index datap s.data prev cur =
        (.allocating index datap cur prev, s.data)) :
      Shown left a []
        { s with
          task := Function.update s.task t
            (ListTask.insertLoop left index datap s.data prev cur).1
          data := (ListTask.insertLoop left index datap s.data prev cur).2 } := by
    rw [hend] at hwork ⊢
    exact h.silent hplace hwork hop.symm rfl hindexes hbetween (.inr hphase)
  cases cur with
  | none => exact hmiss ⟨hat, nofun⟩ rfl
  | some c =>
      have hc := hindexes.mem_of_passed hat
      have hlive := hindexes.live c hc
      by_cases heq : (s.data.nodes.content c).key = index
      · have hend : ListTask.insertLoop left index datap s.data prev (some c) =
            (.insertEnd, { s.data with
              nodes := s.data.nodes.set c { s.data.nodes.content c with value := datap }
              data := s.data.data.free left (s.data.nodes.content c).value }) := by
          simp [ListTask.insertLoop, hlive, heq]
        have hvalue := hindexes.value hc
        have hreplace := hindexes.replace hc datap
        rw [heq] at hvalue hreplace
        rw [hend] at hwork ⊢
        refine h.put hplace hop hphase hwork ?_ hreplace
        rw [hvalue]
        rfl
      · by_cases hgt : (s.data.nodes.content c).key > index
        · refine hmiss ⟨hat, ?_⟩ (by simp [ListTask.insertLoop, hlive, heq, hgt])
          intro d hd
          cases hd
          exact hgt
        · have hgo : ListTask.insertLoop left index datap s.data prev (some c) =
              (.inserting index datap (s.data.nodes.content c).next (some c), s.data) := by
            simp [ListTask.insertLoop, hlive, heq, hgt]
          have hnext := hat.next (lt_of_le_of_ne (not_lt.mp hgt) heq)
          rw [hgo] at hwork ⊢
          exact h.silent hplace hwork hop.symm rfl hindexes hnext (.inr hphase)

/-- The new node is hung in. -/
theorem Follows.link (h : Follows left s a) (hplace : s.place t = .outside)
    (hp : s.task t = .linking index datap new cur prev)
    (hwork : (s.task t).work left s.data w = some (ListTask.link new cur prev s.data)) :
    Shown left a []
      { s with
        task := Function.update s.task t (ListTask.link new cur prev s.data).1
        data := (ListTask.link new cur prev s.data).2 } := by
  obtain ⟨as, hindexes⟩ := h.indexes
  have hat : Filled s.data.nodes s.data.first index datap new cur prev := by
    have hknows := h.knows t
    rw [hp] at hknows
    exact hknows
  have hphase : (s.task t).phase = .writing := by
    rw [hp]
    rfl
  have hop : (s.task t).op = .copied index datap := by
    rw [hp]
    rfl
  have hrelease : s.data.data = AtomicTable.release left (a.table index) s.data.data := by
    rw [hindexes.eq_none hat.between]
    rfl
  by_cases hcur : cur = s.data.first
  · have hend : ListTask.link new cur prev s.data =
        (.insertEnd, { s.data with first := some new }) := by
      cases prev <;> simp [ListTask.link, hcur]
    rw [hend] at hwork ⊢
    exact h.put hplace hop hphase hwork hrelease (hindexes.hang_first hat hcur)
  · obtain ⟨c, lo, hi, rfl, has, hhung⟩ := hindexes.hang_behind hat hcur
    have hlive : s.data.nodes.live c = true := hindexes.live c (by simp [has])
    have hend : ListTask.link new cur (some c) s.data =
        (.insertEnd, { s.data with
          nodes := s.data.nodes.set c { s.data.nodes.content c with next := some new } }) := by
      simp [ListTask.link, hcur, hlive]
    rw [hend] at hwork ⊢
    exact h.put hplace hop hphase hwork hrelease hhung

/-- The table follows a thread that goes on in one of the functions. -/
theorem Follows.go (h : Follows left s a) (hplace : s.place t = .outside) {block : ℕ}
    (hwork : (s.task t).work left s.data (.go block) = some (p, l)) :
    Shown left a ((s.task t).shows t (.go block))
      { s with task := Function.update s.task t p, data := l } := by
  obtain ⟨as, hindexes⟩ := h.indexes
  have hkept : s.data.first = s.data.first ∧ s.data.nodes = s.data.nodes := ⟨rfl, rfl⟩
  have htask := h.tasks t
  have hknows := h.knows t
  have hgo := hwork
  cases hp : s.task t with
  | idle | findData index | findEnd status datap | insertData index datap2 | insertEnd
  | fault phase =>
      rw [hp] at hgo
      cases hgo
  | findLocked index =>
      rw [hp] at hgo
      cases hgo
      exact h.silent hplace hwork (by rw [hp]; rfl) rfl hindexes (hindexes.passed index)
        (.inl hkept)
  | finding index cur prev =>
      rw [hp] at hgo
      cases hgo
      exact h.findLoop hplace hp hwork
  | findReturn status datap =>
      rw [hp] at hgo htask
      cases hgo
      exact ⟨_, .one (.found t datap htask),
        h.own hplace hwork rfl h.records hindexes trivial (.inl hkept)⟩
  | insertLocked index datap2 =>
      rw [hp] at hgo htask
      simp only [ListTask.work, ListTask.go, Option.ite_none_left_eq_some, Option.some.injEq,
        Prod.mk.injEq] at hgo
      obtain ⟨hfree, rfl, rfl⟩ := hgo
      rw [Bool.not_eq_true, ← h.records] at hfree
      refine ⟨_, .one (.copy t index datap2 block htask hfree),
        h.own hplace hwork rfl ?_ hindexes (hindexes.passed index) (.inl hkept)⟩
      rw [h.records]
  | inserting index datap cur prev =>
      rw [hp] at hgo
      obtain ⟨rfl, rfl⟩ : p = (ListTask.insertLoop left index datap s.data prev cur).1 ∧
          l = (ListTask.insertLoop left index datap s.data prev cur).2 :=
        Prod.ext_iff.mp (Option.some.inj hgo).symm
      exact h.insertLoop hplace hp hwork
  | allocating index datap cur prev =>
      rw [hp] at hgo hknows
      simp only [ListTask.work, ListTask.go, Option.ite_none_left_eq_some, Option.some.injEq,
        Prod.mk.injEq] at hgo
      obtain ⟨hfree, rfl, rfl⟩ := hgo
      rw [Bool.not_eq_true] at hfree
      exact h.silent hplace hwork (by rw [hp]; rfl) rfl (hindexes.alloc hfree _)
        (hindexes.filled hfree hknows datap) (.inr (by rw [hp]; rfl))
  | linking index datap new cur prev =>
      rw [hp] at hgo
      obtain ⟨rfl, rfl⟩ : p = (ListTask.link new cur prev s.data).1 ∧
          l = (ListTask.link new cur prev s.data).2 :=
        Prod.ext_iff.mp (Option.some.inj hgo).symm
      exact h.link hplace hp hwork
  | insertReturn =>
      rw [hp] at hgo htask
      cases hgo
      exact ⟨_, .one (.inserted t htask),
        h.own hplace hwork rfl h.records hindexes trivial (.inl hkept)⟩

/-- And one that is in none of them. -/
theorem Follows.work (h : Follows left s a) (hplace : s.place t = .outside)
    (hwork : (s.task t).work left s.data w = some (p, l)) :
    Shown left a ((s.task t).shows t w)
      { s with task := Function.update s.task t p, data := l } := by
  obtain ⟨as, hindexes⟩ := h.indexes
  have hkept : s.data.first = s.data.first ∧ s.data.nodes = s.data.nodes := ⟨rfl, rfl⟩
  have hstart := hwork
  cases w with
  | go block => exact h.go hplace hwork
  | find index =>
      have hp := task_of_choice (w := ListWork.find index) (fun _ => nofun) hwork
      rw [hp] at hstart ⊢
      cases hstart
      exact ⟨_, .one (.find t index ((h.tasks t).trans (congrArg ListTask.op hp))),
        h.own hplace hwork rfl h.records hindexes trivial (.inl hkept)⟩
  | insert index datap2 =>
      have hp := task_of_choice (w := ListWork.insert index datap2) (fun _ => nofun) hwork
      rw [hp] at hstart ⊢
      cases hstart
      exact ⟨_, .one (.insert t index datap2 ((h.tasks t).trans (congrArg ListTask.op hp))),
        h.own hplace hwork rfl h.records hindexes trivial (.inl hkept)⟩
  | store datap d =>
      have hp := task_of_choice (w := ListWork.store datap d) (fun _ => nofun) hwork
      have htask := (h.tasks t).trans (congrArg ListTask.op hp)
      rw [hp] at hstart ⊢
      cases hstart
      refine ⟨_, .one (.store t datap d htask),
        h.own hplace hwork ?_ ?_ hindexes trivial (.inl hkept)⟩
      · exact (Function.update_eq_self_iff.mpr htask.symm).symm
      · rw [h.records]

end

/-! ## Every run -/

/-- The table follows every step of the threads. -/
theorem Follows.step (h : Follows left s a) (e : Turn ι RdwrCall ListWork) :
    Shown left a (s.shows e) ((listUsers left ι).monitor.step s e) := by
  have hlock (he : ∀ t w, e ≠ .work t w) :
      Shown left a (s.shows e) ((listUsers left ι).monitor.step s e) := by
    rw [shows_of_lock he]
    refine ⟨a, .stay, ?_⟩
    rcases move_or_idle (listUsers left ι).monitor s e with hmove | hidle
    · exact h.lock he hmove
    · rwa [hidle]
  cases e with
  | call t c => exact hlock fun _ _ => nofun
  | run t u => exact hlock fun _ _ => nofun
  | spurious t => exact hlock fun _ _ => nofun
  | work t w =>
      rw [shows, Monitor.step]
      cases hplace : s.place t with
      | outside =>
          cases hwork : (listUsers left ι).monitor.work t w (s.task t) s.data with
          | none =>
              rw [shows_of_none hwork]
              exact ⟨a, .stay, h⟩
          | some found => exact h.work hplace hwork
      | locking | testing | asleep | waking | unlocking => exact ⟨a, .stay, h⟩

/-- Any number of threads in any order: what can be seen of them can be seen of the table whose
operations are atomic. The list holds that table, its records are allocated and apart, and no
thread has followed a null pointer or met a node that is not allocated. -/
theorem ollist_atomic {s₀ : ListThreads ι} (h₀ : s₀.Init) (es : List (Turn ι RdwrCall ListWork)) :
    let s := Transition.exec (listUsers left ι).monitor.step s₀ es
    ∃ a : AtomicTable ι ℤ OData,
      Simulation.Steps (AtomicTable.Step left) (AtomicTable.start s₀.data.data)
        (Simulation.seen (listUsers left ι).monitor.step shows s₀ es) a ∧
      (∃ as, Indexes s.data.nodes s.data.first as a.table) ∧ a.records = s.data.data ∧ a.Owned ∧
      ∀ t, a.task t = (s.task t).op ∧ (s.task t).At s.data := by
  intro s
  have hinit : Follows left s₀ (AtomicTable.start s₀.data.data) := follows_init h₀
  obtain ⟨a, hsteps, h⟩ := Simulation.steps_of_run (fun _ e _ hs => hs.step e) es hinit
  exact ⟨a, hsteps, h.indexes, h.records, AtomicTable.owned_of_steps hsteps,
    fun t => ⟨h.tasks t, h.knows t⟩⟩

theorem exists_follows (h : Transition.Reachable (listUsers left ι).monitor.step Init s) :
    ∃ a : AtomicTable ι ℤ OData, Follows left s a ∧ a.Owned := by
  obtain ⟨s₀, es, h₀, rfl⟩ := h
  have hinit : Follows left s₀ (AtomicTable.start s₀.data.data) := follows_init h₀
  obtain ⟨a, hsteps, ha⟩ := Simulation.steps_of_run (fun _ e _ hs => hs.step e) es hinit
  exact ⟨a, ha, AtomicTable.owned_of_steps hsteps⟩

/-! ## Two threads -/

def listStart (ι : Type*) : ListThreads ι :=
  ⟨Rdwr.pthreadRdwrInitNp, none, fun _ => .outside, fun _ => .idle, OllistT.unallocated.init⟩

omit [Fintype ι] [DecidableEq ι] in
theorem listStart_init : (listStart ι).Init :=
  ⟨rfl, rfl, fun _ => rfl, fun _ => rfl, _, rfl⟩

/-- `t` inserts the record that is at `source`. -/
def insertRun (t : ι) (index : ℤ) (source : ℕ) : List (Turn ι RdwrCall ListWork) :=
  [.work t (.insert index source), .call t .wlock, .run t t, .run t t, .run t t, .run t t,
    .work t (.go 0), .work t (.go 0), .work t (.go 0), .work t (.go 0), .call t .wunlock,
    .run t t, .run t t, .run t t, .run t t, .work t (.go 0)]

/-- The first thread has inserted a record, and the second has come upon it. -/
theorem ollist_atomic_two :
    let es : List (Turn (Fin 2) RdwrCall ListWork) := insertRun 0 3 9 ++ [.work 1 (.find 3),
      .call 1 .rlock, .run 1 1, .run 1 1, .run 1 1, .run 1 1, .work 1 (.go 0), .work 1 (.go 0)]
    let s := Transition.exec (listUsers id (Fin 2)).monitor.step (listStart (Fin 2)) es
    s.task 1 = .findEnd 0 (some 0) ∧
      ∃ a : AtomicTable (Fin 2) ℤ OData,
        Simulation.Steps (AtomicTable.Step id) (AtomicTable.start (listStart (Fin 2)).data.data)
          (Simulation.seen (listUsers id (Fin 2)).monitor.step shows (listStart (Fin 2)) es) a ∧
        (∃ as, Indexes s.data.nodes s.data.first as a.table) ∧ a.records = s.data.data ∧ a.Owned ∧
        ∀ t, a.task t = (s.task t).op ∧ (s.task t).At s.data := by
  intro es s
  refine ⟨?_, ollist_atomic listStart_init es⟩
  rfl

end ListThreads

end TruckControl
