import TruckControl.Library.AtomicTable
import TruckControl.Model.OllistMemory
import TruckControl.Model.Rdwr

/-! # Threads that search the list of records, and insert into it -/

namespace TruckControl

open LinkedList Monitor

/-- Where a thread is in `ollist_find_data` or `ollist_insert_data`, with its arguments and its
variables. It is at a fault after it has followed a null pointer, or one to a node that is not
allocated. -/
inductive ListTask where
  | idle
  | findData (index : ℤ)
  | findLocked (index : ℤ)
  | finding (index : ℤ) (cur prev : Option ℕ)
  | findEnd (status : ℤ) (datap : Option ℕ)
  | findReturn (status : ℤ) (datap : Option ℕ)
  | insertData (index : ℤ) (datap2 : ℕ)
  | insertLocked (index : ℤ) (datap2 : ℕ)
  | inserting (index : ℤ) (datap : ℕ) (cur prev : Option ℕ)
  | allocating (index : ℤ) (datap : ℕ) (cur prev : Option ℕ)
  | linking (index : ℤ) (datap new : ℕ) (cur prev : Option ℕ)
  | insertEnd
  | insertReturn
  | fault (phase : Phase)

/-- What a thread does next: one that is in a function goes on, where `block` is what `malloc`
would return. Others have a choice, also to write to a record without the lock. -/
inductive ListWork where
  | find (index : ℤ)
  | insert (index : ℤ) (datap2 : ℕ)
  | store (datap : ℕ) (d : OData)
  | go (block : ℕ)

namespace ListTask

def phase : ListTask → Phase
  | idle | findData _ | findReturn _ _ | insertData _ _ | insertReturn => .out
  | findLocked _ | finding _ _ _ | findEnd _ _ => .reading
  | insertLocked _ _ | inserting _ _ _ _ | allocating _ _ _ _ | linking _ _ _ _ _ | insertEnd =>
      .writing
  | fault phase => phase

/-- The calls of the lock, where the functions have them. -/
def may : ListTask → RdwrCall → Bool
  | findData _, .rlock | findEnd _ _, .runlock | insertData _ _, .wlock | insertEnd, .wunlock =>
      true
  | _, _ => false

/-- The result of a call of the lock is not looked at. -/
def next : ListTask → ListTask
  | findData index => findLocked index
  | findEnd status datap => findReturn status datap
  | insertData index datap2 => insertLocked index datap2
  | insertEnd => insertReturn
  | p => p

/-- A turn of the loop in `ollist_find_data`. -/
def findLoop (index : ℤ) (l : OllistT) : Option ℕ → ListTask
  | none => findEnd (-1) none
  | some cur =>
      if l.nodes.live cur = false then fault .reading
      else
        let node := l.nodes.content cur
        if node.key = index then findEnd 0 (some node.value)
        else if node.key > index then findEnd (-1) none
        else finding index node.next (some cur)

/-- A turn of the loop in `ollist_insert_data`. -/
def insertLoop (left : OData → OData) (index : ℤ) (datap : ℕ) (l : OllistT) (prev : Option ℕ) :
    Option ℕ → ListTask × OllistT
  | none => (allocating index datap none prev, l)
  | some cur =>
      if l.nodes.live cur = false then (fault .writing, l)
      else
        let node := l.nodes.content cur
        if node.key = index then
          (insertEnd, { l with
            nodes := l.nodes.set cur { node with value := datap }
            data := l.data.free left node.value })
        else if node.key > index then (allocating index datap (some cur) prev, l)
        else (inserting index datap node.next (some cur), l)

/-- `ollist_insert_data` hangs the new node in. -/
def link (new : ℕ) (cur prev : Option ℕ) (l : OllistT) : ListTask × OllistT :=
  if cur = l.first then (insertEnd, { l with first := some new })
  else
    match prev with
    | none => (fault .writing, l)
    | some prev =>
        if l.nodes.live prev = false then (fault .writing, l)
        else
          let node := l.nodes.content prev
          (insertEnd, { l with nodes := l.nodes.set prev { node with next := some new } })

/-- The next step of a thread that is in one of the functions, but not in the lock. -/
def go (left : OData → OData) (block : ℕ) (l : OllistT) : ListTask → Option (ListTask × OllistT)
  | findLocked index => some (finding index l.first l.first, l)
  | finding index cur _ => some (findLoop index l cur, l)
  | findReturn _ _ => some (idle, l)
  | insertLocked index datap2 =>
      if l.data.live block then none
      else some (inserting index block l.first l.first,
        { l with data := l.data.alloc block (l.data.content datap2) })
  | inserting index datap cur prev => some (insertLoop left index datap l prev cur)
  | allocating index datap cur prev =>
      if l.nodes.live block then none
      else some (linking index datap block cur prev,
        { l with nodes := l.nodes.alloc block ⟨index, datap, cur⟩ })
  | linking _ _ new cur prev => some (link new cur prev l)
  | insertReturn => some (idle, l)
  | idle | findData _ | findEnd _ _ | insertData _ _ | insertEnd | fault _ => none

def work (left : OData → OData) (l : OllistT) : ListTask → ListWork → Option (ListTask × OllistT)
  | idle, .find index => some (findData index, l)
  | idle, .insert index datap2 => some (insertData index datap2, l)
  | idle, .store datap d => some (idle, { l with data := l.data.set datap d })
  | _, .find _ | _, .insert _ _ | _, .store _ _ => none
  | p, .go block => go left block l p

/-- What can be seen of a thread: its calls, their results, and what it writes to records. -/
def shows {ι : Type*} (t : ι) : ListTask → ListWork → List (TableLabel ι ℤ OData)
  | idle, .find index => [.find t index]
  | idle, .insert index datap2 => [.insert t index datap2]
  | idle, .store datap d => [.store t datap d]
  | findReturn _ datap, .go _ => [.found t datap]
  | insertReturn, .go _ => [.inserted t]
  | _, _ => []

theorem phase_findLoop (index : ℤ) (l : OllistT) (cur : Option ℕ) :
    (findLoop index l cur).phase = .reading := by
  cases cur with
  | none => rfl
  | some cur =>
      dsimp only [findLoop]
      split_ifs <;> rfl

theorem phase_insertLoop (left : OData → OData) (index : ℤ) (datap : ℕ) (l : OllistT)
    (prev cur : Option ℕ) : (insertLoop left index datap l prev cur).1.phase = .writing := by
  cases cur with
  | none => rfl
  | some cur =>
      dsimp only [insertLoop]
      split_ifs <;> rfl

theorem phase_link (new : ℕ) (cur prev : Option ℕ) (l : OllistT) :
    (link new cur prev l).1.phase = .writing := by
  cases prev with
  | none =>
      dsimp only [link]
      split_ifs <;> rfl
  | some prev =>
      dsimp only [link]
      split_ifs <;> rfl

end ListTask

/-! ## The threads -/

def listUsers (left : OData → OData) (ι : Type*) : RdwrUsers ι ListTask OllistT ListWork where
  phase := ListTask.phase
  may := ListTask.may
  next p _ _ := p.next
  work _ w p l := p.work left l w
  may_phase p c h := by
    cases p <;> cases c <;> first | rfl | cases h
  next_phase p c h := by
    cases p <;> cases c <;> first | rfl | cases h
  work_phase _ w p l p' l' h := by
    cases p <;> cases w <;>
      simp only [ListTask.work, ListTask.go, reduceCtorEq, Option.some.injEq, Prod.mk.injEq,
        Option.ite_none_left_eq_some] at h
    all_goals grind [ListTask.phase, ListTask.phase_findLoop, ListTask.phase_insertLoop,
      ListTask.phase_link]

abbrev ListThreads (ι : Type*) : Type _ := State ι Rdwr RdwrCall ListTask OllistT

/-- What can be seen in a step of the threads. -/
def ListThreads.shows {ι : Type*} (s : ListThreads ι) :
    Turn ι RdwrCall ListWork → List (TableLabel ι ℤ OData)
  | .work t w =>
      match s.place t with
      | .outside => (s.task t).shows t w
      | _ => []
  | .call _ _ | .run _ _ | .spurious _ => []

/-- The list after `ollist_init`, and no thread has called a function yet. -/
def ListThreads.Init {ι : Type*} (s : ListThreads ι) : Prop :=
  s.shared = Rdwr.pthreadRdwrInitNp ∧ s.owner = none ∧ (∀ t, s.place t = .outside) ∧
    (∀ t, s.task t = .idle) ∧ ∃ l : OllistT, s.data = l.init

end TruckControl
