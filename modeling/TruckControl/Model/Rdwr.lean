import TruckControl.Library.Monitor
import Mathlib.Data.Int.Notation

/-! # The readers and writer lock of the list of records -/

namespace TruckControl

open Monitor

/-- `pthread_rdwr_t` without its mutex and its condition variable. -/
structure Rdwr where
  readersReading : ℕ
  writerWriting : ℕ
  deriving DecidableEq

inductive RdwrCall where
  | rlock
  | runlock
  | wlock
  | wunlock
  deriving DecidableEq

namespace Rdwr

/-- `pthread_rdwr_init_np`. -/
def pthreadRdwrInitNp : Rdwr := ⟨0, 0⟩

/-! ## What the functions do while they hold the mutex -/

def pthreadRdwrRlockNp (l : Rdwr) : Outcome Rdwr RdwrCall ℤ :=
  if l.writerWriting ≠ 0 then .wait l .rlock
  else .done { l with readersReading := l.readersReading + 1 } .nobody 0

def pthreadRdwrRunlockNp (l : Rdwr) : Outcome Rdwr RdwrCall ℤ :=
  if l.readersReading = 0 then .done l .nobody (-1)
  else
    let readersReading := l.readersReading - 1
    let wake := if readersReading = 0 then Wake.signal else .nobody
    .done { l with readersReading := readersReading } wake 0

def pthreadRdwrWlockNp (l : Rdwr) : Outcome Rdwr RdwrCall ℤ :=
  if l.writerWriting ≠ 0 ∨ l.readersReading ≠ 0 then .wait l .wlock
  else .done { l with writerWriting := l.writerWriting + 1 } .nobody 0

def pthreadRdwrWunlockNp (l : Rdwr) : Outcome Rdwr RdwrCall ℤ :=
  if l.writerWriting = 0 then .done l .nobody (-1)
  else .done { l with writerWriting := 0 } .broadcast 0

def test : RdwrCall → Rdwr → Outcome Rdwr RdwrCall ℤ
  | .rlock => pthreadRdwrRlockNp
  | .runlock => pthreadRdwrRunlockNp
  | .wlock => pthreadRdwrWlockNp
  | .wunlock => pthreadRdwrWunlockNp

end Rdwr

/-! ## The threads that use the lock -/

inductive Phase where
  | out
  | reading
  | writing
  deriving DecidableEq

namespace RdwrCall

/-- The phase in which a function is called, and the one after it. -/
def before : RdwrCall → Phase
  | .rlock | .wlock => .out
  | .runlock => .reading
  | .wunlock => .writing

def after : RdwrCall → Phase
  | .rlock => .reading
  | .wlock => .writing
  | .runlock | .wunlock => .out

end RdwrCall

/-- Threads that take the lock before they give it back: they call each function in its own
phase, and do not change the phase otherwise. -/
structure RdwrUsers (ι P D W : Type*) where
  phase : P → Phase
  may : P → RdwrCall → Bool
  next : P → RdwrCall → ℤ → P
  work : ι → W → P → D → Option (P × D)
  may_phase : ∀ p c, may p c = true → phase p = c.before
  next_phase : ∀ p c, may p c = true → phase (next p c 0) = c.after
  work_phase : ∀ t w p d p' d', work t w p d = some (p', d') → phase p' = phase p

namespace RdwrUsers

variable {ι P D W : Type*}

def monitor (users : RdwrUsers ι P D W) : Monitor ι Rdwr RdwrCall ℤ P D W where
  test := Rdwr.test
  may := users.may
  next := users.next
  work := users.work

/-- All threads are outside, and none has the lock. -/
def Init (users : RdwrUsers ι P D W) (s : State ι Rdwr RdwrCall P D) : Prop :=
  s.shared = Rdwr.pthreadRdwrInitNp ∧ s.owner = none ∧ (∀ t, s.place t = .outside) ∧
    ∀ t, users.phase (s.task t) = .out

def Reads (users : RdwrUsers ι P D W) (s : State ι Rdwr RdwrCall P D) (t : ι) : Prop :=
  users.phase (s.task t) = .reading

def Writes (users : RdwrUsers ι P D W) (s : State ι Rdwr RdwrCall P D) (t : ι) : Prop :=
  users.phase (s.task t) = .writing

end RdwrUsers

/-- Threads that only take and release the lock, and do not look at the results. -/
def plainUsers (ι : Type*) : RdwrUsers ι Phase Unit Empty where
  phase := id
  may p c := decide (p = c.before)
  next _ c _ := c.after
  work _ w _ _ := w.elim
  may_phase _ _ h := of_decide_eq_true h
  next_phase _ _ _ := rfl
  work_phase _ w := w.elim

def plainStart (ι : Type*) : State ι Rdwr RdwrCall Phase Unit :=
  ⟨Rdwr.pthreadRdwrInitNp, none, fun _ => .outside, fun _ => .out, ()⟩

theorem plainStart_init (ι : Type*) : (plainUsers ι).Init (plainStart ι) :=
  ⟨rfl, rfl, fun _ => rfl, fun _ => rfl⟩

end TruckControl
