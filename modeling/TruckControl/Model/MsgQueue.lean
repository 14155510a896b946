import Mathlib.Data.List.Basic
import Mathlib.Logic.Function.Basic
import TruckControl.Model.Commands

/-! # The control queue -/

namespace TruckControl

def msgQueueSize : ℕ := 50

/-- `msg_queue` and `msg_queue_ptr`. `mem i` is the byte at `msg_queue[i]`; the index
`msgQueueSize`, which a full queue stores at, is the first byte behind the array. -/
structure MsgQueue where
  mem : ℕ → UCHAR
  ptr : ℕ

namespace MsgQueue

/-- The queue as `basic_controls_task` clears it. -/
def init : MsgQueue := ⟨fun _ => 0, 0⟩

def addMsgQueue (cmd : UCHAR) (q : MsgQueue) : MsgQueue :=
  if q.ptr < msgQueueSize then ⟨Function.update q.mem (q.ptr + 1) cmd, q.ptr + 1⟩ else q

/-- The command taken off the queue, 0 when there is none. -/
def getMsgQueue (q : MsgQueue) : UCHAR × MsgQueue :=
  if q.ptr > 0 then (q.mem q.ptr, { q with ptr := q.ptr - 1 }) else (0, q)

/-! ## The waiting commands -/

/-- The commands on the queue, the one added first in front. -/
def waiting (q : MsgQueue) : List UCHAR :=
  (List.range q.ptr).map fun i => q.mem (i + 1)

@[simp] theorem length_waiting (q : MsgQueue) : q.waiting.length = q.ptr := by
  simp [waiting]

theorem waiting_eq_nil_iff (q : MsgQueue) : q.waiting = [] ↔ q.ptr = 0 := by
  rw [← List.length_eq_zero_iff, length_waiting]

/-- An added command becomes the last of the waiting ones. -/
theorem waiting_addMsgQueue (cmd : UCHAR) (q : MsgQueue) (h : q.ptr < msgQueueSize) :
    (q.addMsgQueue cmd).waiting = q.waiting ++ [cmd] := by
  simp only [addMsgQueue, if_pos h, waiting, List.range_succ, List.map_append, List.map_cons,
    List.map_nil, Function.update_self]
  congr 1
  apply List.map_congr_left
  intro i hi
  have hne : i + 1 ≠ q.ptr + 1 := by
    have := List.mem_range.mp hi
    omega
  rw [Function.update_of_ne hne]

theorem addMsgQueue_of_full (cmd : UCHAR) (q : MsgQueue) (h : ¬ q.ptr < msgQueueSize) :
    q.addMsgQueue cmd = q := if_neg h

theorem getMsgQueue_of_empty (q : MsgQueue) (h : q.waiting = []) : q.getMsgQueue = (0, q) := by
  have hptr : ¬ q.ptr > 0 := by
    have := q.waiting_eq_nil_iff.mp h
    omega
  exact if_neg hptr

/-- The command that is taken is the last of the waiting ones. -/
theorem waiting_getMsgQueue (q : MsgQueue) (h : q.waiting ≠ []) :
    q.waiting = q.getMsgQueue.2.waiting ++ [q.getMsgQueue.1] := by
  have hptr : q.ptr > 0 := Nat.pos_of_ne_zero fun h0 => h (q.waiting_eq_nil_iff.mpr h0)
  have hsucc : q.ptr = q.ptr - 1 + 1 := by omega
  simp only [getMsgQueue, if_pos hptr, waiting]
  rw [hsucc, List.range_succ, List.map_append]
  simp

/-- The command that is added is the next one taken. -/
theorem getMsgQueue_addMsgQueue (cmd : UCHAR) (q : MsgQueue) (h : q.ptr < msgQueueSize) :
    (q.addMsgQueue cmd).getMsgQueue = (cmd, ⟨Function.update q.mem (q.ptr + 1) cmd, q.ptr⟩) := by
  simp [addMsgQueue, if_pos h, getMsgQueue]

end MsgQueue

end TruckControl
