import Mathlib.Data.Int.Notation
import TruckControl.Model.MsgQueue

/-! # `msg_queue` in memory -/

namespace TruckControl

/-- `msg_queue_ptr`, and the memory that `msg_queue` lies in: the cells `0` to
`msgQueueSize - 1` are those of the array, all others belong to something else. -/
structure QueueMemory where
  mem : ℤ → UCHAR
  ptr : ℤ

namespace QueueMemory

/-- The indices at which `msg_queue` is accessed, and what the call leaves. -/
def addMsgQueue (cmd : UCHAR) (m : QueueMemory) : List ℤ × QueueMemory :=
  if m.ptr < msgQueueSize then
    ([m.ptr + 1], ⟨Function.update m.mem (m.ptr + 1) cmd, m.ptr + 1⟩)
  else ([], m)

def getMsgQueue (m : QueueMemory) : List ℤ × UCHAR × QueueMemory :=
  if m.ptr > 0 then ([m.ptr], m.mem m.ptr, { m with ptr := m.ptr - 1 }) else ([], 0, m)

/-- The queue as the rest of the program sees it. -/
def toMsgQueue (m : QueueMemory) : MsgQueue := ⟨fun i => m.mem i, m.ptr.toNat⟩

@[simp] theorem ptr_toMsgQueue (m : QueueMemory) : m.toMsgQueue.ptr = m.ptr.toNat := rfl

theorem toMsgQueue_addMsgQueue (cmd : UCHAR) {m : QueueMemory} (h : 0 ≤ m.ptr) :
    (m.addMsgQueue cmd).2.toMsgQueue = m.toMsgQueue.addMsgQueue cmd := by
  rw [addMsgQueue, MsgQueue.addMsgQueue, ptr_toMsgQueue]
  by_cases hptr : m.ptr < msgQueueSize
  · have hsucc : (m.ptr + 1).toNat = m.ptr.toNat + 1 := by omega
    have hmem (i : ℕ) : Function.update m.mem (m.ptr + 1) cmd i =
        Function.update (fun j : ℕ => m.mem j) (m.ptr.toNat + 1) cmd i := by
      have hiff : (i : ℤ) = m.ptr + 1 ↔ i = m.ptr.toNat + 1 := by omega
      simp only [Function.update_apply, hiff]
    rw [if_pos hptr, if_pos (by omega)]
    simp only [toMsgQueue, hsucc, hmem]
  · rw [if_neg hptr, if_neg (by omega)]

theorem toMsgQueue_getMsgQueue {m : QueueMemory} (h : 0 ≤ m.ptr) :
    (m.getMsgQueue.2.1, m.getMsgQueue.2.2.toMsgQueue) = m.toMsgQueue.getMsgQueue := by
  rw [getMsgQueue, MsgQueue.getMsgQueue, ptr_toMsgQueue]
  by_cases hptr : m.ptr > 0
  · have hcell : ((m.ptr.toNat : ℕ) : ℤ) = m.ptr := Int.toNat_of_nonneg h
    have hpred : (m.ptr - 1).toNat = m.ptr.toNat - 1 := by omega
    rw [if_pos hptr, if_pos (by omega)]
    simp only [toMsgQueue, hcell, hpred]
  · rw [if_neg hptr, if_neg (by omega)]

end QueueMemory

end TruckControl
