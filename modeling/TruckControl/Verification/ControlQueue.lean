import TruckControl.Library.BufferLog
import TruckControl.Library.Transition
import TruckControl.Model.MsgQueue

/-!
# The control queue as a queue

`get_msg_queue` takes the command that was added last, so the queue keeps the order of
its commands only while all that wait are alike.
-/

namespace TruckControl

/-! ## What the array holds -/

namespace MsgQueue

variable {q : MsgQueue}

/-- The waiting commands as the array holds them. What was stored behind the array is
nothing that C gives back. -/
def stored (q : MsgQueue) : List (Option UCHAR) :=
  (List.range q.ptr).map fun i => if i + 1 < msgQueueSize then some (q.mem (i + 1)) else none

theorem stored_of_lt (h : q.ptr < msgQueueSize) : q.stored = q.waiting.map some := by
  rw [stored, waiting, List.map_map]
  apply List.map_congr_left
  intro i hi
  have hptr := List.mem_range.mp hi
  rw [if_pos (by omega)]
  rfl

theorem none_mem_stored (h : ¬ q.ptr < msgQueueSize) : none ∈ q.stored := by
  rw [msgQueueSize] at h
  refine List.mem_map.mpr ⟨49, List.mem_range.mpr (by omega), ?_⟩
  rw [if_neg (by decide)]

theorem ptr_addMsgQueue (cmd : UCHAR) (h : q.ptr < msgQueueSize) :
    (q.addMsgQueue cmd).ptr = q.ptr + 1 := by
  rw [addMsgQueue, if_pos h]

theorem ptr_getMsgQueue_le (q : MsgQueue) : q.getMsgQueue.2.ptr ≤ q.ptr := by
  rw [getMsgQueue]
  split_ifs
  · exact Nat.sub_le q.ptr 1
  · exact Nat.le_refl q.ptr

end MsgQueue

/-! ## Runs of the queue -/

/-- What the tasks do to the queue: any of them adds, and `basic_controls_task` takes. -/
inductive QueueCall (τ : Type*) where
  | addMsgQueue (task : τ) (cmd : UCHAR)
  | getMsgQueue
  deriving Repr

/-- The queue, all the commands added, and the non-zero commands returned. -/
structure ControlQueue where
  queue : MsgQueue
  added : List UCHAR
  returned : List UCHAR

namespace ControlQueue

variable {τ : Type*}

def init : ControlQueue := ⟨.init, [], []⟩

def step (c : ControlQueue) : QueueCall τ → ControlQueue
  | .addMsgQueue _ cmd =>
      { c with queue := c.queue.addMsgQueue cmd, added := c.added ++ [cmd] }
  | .getMsgQueue =>
      let got := c.queue.getMsgQueue
      { c with
        queue := got.2
        returned := if got.1 = 0#8 then c.returned else c.returned ++ [got.1] }

/-- Nothing is lost or duplicated, and all is in order: the commands that were returned,
followed by those that wait in the array, are those that were added. -/
def InOrder (c : ControlQueue) : Prop :=
  c.returned.map some ++ c.queue.stored = c.added.map some

/-- The call adds a command, and not beyond `MSG_QUEUE_SIZE`. -/
def InRange (c : ControlQueue) : QueueCall τ → Prop
  | .addMsgQueue _ cmd => cmd ≠ 0#8 ∧ c.queue.ptr < msgQueueSize
  | .getMsgQueue => True

/-- What keeps the order: the cell that an added command is stored in is one of the array,
and all the commands that wait are alike when one is taken. -/
def KeepsOrder (c : ControlQueue) : QueueCall τ → Prop
  | .addMsgQueue _ _ => c.queue.ptr + 1 < msgQueueSize
  | .getMsgQueue => ∀ x ∈ c.queue.waiting, ∀ y ∈ c.queue.waiting, y = x

instance (c : ControlQueue) : Decidable c.InOrder := inferInstanceAs (Decidable (_ = _))

instance (c : ControlQueue) : DecidablePred (c.InRange (τ := τ))
  | .addMsgQueue _ _ => inferInstanceAs (Decidable (_ ∧ _))
  | .getMsgQueue => .isTrue trivial

instance (c : ControlQueue) : DecidablePred (c.KeepsOrder (τ := τ))
  | .addMsgQueue _ _ => inferInstanceAs (Decidable (_ < _))
  | .getMsgQueue =>
      inferInstanceAs (Decidable (∀ x ∈ c.queue.waiting, ∀ y ∈ c.queue.waiting, y = x))

/-- The history of the queue as the history of a buffer. -/
def log (c : ControlQueue) : BufferLog UCHAR := ⟨c.added, c.returned, c.queue.waiting⟩

theorem inOrder_iff {c : ControlQueue} :
    c.InOrder ↔ c.queue.ptr < msgQueueSize ∧ c.log.InOrder := by
  by_cases h : c.queue.ptr < msgQueueSize
  · simp only [h, true_and]
    rw [InOrder, MsgQueue.stored_of_lt h, ← List.map_append]
    exact (List.map_injective_iff.mpr fun _ _ h => Option.some.inj h).eq_iff
  · simp only [h, false_and, iff_false]
    intro hin
    have hmem := List.mem_append_right (c.returned.map some) (MsgQueue.none_mem_stored h)
    rw [InOrder] at hin
    rw [hin] at hmem
    simp at hmem

/-- In order, and without zeros. -/
structure Valid (c : ControlQueue) : Prop where
  inOrder : c.InOrder
  nonzero : ∀ cmd ∈ c.queue.waiting, cmd ≠ 0#8

theorem valid_init : init.Valid := ⟨rfl, fun _ h => by cases h⟩

theorem Valid.add {c : ControlQueue} (h : c.Valid) {task : τ} {cmd : UCHAR}
    (hrange : c.InRange (.addMsgQueue task cmd)) :
    (∀ x ∈ (c.step (.addMsgQueue task cmd)).queue.waiting, x ≠ 0#8) ∧
      ((c.step (.addMsgQueue task cmd)).InOrder ↔ c.KeepsOrder (.addMsgQueue task cmd)) := by
  obtain ⟨hcmd, hptr⟩ := hrange
  have hwaiting := c.queue.waiting_addMsgQueue cmd hptr
  refine ⟨?_, ?_⟩
  · intro x hx
    rw [step, hwaiting] at hx
    rcases List.mem_append.mp hx with hx | hx
    · exact h.nonzero x hx
    · rwa [List.mem_singleton.mp hx]
  · have hlog := (inOrder_iff.mp h.inOrder).2.add cmd
    rw [inOrder_iff, step, MsgQueue.ptr_addMsgQueue cmd hptr, log, hwaiting]
    exact and_iff_left hlog

theorem Valid.get {c : ControlQueue} (h : c.Valid) :
    (∀ x ∈ (c.step (.getMsgQueue : QueueCall τ)).queue.waiting, x ≠ 0#8) ∧
      ((c.step (.getMsgQueue : QueueCall τ)).InOrder ↔
        c.KeepsOrder (.getMsgQueue : QueueCall τ)) := by
  by_cases hempty : c.queue.waiting = []
  · have hsame : c.step (.getMsgQueue : QueueCall τ) = c := by
      rw [step, c.queue.getMsgQueue_of_empty hempty]
      rfl
    rw [hsame]
    refine ⟨h.nonzero, iff_of_true h.inOrder ?_⟩
    intro x hx
    rw [hempty] at hx
    cases hx
  · -- the newest command is taken
    have hlast := c.queue.waiting_getMsgQueue hempty
    have hmem : c.queue.getMsgQueue.1 ∈ c.queue.waiting := by
      rw [hlast]
      exact List.mem_append_right _ (List.mem_singleton_self _)
    have hstep : c.step (.getMsgQueue : QueueCall τ) =
        { c with
          queue := c.queue.getMsgQueue.2
          returned := c.returned ++ [c.queue.getMsgQueue.1] } := by
      simp only [step, if_neg (h.nonzero _ hmem)]
    have hptr : c.queue.getMsgQueue.2.ptr < msgQueueSize :=
      Nat.lt_of_le_of_lt c.queue.ptr_getMsgQueue_le (inOrder_iff.mp h.inOrder).1
    have hlog := (inOrder_iff.mp h.inOrder).2
    rw [log, hlast] at hlog
    rw [hstep]
    refine ⟨?_, ?_⟩
    · intro x hx
      apply h.nonzero x
      rw [hlast]
      exact List.mem_append_left _ hx
    · rw [inOrder_iff, and_iff_right hptr, log, hlog.takeLast_iff, KeepsOrder]
      constructor
      · intro hall
        have heq (x : UCHAR) (hx : x ∈ c.queue.waiting) : x = c.queue.getMsgQueue.1 := by
          rw [hlast] at hx
          rcases List.mem_append.mp hx with hx | hx
          · exact hall x hx
          · exact List.mem_singleton.mp hx
        intro x hx y hy
        rw [heq x hx, heq y hy]
      · intro hall y hy
        apply hall _ hmem
        rw [hlast]
        exact List.mem_append_left _ hy

theorem Valid.step {c : ControlQueue} (h : c.Valid) {call : QueueCall τ}
    (hrange : c.InRange call) :
    (∀ x ∈ (c.step call).queue.waiting, x ≠ 0#8) ∧
      ((c.step call).InOrder ↔ c.KeepsOrder call) := by
  cases call with
  | addMsgQueue task cmd => exact h.add hrange
  | getMsgQueue => exact h.get

/-- Over any calls of any tasks, the queue is in order after each of them exactly when no
command is stored behind the array, and none is taken while different commands wait. -/
theorem fifo_iff {τ : Type*} (calls : List (QueueCall τ))
    (hrange : Transition.Meets step InRange init calls) :
    Transition.Meets step (fun c call => (c.step call).InOrder) init calls ↔
      Transition.Meets step KeepsOrder init calls := by
  refine Transition.meets_congr_of_meets (I := Valid) ?_ ?_ valid_init hrange
  · intro c call h hcall hin
    exact ⟨hin, (h.step hcall).1⟩
  · intro c call h hcall
    exact (h.step hcall).2

/-- Two tasks add `ON_FAN`, and both come back. -/
theorem fifo_alike :
    Transition.Meets step (fun c call => (c.step call).InOrder) init
      [.addMsgQueue 0 CmdType.onFan.toByte, .addMsgQueue 1 CmdType.onFan.toByte,
        .getMsgQueue, .getMsgQueue] :=
  (fifo_iff [.addMsgQueue 0 CmdType.onFan.toByte, .addMsgQueue 1 CmdType.onFan.toByte,
    .getMsgQueue, .getMsgQueue] (by decide)).mpr (by decide)

/-- `START_SEQ` and then `SHUTDOWN` come back the other way round. -/
theorem not_fifo_start_shutdown :
    let calls : List (QueueCall ℕ) :=
      [.addMsgQueue 0 CmdType.startSeq.toByte, .addMsgQueue 1 CmdType.shutdown.toByte,
        .getMsgQueue, .getMsgQueue]
    Transition.Meets step InRange init calls ∧
      (Transition.exec step init calls).added =
        [CmdType.startSeq.toByte, CmdType.shutdown.toByte] ∧
      (Transition.exec step init calls).returned =
        [CmdType.shutdown.toByte, CmdType.startSeq.toByte] ∧
      ¬ Transition.Meets step (fun c call => (c.step call).InOrder) init calls := by
  decide

end ControlQueue

end TruckControl
