import TruckControl.Model.QueueMemory
import TruckControl.Verification.ControlQueue

/-!
# The bounds of the control queue

The pointer is counted up before the store, so the cells in use are `1` to
`MSG_QUEUE_SIZE`, and the last of these is not one of the array.
-/

namespace TruckControl.QueueMemory

variable {τ : Type*}

/-! ## Runs over the memory -/

def step (m : QueueMemory) : QueueCall τ → QueueMemory
  | .addMsgQueue _ cmd => (m.addMsgQueue cmd).2
  | .getMsgQueue => m.getMsgQueue.2.2

/-- The indices at which a call accesses `msg_queue`. -/
def accesses (m : QueueMemory) : QueueCall τ → List ℤ
  | .addMsgQueue _ cmd => (m.addMsgQueue cmd).1
  | .getMsgQueue => m.getMsgQueue.1

/-- The queue at power up, in any memory. -/
def init (mem : ℤ → UCHAR) : QueueMemory := ⟨mem, 0⟩

theorem ptr_nonneg_step {m : QueueMemory} (h : 0 ≤ m.ptr) (call : QueueCall τ) :
    0 ≤ (m.step call).ptr := by
  cases call with
  | addMsgQueue task cmd =>
      rw [step, addMsgQueue]
      split_ifs
      · exact Int.add_nonneg h (by decide)
      · exact h
  | getMsgQueue =>
      rw [step, getMsgQueue]
      split_ifs with hptr
      · exact Int.le_sub_one_of_lt hptr
      · exact h

/-- The memory holds the control queue, also where it holds it behind the array. -/
theorem toMsgQueue_exec (calls : List (QueueCall τ)) {m : QueueMemory} {c : ControlQueue}
    (hptr : 0 ≤ m.ptr) (h : m.toMsgQueue = c.queue) :
    (Transition.exec step m calls).toMsgQueue =
      (Transition.exec ControlQueue.step c calls).queue := by
  induction calls generalizing m c with
  | nil => exact h
  | cons call calls ih =>
      rw [Transition.exec_cons, Transition.exec_cons]
      apply ih (ptr_nonneg_step hptr call)
      cases call with
      | addMsgQueue task cmd =>
          rw [step, toMsgQueue_addMsgQueue cmd hptr, h, ControlQueue.step]
      | getMsgQueue =>
          rw [step, ControlQueue.step, ← h, ← toMsgQueue_getMsgQueue hptr]

/-! ## Accesses in bounds -/

/-- The index is one of `msg_queue`. -/
def InArray (i : ℤ) : Prop := 0 ≤ i ∧ i < msgQueueSize

/-- A call that stays within the array. -/
structure InBounds (m : QueueMemory) (call : QueueCall τ) : Prop where
  accesses : ∀ i ∈ m.accesses call, InArray i
  ptr : 0 ≤ (m.step call).ptr
  outside : ∀ i, ¬ InArray i → (m.step call).mem i = m.mem i

/-- The number of commands that wait, as the calls alone give it. -/
def depth (n : ℕ) : QueueCall τ → ℕ
  | .addMsgQueue _ _ => n + 1
  | .getMsgQueue => n - 1

/-- Until the array is full the pointer is the number of commands that wait. -/
theorem ptr_step {m : QueueMemory} {n : ℕ} (h : m.ptr = n) (hn : n < msgQueueSize)
    (call : QueueCall τ) : (m.step call).ptr = depth n call := by
  cases call with
  | addMsgQueue task cmd =>
      rw [step, addMsgQueue, if_pos (by omega), depth]
      simp only
      omega
  | getMsgQueue =>
      rw [step, getMsgQueue, depth]
      by_cases hptr : m.ptr > 0
      · rw [if_pos hptr]
        simp only
        omega
      · rw [if_neg hptr]
        simp only
        omega

/-- The one call that leaves the array adds to `MSG_QUEUE_SIZE - 1` commands. -/
theorem inBounds_step_iff {m : QueueMemory} {n : ℕ} (h : m.ptr = n) (hn : n < msgQueueSize)
    (call : QueueCall τ) : m.InBounds call ↔ depth n call < msgQueueSize := by
  have hptr : 0 ≤ m.ptr := by omega
  cases call with
  | addMsgQueue task cmd =>
      have hlt : m.ptr < msgQueueSize := by omega
      have hadd : m.addMsgQueue cmd =
          ([m.ptr + 1], ⟨Function.update m.mem (m.ptr + 1) cmd, m.ptr + 1⟩) := if_pos hlt
      rw [depth]
      constructor
      · intro hin
        have hindex := hin.accesses (m.ptr + 1) (by rw [accesses, hadd]; simp)
        have := hindex.2
        omega
      · intro hdepth
        have hindex : InArray (m.ptr + 1) := ⟨by omega, by omega⟩
        refine ⟨?_, ptr_nonneg_step hptr _, ?_⟩
        · intro i hi
          rw [accesses, hadd] at hi
          rwa [List.mem_singleton.mp hi]
        · intro i hi
          have hne : i ≠ m.ptr + 1 := fun heq => hi (heq ▸ hindex)
          rw [step, hadd]
          exact Function.update_of_ne hne _ _
  | getMsgQueue =>
      refine iff_of_true ⟨?_, ptr_nonneg_step hptr _, ?_⟩ ?_
      · intro i hi
        rw [accesses, getMsgQueue] at hi
        split_ifs at hi with hpos
        · rw [List.mem_singleton.mp hi]
          exact ⟨hptr, by omega⟩
        · cases hi
      · intro i _
        rw [step, getMsgQueue]
        split_ifs
        · rfl
        · rfl
      · rw [depth]
        omega

theorem meets_inBounds_iff (calls : List (QueueCall τ)) {m : QueueMemory} {n : ℕ}
    (h : m.ptr = n) (hn : n < msgQueueSize) :
    Transition.Meets step InBounds m calls ↔
      Transition.Meets depth (fun n call => depth n call < msgQueueSize) n calls := by
  induction calls generalizing m n with
  | nil => exact Iff.rfl
  | cons call calls ih =>
      rw [Transition.meets_cons, Transition.meets_cons, inBounds_step_iff h hn]
      exact and_congr_right fun hdepth => ih (ptr_step h hn call) hdepth

/-- Over any calls, every access is within the array, the pointer stays at 0 or above and
nothing outside the array changes, exactly when there are never `MSG_QUEUE_SIZE` commands
that wait. -/
theorem inBounds_iff (mem : ℤ → UCHAR) (calls : List (QueueCall τ)) :
    Transition.Meets step InBounds (init mem) calls ↔
      ∀ first, first <+: calls → Transition.exec depth 0 first < msgQueueSize := by
  rw [meets_inBounds_iff calls (n := 0) rfl (by decide),
    Transition.forall_prefix_iff (I := fun n => n < msgQueueSize)]
  exact (and_iff_right (by decide)).symm

/-- The fiftieth of fifty commands is stored behind the array. -/
theorem not_inBounds_fifty :
    let calls := List.replicate 50 (QueueCall.addMsgQueue () CmdType.onFan.toByte)
    (Transition.exec step (init fun _ => 0) (calls.take 49)).accesses
        (QueueCall.addMsgQueue () CmdType.onFan.toByte) = [50] ∧
      ¬ Transition.Meets step InBounds (init fun _ => 0) calls := by
  refine ⟨by decide +kernel, ?_⟩
  rw [meets_inBounds_iff _ (n := 0) rfl (by decide)]
  decide +kernel

end TruckControl.QueueMemory
