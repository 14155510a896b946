import TruckControl.Library.Monitor

/-! # The start of the tasks -/

namespace TruckControl

open Monitor

namespace WorkRoutine

/-- How far a thread is in `work_routine`. -/
inductive Stage where
  | created
  | cleared
  | started
  deriving DecidableEq

/-- The count of the threads that are ready, and the loop around the wait. -/
inductive Call where
  | ready
  | wait
  deriving DecidableEq

/-- What is done under `threads_ready_lock`, with `threads_ready_count` as it is. -/
def test (n : ℕ) : Call → ℕ → Outcome ℕ Call Unit
  | .ready, threadsReadyCount =>
      let threadsReadyCount := threadsReadyCount + 1
      if threadsReadyCount = n then .done threadsReadyCount .broadcast ()
      else .wait threadsReadyCount .wait
  | .wait, threadsReadyCount =>
      if threadsReadyCount ≠ n then .wait threadsReadyCount .wait
      else .done threadsReadyCount .nobody ()

/-- `work_routine` in `NUM_TASKS` threads, over `shutdown_all`. A task that has started may
store into it, or leave it as it is. -/
def workRoutine (n : ℕ) : Monitor (Fin n) ℕ Call Unit Stage ℕ (Option ℕ) where
  test := test n
  may stage c := decide (stage = .cleared ∧ c = .ready)
  next _ _ _ := .started
  work _ stored stage shutdownAll :=
    match stage with
    | .created => some (.cleared, 0)
    | .cleared => none
    | .started => some (.started, stored.getD shutdownAll)

abbrev Threads (n : ℕ) : Type := State (Fin n) ℕ Call Stage ℕ

def start (n shutdownAll : ℕ) : Threads n :=
  ⟨0, none, fun _ => .outside, fun _ => .created, shutdownAll⟩

def Init {n : ℕ} (s : Threads n) : Prop :=
  ∃ shutdownAll, s = start n shutdownAll

end WorkRoutine

end TruckControl
