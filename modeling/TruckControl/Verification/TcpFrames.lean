import Mathlib.Data.Fintype.Basic
import TruckControl.Model.Tcp

/-!
# Frames on the socket and on the serial port

Any number of tasks send, and a run is an interleaving of what each of them does under
the lock. `send_msg` takes the lock once for every byte, `send_serial` once for a frame.
-/

namespace TruckControl

open Interleaving

variable {ι : Type*}

/-- The bytes written, whoever wrote them. -/
def Interleaving.bytes (s : Interleaving ι (List UCHAR)) : List UCHAR :=
  s.stream.flatMap Prod.snd

/-- The frames that the tasks write to the socket. -/
def msgFrames (tasks : ι → List SendMsg) (i : ι) : List (Frame (List UCHAR)) :=
  (tasks i).map SendMsg.sendTcps

/-- The message of one call. -/
def msgBytes (tasks : ι → List SendMsg) (call : ι × ℕ) : List UCHAR :=
  match (tasks call.1)[call.2]? with
  | none => []
  | some m => m.bytes

theorem bytes_framePieces (tasks : ι → List SendMsg) (call : ι × ℕ) :
    (framePieces (msgFrames tasks) call).flatMap Prod.snd = msgBytes tasks call := by
  rw [framePieces, msgFrames, msgBytes, List.getElem?_map]
  cases (tasks call.1)[call.2]? with
  | none => rfl
  | some m => simp [SendMsg.bytes, List.flatMap, Function.comp_def]

/-- A stream of whole frames is a concatenation of messages. -/
theorem bytes_of_whole {tasks : ι → List SendMsg} {s : Interleaving ι (List UCHAR)}
    (h : Whole (msgFrames tasks) s) :
    ∃ order : List (ι × ℕ), order.Nodup ∧ s.bytes = order.flatMap (msgBytes tasks) := by
  obtain ⟨order, hnodup, hstream⟩ := h
  refine ⟨order, hnodup, ?_⟩
  rw [Interleaving.bytes, hstream, List.flatMap_assoc]
  simp only [bytes_framePieces]

section

variable [DecidableEq ι]

/-- Once all calls have been made, the socket carries whole messages, none inside another,
exactly when no task sent while another was inside `send_msg`. -/
theorem sendMsg_whole_iff (tasks : ι → List SendMsg) (schedule : List ι)
    (hdone : Finished (msgFrames tasks)
      (Transition.exec (step (msgFrames tasks)) start schedule)) :
    Whole (msgFrames tasks) (Transition.exec (step (msgFrames tasks)) start schedule) ↔
      Transition.Meets (step (msgFrames tasks)) (Undivided (msgFrames tasks)) start schedule :=
  whole_iff hdone

/-- The serial port always carries whole frames. -/
theorem sendSerial_whole (tasks : ι → List SendSerial) (schedule : List ι)
    (hdone : Finished (fun i => (tasks i).map SendSerial.writes)
      (Transition.exec (step fun i => (tasks i).map SendSerial.writes) start schedule)) :
    Whole (fun i => (tasks i).map SendSerial.writes)
      (Transition.exec (step fun i => (tasks i).map SendSerial.writes) start schedule) := by
  refine whole_of_atomic ?_ hdone
  intro i f hf
  obtain ⟨m, -, rfl⟩ := List.mem_map.mp hf
  rfl

end

/-! ## Two tasks -/

/-- `timer_task` reports the uptime and `serial_recv_task` the engine temperature, both
with an empty text. -/
def twoTasks (i : Fin 2) : List SendMsg :=
  [⟨0, fun _ => 0#8, if i = 0 then CmdType.serverUptime.toByte else CmdType.engineTemp.toByte⟩]

/-- One after the other. -/
theorem sendMsg_whole_twoTasks :
    Whole (msgFrames twoTasks) (Transition.exec (step (msgFrames twoTasks)) start
      (List.replicate 13 0 ++ List.replicate 13 1)) :=
  (sendMsg_whole_iff twoTasks (List.replicate 13 0 ++ List.replicate 13 1)
    (by decide +kernel)).mpr (by decide +kernel)

/-- The second task sends its first piece in the middle of the first frame. -/
theorem sendMsg_divided_twoTasks :
    let schedule : List (Fin 2) := List.replicate 5 0 ++ [1] ++ List.replicate 8 0 ++
      List.replicate 12 1
    let s := Transition.exec (step (msgFrames twoTasks)) start schedule
    Finished (msgFrames twoTasks) s ∧ ¬ Whole (msgFrames twoTasks) s ∧
      s.bytes ≠ msgBytes twoTasks (0, 0) ++ msgBytes twoTasks (1, 0) ∧
      s.bytes ≠ msgBytes twoTasks (1, 0) ++ msgBytes twoTasks (0, 0) := by
  intro schedule s
  have hdone : Finished (msgFrames twoTasks) s := by decide +kernel
  refine ⟨hdone, ?_, by decide +kernel, by decide +kernel⟩
  rw [whole_iff hdone]
  decide +kernel

end TruckControl
