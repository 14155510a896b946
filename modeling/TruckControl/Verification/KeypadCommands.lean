import TruckControl.Library.Reports
import TruckControl.Model.SerialLine
import TruckControl.Model.Truck

/-!
# Keypad commands

The keys as a machine of toggles, and `serial_recv_task` beside it.
-/

namespace TruckControl

open MarkedFrames

/-! ## The toggles -/

inductive WiperState where
  | off
  | wiper1
  | wiper2
  deriving DecidableEq, Repr

/-- What the keys have switched on. -/
structure Toggles where
  fan : Bool
  runningLights : Bool
  lights : Bool
  brights : Bool
  wipers : WiperState
  deriving DecidableEq, Repr

namespace Toggles

def init : Toggles := ⟨false, false, false, false, .off⟩

/-- What a key switches. -/
def press (t : Toggles) : KeyType → Toggles
  | .kp3 => if t.lights then { t with brights := !t.brights } else t
  | .kp4 => { t with fan := !t.fan }
  | .kp6 => { t with runningLights := !t.runningLights }
  | .kp7 => { t with lights := !t.lights, brights := false }
  | .kp8 =>
      match t.wipers with
      | .off => { t with wipers := .wiper1 }
      | .wiper1 => { t with wipers := .wiper2 }
      | .wiper2 => { t with wipers := .off }
  | _ => t

/-- The commands a key stands for. -/
def commands (t : Toggles) : KeyType → List CmdType
  | .kp1 => [.startSeq]
  | .kp2 => [.shutdown]
  | .kp3 => if t.lights then [if t.brights then .offBrights else .onBrights] else []
  | .kp4 => [if t.fan then .offFan else .onFan]
  | .kp6 => [if t.runningLights then .offRunningLights else .onRunningLights]
  | .kp7 =>
      (if t.lights then .offLights else .onLights) :: if t.brights then [.offBrights] else []
  | .kp8 =>
      match t.wipers with
      | .off => [.wiper1]
      | .wiper1 => [.wiper2]
      | .wiper2 => [.wiperOff]
  | _ => []

/-- A frame whose command byte is no key does nothing. -/
def step (t : Toggles) (cmd : UCHAR) : Toggles :=
  match KeyType.ofByte cmd with
  | some key => t.press key
  | none => t

def out (t : Toggles) (cmd : UCHAR) : List UCHAR :=
  match KeyType.ofByte cmd with
  | some key => (t.commands key).map CmdType.toByte
  | none => []

/-- The flags of `serial_recv_task` in these positions. -/
def toKeypad (t : Toggles) : Keypad where
  brights := t.brights.toNat
  fanOn := t.fan.toNat
  runningLights := t.runningLights.toNat
  lightsOn := t.lights.toNat
  wipers :=
    match t.wipers with
    | .off => 0
    | .wiper1 => 1
    | .wiper2 => 2

end Toggles

/-! ## One frame -/

namespace Keypad

def step (k : Keypad) (cmd : UCHAR) : Keypad := (k.serialRecvTask cmd).1

def out (k : Keypad) (cmd : UCHAR) : List UCHAR := (k.serialRecvTask cmd).2

/-- The task keeps its flags as the toggles are, on every key. -/
theorem step_toKeypad (t : Toggles) (cmd : UCHAR) :
    t.toKeypad.step cmd = (t.step cmd).toKeypad := by
  obtain ⟨fan, runningLights, lights, brights, wipers⟩ := t
  rw [step, serialRecvTask, Toggles.step]
  cases KeyType.ofByte cmd with
  | none => rfl
  | some key =>
      cases key with
      | kp3 => cases lights <;> cases brights <;> rfl
      | kp4 => cases fan <;> rfl
      | kp6 => cases runningLights <;> rfl
      | kp7 => cases lights <;> cases brights <;> rfl
      | kp8 => cases wipers <;> rfl
      | _ => rfl

/-- It queues what the key stands for, but for the key of the wipers. -/
theorem out_toKeypad (t : Toggles) {cmd : UCHAR} (h : KeyType.ofByte cmd ≠ some .kp8) :
    t.toKeypad.out cmd = t.out cmd := by
  obtain ⟨fan, runningLights, lights, brights, wipers⟩ := t
  rw [out, serialRecvTask, Toggles.out]
  cases hkey : KeyType.ofByte cmd with
  | none => rfl
  | some key =>
      cases key with
      | kp3 => cases lights <;> cases brights <;> rfl
      | kp4 => cases fan <;> rfl
      | kp6 => cases runningLights <;> rfl
      | kp7 => cases lights <;> cases brights <;> rfl
      | kp8 => exact absurd hkey h
      | _ => rfl

/-- The key of the wipers stands for one command, and nothing is queued. -/
theorem out_kp8 (t : Toggles) {cmd : UCHAR} (h : KeyType.ofByte cmd = some .kp8) :
    t.toKeypad.out cmd = [] ∧ (t.out cmd).length = 1 := by
  obtain ⟨fan, runningLights, lights, brights, wipers⟩ := t
  rw [out, serialRecvTask, Toggles.out, h]
  cases wipers <;> exact ⟨rfl, rfl⟩

end Keypad

/-! ## Any frames -/

/-- `read_serial_buffer[0]`. -/
def frameCmd (f : Fin serialBuffSize → UCHAR) : UCHAR := f ⟨0, by decide⟩

/-- What goes over the line for a frame: the marker and `SERIAL_BUFF_SIZE` bytes. -/
def keypadLine (frames : List (Fin serialBuffSize → UCHAR)) : List UCHAR :=
  frames.flatMap fun f => frame marker (List.ofFn f)

/-- The command bytes of the frames that `serial_recv_task` reads from a line, from power
up on. -/
def receivedCmds (line : List UCHAR) : List UCHAR :=
  (recvs marker serialBuffSize .hunting line).2.map fun buffer => buffer.headD 0#8

/-- The commands it then puts on the control queue. -/
def queuedCommands (line : List UCHAR) : List UCHAR :=
  Transition.reports Keypad.step Keypad.out .init (receivedCmds line)

theorem receivedCmds_keypadLine (frames : List (Fin serialBuffSize → UCHAR)) :
    receivedCmds (keypadLine frames) = frames.map frameCmd := by
  have hall : recvs marker serialBuffSize .hunting (keypadLine frames) =
      (.hunting, frames.map List.ofFn) := by
    induction frames with
    | nil => rfl
    | cons f frames ih =>
        rw [keypadLine, List.flatMap_cons, recvs_append, recvs_frame (List.length_ofFn (f := f))]
        simp only
        rw [← keypadLine, ih]
        rfl
  rw [receivedCmds, hall, List.map_map]
  rfl

/-- The commands on the queue are those of the toggles exactly when the key of the wipers is
never pressed. -/
theorem queuedCommands_iff (frames : List (Fin serialBuffSize → UCHAR)) :
    queuedCommands (keypadLine frames) =
        Transition.reports Toggles.step Toggles.out .init (frames.map frameCmd) ↔
      ∀ f ∈ frames, KeyType.ofByte (frameCmd f) ≠ some .kp8 := by
  have hstep (k : Keypad) (t : Toggles) (cmd : UCHAR) (h : k = t.toKeypad) :
      k.step cmd = (t.step cmd).toKeypad := by
    rw [h, Keypad.step_toKeypad]
  have hsame (k : Keypad) (t : Toggles) (cmd : UCHAR) (h : k = t.toKeypad)
      (hcmd : KeyType.ofByte cmd ≠ some .kp8) : k.out cmd = t.out cmd := by
    rw [h, Keypad.out_toKeypad t hcmd]
  have hless (k : Keypad) (t : Toggles) (cmd : UCHAR) (h : k = t.toKeypad)
      (hcmd : ¬ KeyType.ofByte cmd ≠ some .kp8) : (k.out cmd).length < (t.out cmd).length := by
    obtain ⟨hnone, hone⟩ := Keypad.out_kp8 t (not_not.mp hcmd)
    rw [h, hnone, hone]
    exact Nat.one_pos
  have hinit : Keypad.init = Toggles.init.toKeypad := rfl
  rw [queuedCommands, receivedCmds_keypadLine,
    Transition.reports_eq_iff hstep hsame hless hinit, List.forall_mem_map]

/-- One press of the key of the wipers puts nothing on the queue, and stands for `WIPER1`. -/
theorem not_queued_kp8 :
    queuedCommands (keypadLine [fun _ => KeyType.kp8.toByte]) = [] ∧
      Transition.reports Toggles.step Toggles.out .init [KeyType.kp8.toByte] =
        [CmdType.wiper1.toByte] := by
  decide

end TruckControl
