import TruckControl.Model.Controller
import TruckControl.Model.Stm32

/-! # The TS-7200 and the STM32 on one serial line -/

namespace TruckControl

/-! ## `serial_recv_task` -/

/-- The key a byte stands for. -/
def KeyType.ofByte (b : UCHAR) : Option KeyType :=
  if 0xE0 ≤ b.toNat ∧ b.toNat < 0xF0 then some (KeyType.ofNat (b.toNat - 0xE0)) else none

/-- What `serial_recv_task` has switched by keys, as it remembers it. -/
structure Keypad where
  brights : ℕ
  fanOn : ℕ
  runningLights : ℕ
  lightsOn : ℕ
  wipers : ℕ
  deriving DecidableEq, Repr

namespace Keypad

def init : Keypad := ⟨0, 0, 0, 0, 0⟩

/-- `serial_recv_task` on the command byte of a frame: the commands it puts on the control
queue. The range `ENABLE_START` to `WIPER_OFF` is not looked at, and the `add_msg_queue`
of `KP_8` stands behind the `break` of every case. -/
def serialRecvTask (cmd : UCHAR) (k : Keypad) : Keypad × List UCHAR :=
  match KeyType.ofByte cmd with
  | some .kp1 => (k, [CmdType.startSeq.toByte])
  | some .kp2 => (k, [CmdType.shutdown.toByte])
  | some .kp3 =>
      if k.lightsOn = 1 then
        if k.brights = 0 then ({ k with brights := 1 }, [CmdType.onBrights.toByte])
        else ({ k with brights := 0 }, [CmdType.offBrights.toByte])
      else (k, [])
  | some .kp4 =>
      if k.fanOn = 0 then ({ k with fanOn := 1 }, [CmdType.onFan.toByte])
      else ({ k with fanOn := 0 }, [CmdType.offFan.toByte])
  | some .kp6 =>
      if k.runningLights = 0 then ({ k with runningLights := 1 }, [CmdType.onRunningLights.toByte])
      else ({ k with runningLights := 0 }, [CmdType.offRunningLights.toByte])
  | some .kp7 =>
      let first := if k.lightsOn = 0 then ({ k with lightsOn := 1 }, [CmdType.onLights.toByte])
        else ({ k with lightsOn := 0 }, [CmdType.offLights.toByte])
      if first.1.brights = 1 then
        ({ first.1 with brights := 0 }, first.2 ++ [CmdType.offBrights.toByte])
      else first
  | some .kp8 =>
      if k.wipers = 0 then ({ k with wipers := 1 }, [])
      else if k.wipers = 1 then ({ k with wipers := 2 }, [])
      else ({ k with wipers := 0 }, [])
  | _ => (k, [])

/-- The commands that a key can bring on the queue. -/
def keyCommands : KeyType → List CmdType
  | .kp1 => [.startSeq]
  | .kp2 => [.shutdown]
  | .kp3 => [.onBrights, .offBrights]
  | .kp4 => [.onFan, .offFan]
  | .kp6 => [.onRunningLights, .offRunningLights]
  | .kp7 => [.onLights, .offLights, .offBrights]
  | _ => []

theorem mem_serialRecvTask {cmd add : UCHAR} {k : Keypad} (h : add ∈ (k.serialRecvTask cmd).2) :
    ∃ key, KeyType.ofByte cmd = some key ∧ ∃ c ∈ keyCommands key, c.toByte = add := by
  rw [serialRecvTask] at h
  cases hkey : KeyType.ofByte cmd with
  | none => simp [hkey] at h
  | some key =>
      refine ⟨key, rfl, ?_⟩
      simp only [hkey] at h
      cases key with
      | kp1 | kp2 => simpa [keyCommands, eq_comm] using h
      | kp3 | kp4 | kp6 | kp7 | kp8 =>
          dsimp only at h
          split_ifs at h <;> simp at h <;> simp [keyCommands] <;> tauto
      | _ => simp at h

end Keypad

/-! ## The frames of the other tasks -/

/-- The commands that `get_host_cmd_task` sends on to the STM32 and puts on the queue. -/
def hostCommands : List CmdType :=
  [.enableStart, .starterOff, .onAcc, .offAcc, .onFuelPump, .offFuelPump, .onFan, .offFan,
    .onLights, .offLights, .startSeq, .shutdown, .shutdownIobox, .rebootIobox, .uploadNew,
    .uploadNewParam, .uploadOther, .shellAndRename, .testLeftBlinker, .testRightBlinker,
    .onBrights, .offBrights, .onBrakes, .offBrakes, .onLlights, .offLlights, .onLbrights,
    .offLbrights, .onRlights, .offRlights, .onRbrights, .offRbrights, .onRunningLights,
    .offRunningLights, .specialCmd, .wiper1, .wiper2, .wiperOff]

/-- What `timer_task` sends to the STM32 as it puts commands on the queue. The bytes behind
these commands are left over in `tempx`; the STM32 looks at none, and zeros stand for them. -/
def timerSends (s : IoState) : List CmdType :=
  if s.engineRunning = 1 then
    let clock := tickClock s.runningHours s.runningMinutes s.runningSeconds
    if clock.2.1 = 0#8 ∧ clock.2.2 = 15#8 then [.onLights, .onRunningLights] else []
  else if s.lightsOnCountdown > 0 then
    if s.lightsOnCountdown - 1 = 0 then [.offLights, .offRunningLights, .offFan] else []
  else []

theorem mem_timerSends {s : IoState} {cmd : CmdType} (h : cmd ∈ timerSends s) :
    cmd ∈ [CmdType.onLights, .onRunningLights, .offLights, .offRunningLights, .offFan] := by
  rw [timerSends] at h
  split_ifs at h <;> simp at h ⊢ <;> tauto

/-! ## The two processors -/

structure Truck where
  server : Controller
  keypad : Keypad
  /-- The command that `get_host_cmd_task` has sent on but not yet put on the queue. -/
  host : Option UCHAR
  toServer : List UCHAR
  toStm32 : List SendSerial
  stm32 : Stm32

inductive TruckEvent where
  /-- A task of the server that is not one of the next. -/
  | server (e : Event)
  /-- `get_host_cmd_task` receives a command and sends it on. -/
  | hostCmd (cmd : CmdType) (buf : ℕ → UCHAR)
  | hostAddMsgQueue
  /-- A task of the server sends some other frame. -/
  | sendSerialother (frame : SendSerial)
  | serialRecvTask
  | startDefaultTask (key : KeyType)
  | callback01 (rawData : ℤ)
  | startRecvFPGA
  | startTask7200
  | startRecv7200

namespace Truck

def addMsgQueues (cmds : List UCHAR) (c : Controller) : Controller :=
  cmds.foldl (fun c cmd => c.step (.addMsgQueue cmd)) c

/-- Frames arrive whole and in order. -/
def step (t : Truck) : TruckEvent → Truck
  | .server (.addMsgQueue _) => t
  | .server .timerTask =>
      { t with
        server := t.server.step .timerTask
        toStm32 := t.toStm32 ++ (timerSends t.server.io).map fun cmd => sendSerial cmd.toByte }
  | .server e => { t with server := t.server.step e }
  | .hostCmd cmd buf =>
      if t.host = none ∧ cmd ∈ hostCommands then
        { t with host := some cmd.toByte, toStm32 := t.toStm32 ++ [⟨cmd.toByte, buf⟩] }
      else t
  | .hostAddMsgQueue =>
      match t.host with
      | none => t
      | some cmd => { t with server := t.server.step (.addMsgQueue cmd), host := none }
  | .sendSerialother frame =>
      if actuator frame.cmd then t else { t with toStm32 := t.toStm32 ++ [frame] }
  | .serialRecvTask =>
      match t.toServer with
      | [] => t
      | cmd :: rest =>
          let got := t.keypad.serialRecvTask cmd
          { t with
            server := addMsgQueues got.2 t.server
            keypad := got.1
            toServer := rest }
  | .startDefaultTask key => { t with stm32 := t.stm32.startDefaultTask key }
  | .callback01 rawData => { t with stm32 := t.stm32.callback01 rawData }
  | .startRecvFPGA => { t with stm32 := t.stm32.startRecvFPGA }
  | .startTask7200 =>
      { t with
        stm32 := t.stm32.startTask7200.1
        toServer := t.toServer ++ t.stm32.startTask7200.2 }
  | .startRecv7200 =>
      match t.toStm32 with
      | [] => t
      | frame :: rest => { t with stm32 := t.stm32.startRecv7200 frame, toStm32 := rest }

/-- An event of the server's own is a step of the server, and may send some of the frames
of `timer_task`. -/
theorem step_server (t : Truck) {e : Event} (he : ∀ cmd, e ≠ .addMsgQueue cmd) :
    ∃ cmds : List CmdType, (∀ cmd ∈ cmds, cmd ∈
        [CmdType.onLights, .onRunningLights, .offLights, .offRunningLights, .offFan]) ∧
      t.step (.server e) = { t with
        server := t.server.step e
        toStm32 := t.toStm32 ++ cmds.map fun cmd => sendSerial cmd.toByte } := by
  have hquiet {e : Event} (hstep : t.step (.server e) = { t with server := t.server.step e }) :
      t.step (.server e) = { t with
        server := t.server.step e
        toStm32 := t.toStm32 ++ ([] : List CmdType).map fun cmd => sendSerial cmd.toByte } := by
    rw [hstep, List.map_nil, List.append_nil]
  cases e with
  | addMsgQueue cmd => exact absurd rfl (he cmd)
  | timerTask => exact ⟨timerSends t.server.io, fun _ => mem_timerSends, by rw [step]⟩
  | getMsgQueue => exact ⟨[], by simp, hquiet rfl⟩
  | basicControlsTask => exact ⟨[], by simp, hquiet rfl⟩
  | monitorInputTask bank result => exact ⟨[], by simp, hquiet rfl⟩
  | monitorFakeInputTask bank => exact ⟨[], by simp, hquiet rfl⟩
  | lightsOnDelay delay => exact ⟨[], by simp, hquiet rfl⟩

/-- Both processors after power up, with the `SERVER_UP` of `serial_recv_task` on the
line. -/
def boot (db : Database) (inports : Banks) (lightsOnDelay : ℕ) (sendBuffer : ℕ → UCHAR) :
    Truck where
  server := Controller.boot db inports lightsOnDelay
  keypad := .init
  host := none
  toServer := []
  toStm32 := [⟨CmdType.serverUp.toByte, sendBuffer⟩]
  stm32 := .init

/-- The states after any history of both processors. -/
def Reachable (db : Database) : Truck → Prop :=
  Transition.Reachable step fun t =>
    ∃ inports lightsOnDelay sendBuffer, t = boot db inports lightsOnDelay sendBuffer

end Truck

end TruckControl
