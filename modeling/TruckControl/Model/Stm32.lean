import TruckControl.Model.Tcp

/-! # The STM32, its keypad and its temperature sensors -/

namespace TruckControl

/-- `ENABLE_START` to `WIPER_OFF`. -/
def actuator (cmd : UCHAR) : Bool :=
  CmdType.enableStart.toByte ≤ cmd && cmd ≤ CmdType.wiperOff.toByte

/-- The byte at `buff[i]` of a received frame. -/
def SendSerial.buff (frame : SendSerial) : ℕ → UCHAR
  | 0 => frame.cmd
  | i + 1 => frame.buf i

/-- What the tasks of the STM32 share. Of a frame to the TS-7200 only the command byte is
kept. -/
structure Stm32 where
  serverUp : ℕ
  fanOn : ℕ
  engineOn : ℕ
  tooHighFlag : ℕ
  coolingFanOverride : ℕ
  sendAdc : ℕ
  engineTempLimit : BitVec 16
  fanOnTemp : BitVec 16
  fanOffTemp : BitVec 16
  send7200 : List UCHAR

namespace Stm32

/-- The values before the first frame of the server. -/
def init : Stm32 where
  serverUp := 0
  fanOn := 0
  engineOn := 0
  tooHighFlag := 0
  coolingFanOverride := 0
  sendAdc := 0
  engineTempLimit := 190
  fanOnTemp := 175
  fanOffTemp := 150
  send7200 := []

/-- `xQueueSend(Send7200Handle, .., 0)`: the queue holds ten, and does not wait. -/
def xQueueSend (cmd : UCHAR) (s : Stm32) : Stm32 :=
  if s.send7200.length < 10 then { s with send7200 := s.send7200 ++ [cmd] } else s

/-- `StartDefaultTask` reports a key. -/
def startDefaultTask (key : KeyType) (s : Stm32) : Stm32 :=
  let s := s.xQueueSend key.toByte
  match key with
  | .kpA => s.xQueueSend CmdType.navUp.toByte
  | .kpB => s.xQueueSend CmdType.navDown.toByte
  | .kpC => s.xQueueSend CmdType.navClick.toByte
  | .kpD => s.xQueueSend CmdType.navClose.toByte
  | .kpAst => s.xQueueSend CmdType.navSide.toByte
  | _ => s

/-- The alarm of `Callback01`. -/
def alarm (rawData : ℤ) (s : Stm32) : Stm32 :=
  if s.tooHighFlag = 0 ∧ rawData > s.engineTempLimit.toNat then
    { s.xQueueSend CmdType.tempTooHigh.toByte with tooHighFlag := 1 }
  else if s.tooHighFlag = 1 then { s with tooHighFlag := 0 }
  else s

/-- `Callback01` switches the fan on. -/
def switchFanOn (rawData : ℤ) (s : Stm32) : Stm32 :=
  if s.engineOn > 0 ∧ s.fanOn = 0 ∧ rawData ≥ s.fanOnTemp.toNat then
    { s with fanOn := 1 }.xQueueSend CmdType.onFan.toByte
  else s

/-- `Callback01` switches the fan off. -/
def switchFanOff (rawData : ℤ) (s : Stm32) : Stm32 :=
  if s.coolingFanOverride = 0 ∧ s.fanOn = 1 ∧ rawData ≤ s.fanOffTemp.toNat then
    { s with fanOn := 0 }.xQueueSend CmdType.offFan.toByte
  else s

/-- `raw_data =- 511` stores -511, for every reading below the freezing point. -/
def freezing (rawData : ℤ) : ℤ := if rawData ≤ 511 ∧ rawData ≥ 403 then -511 else rawData

/-- The timer callback, on a reading of the engine temperature. -/
def callback01 (rawData : ℤ) (s : Stm32) : Stm32 :=
  if s.serverUp = 1 then
    let s := s.xQueueSend CmdType.engineTemp.toByte
    let s := s.xQueueSend CmdType.indoorTemp.toByte
    let rawData := freezing rawData
    ((s.alarm rawData).switchFanOn rawData).switchFanOff rawData
  else s

/-- `StartRecvFPGA` at the end of a frame of the FPGA. -/
def startRecvFPGA (s : Stm32) : Stm32 :=
  if s.serverUp > 0 then
    let s := if s.engineOn ≠ 0 then s.xQueueSend CmdType.sendRtValues1.toByte else s
    let s := if s.sendAdc = 1 then
        (s.xQueueSend CmdType.sendRtValues2.toByte).xQueueSend CmdType.sendRtValues3.toByte
      else s
    s.xQueueSend CmdType.sendRtFpgaStatus.toByte
  else s

/-- `StartTask7200` takes the next frame and writes it to the line, if the server is up. -/
def startTask7200 (s : Stm32) : Stm32 × List UCHAR :=
  match s.send7200 with
  | [] => (s, [])
  | cmd :: rest => ({ s with send7200 := rest }, if s.serverUp = 1 then [cmd] else [])

/-- The commands besides the actuators' that `StartRecv7200` looks at. -/
def recvCommands : List CmdType :=
  [.serverUp, .serverDown, .sendConfig2, .getConfig2, .adcGate, .setAdcRate, .setFpgaRate,
    .setRpmMphRate, .highRevLimit, .lowRevLimit, .sendRevLimitOverride, .sendFpOverride]

/-- `StartRecv7200` on a frame of the TS-7200. What it sends on to the FPGA and to the
monitor is not kept. -/
def startRecv7200 (frame : SendSerial) (s : Stm32) : Stm32 :=
  if actuator frame.cmd ∨ frame.cmd ∈ recvCommands.map CmdType.toByte then
    match CmdType.ofByte frame.cmd with
    | some .onFan => { s with fanOn := 1 }
    | some .offFan => { s with fanOn := 0 }
    | some .startSeq => { s with engineOn := 1 }
    | some .shutdown | some .estopSignal => { s with engineOn := 0 }
    | some .serverUp =>
        { s with
          engineTempLimit := frame.buff 2 ++ frame.buff 1
          fanOnTemp := frame.buff 4 ++ frame.buff 3
          fanOffTemp := frame.buff 6 ++ frame.buff 5
          serverUp := 1 }
    | some .serverDown => { s with serverUp := 0 }
    | some .sendConfig2 =>
        { s with
          fanOnTemp := frame.buff 6 ++ frame.buff 5
          fanOffTemp := frame.buff 8 ++ frame.buff 7
          engineTempLimit := frame.buff 18 ++ frame.buff 17 }
    | some .getConfig2 => s.xQueueSend CmdType.getConfig2.toByte
    | some .adcGate => { s with sendAdc := if frame.buff 1 > 0#8 then 1 else 0 }
    | _ => s
  else s

/-- The commands that `StartRecv7200` looks at. -/
def Accepts (cmd : UCHAR) : Prop := actuator cmd ∨ cmd ∈ recvCommands.map CmdType.toByte

instance : DecidablePred Accepts := fun cmd =>
  inferInstanceAs (Decidable (actuator cmd ∨ cmd ∈ recvCommands.map CmdType.toByte))

/-! ## What a task leaves alone -/

@[simp] theorem engineOn_xQueueSend (cmd : UCHAR) (s : Stm32) :
    (s.xQueueSend cmd).engineOn = s.engineOn := by
  rw [xQueueSend]
  split_ifs <;> rfl

@[simp] theorem fanOnTemp_xQueueSend (cmd : UCHAR) (s : Stm32) :
    (s.xQueueSend cmd).fanOnTemp = s.fanOnTemp := by
  rw [xQueueSend]
  split_ifs <;> rfl

@[simp] theorem engineTempLimit_xQueueSend (cmd : UCHAR) (s : Stm32) :
    (s.xQueueSend cmd).engineTempLimit = s.engineTempLimit := by
  rw [xQueueSend]
  split_ifs <;> rfl

@[simp] theorem fanOffTemp_xQueueSend (cmd : UCHAR) (s : Stm32) :
    (s.xQueueSend cmd).fanOffTemp = s.fanOffTemp := by
  rw [xQueueSend]
  split_ifs <;> rfl

@[simp] theorem engineOn_alarm (rawData : ℤ) (s : Stm32) :
    (s.alarm rawData).engineOn = s.engineOn := by
  rw [alarm]
  split_ifs <;> simp

@[simp] theorem fanOnTemp_alarm (rawData : ℤ) (s : Stm32) :
    (s.alarm rawData).fanOnTemp = s.fanOnTemp := by
  rw [alarm]
  split_ifs <;> simp

@[simp] theorem engineOn_startDefaultTask (key : KeyType) (s : Stm32) :
    (s.startDefaultTask key).engineOn = s.engineOn := by
  cases key <;> simp [startDefaultTask]

@[simp] theorem engineOn_callback01 (rawData : ℤ) (s : Stm32) :
    (s.callback01 rawData).engineOn = s.engineOn := by
  have hon (r : ℤ) (s : Stm32) : (s.switchFanOn r).engineOn = s.engineOn := by
    rw [switchFanOn]
    split_ifs <;> simp
  have hoff (r : ℤ) (s : Stm32) : (s.switchFanOff r).engineOn = s.engineOn := by
    rw [switchFanOff]
    split_ifs <;> simp
  simp only [callback01]
  split_ifs
  · simp [hon, hoff]
  · rfl

@[simp] theorem engineOn_startRecvFPGA (s : Stm32) : s.startRecvFPGA.engineOn = s.engineOn := by
  simp only [startRecvFPGA]
  split_ifs <;> simp

@[simp] theorem engineOn_startTask7200 (s : Stm32) :
    s.startTask7200.1.engineOn = s.engineOn := by
  rw [startTask7200]
  split <;> rfl

end Stm32

end TruckControl
