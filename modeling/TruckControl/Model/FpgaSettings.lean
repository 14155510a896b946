import TruckControl.Model.FpgaCommands

/-! # The settings of the FPGA, from the client's messages to its status bytes -/

namespace TruckControl

/-! ## The server -/

/-- The parameters and `enable_adc_send_data`. -/
structure HostSettings where
  config : HostConfig
  enableAdcSendData : UINT

namespace HostSettings

/-- A parameter of a message is put in front of `write_serial_buffer`, which is sent. -/
def passOn (cmd : CmdType) (msgBuf : ℕ → UCHAR) (h : HostSettings) : HostSettings × SendSerial :=
  let utemp := word msgBuf 2
  let writeSerialBuffer := Function.update h.config.writeSerialBuffer 0 (utemp.setWidth 8)
  ({ h with config := { h.config with writeSerialBuffer := writeSerialBuffer } },
    ⟨cmd.toByte, writeSerialBuffer⟩)

def setAdcRate := passOn .setAdcRate
def setRpmMphRate := passOn .setRpmMphRate
def setFpgaRate := passOn .setFpgaRate
def sendRevLimitOverride := passOn .sendRevLimitOverride
def sendFpOverride := passOn .sendFpOverride

/-- `ADC_GATE` to the STM32, with the byte that opens or closes the gate. -/
def sendGate (enable : UINT) (gate : UCHAR) (h : HostSettings) : HostSettings × SendSerial :=
  let writeSerialBuffer := Function.update h.config.writeSerialBuffer 0 gate
  ({ config := { h.config with writeSerialBuffer := writeSerialBuffer }
     enableAdcSendData := enable },
    ⟨CmdType.adcGate.toByte, writeSerialBuffer⟩)

/-- `LCD_serial_queue` starts, ten seconds after the other tasks. -/
def lcdSerialQueue (h : HostSettings) : HostSettings := { h with enableAdcSendData := 0 }

/-- `ENABLE_ADC_SEND_DATA`. -/
def enableAdc (msgBuf : ℕ → UCHAR) (h : HostSettings) : HostSettings × SendSerial :=
  let utemp := word msgBuf 2
  h.sendGate utemp (if utemp = 0 then 0 else 0xFF)

/-- `ADC_GATE`. -/
def adcGate (h : HostSettings) : HostSettings × SendSerial :=
  if h.enableAdcSendData = 0 then h.sendGate 1 0xFF else h.sendGate 0 0

/-- A handler of the parameters alone. -/
def ofConfig (done : HostConfig × SendSerial) (h : HostSettings) : HostSettings × SendSerial :=
  ({ h with config := done.1 }, done.2)

end HostSettings

/-- The messages of the client that set something in the FPGA. -/
inductive SettingMsg where
  | highRevLimit | lowRevLimit | updateConfig | enableAdcSendData | adcGate | setAdcRate
  | setRpmMphRate | setFpgaRate | sendRevLimitOverride | sendFpOverride
  deriving DecidableEq, Repr

/-- `get_host_cmd_task` on one of them, and the frame it sends. -/
def HostSettings.handle (msgBuf : ℕ → UCHAR) (h : HostSettings) :
    SettingMsg → HostSettings × SendSerial
  | .highRevLimit => h.ofConfig (h.config.highRevLimit msgBuf)
  | .lowRevLimit => h.ofConfig (h.config.lowRevLimit msgBuf)
  | .updateConfig => h.ofConfig (h.config.updateConfig msgBuf)
  | .enableAdcSendData => h.enableAdc msgBuf
  | .adcGate => h.adcGate
  | .setAdcRate => h.setAdcRate msgBuf
  | .setRpmMphRate => h.setRpmMphRate msgBuf
  | .setFpgaRate => h.setFpgaRate msgBuf
  | .sendRevLimitOverride => h.sendRevLimitOverride msgBuf
  | .sendFpOverride => h.sendFpOverride msgBuf

/-- The other commands that the server sends to the STM32. -/
def OtherFrame (cmd : CmdType) : Prop :=
  actuator cmd.toByte ∨ cmd ∈ [.setTempLimit, .getConfig2, .serverUp, .serverDown,
    .shutdownIobox, .rebootIobox, .uploadNew, .uploadOther, .uploadNewParam, .shellAndRename,
    .testLeftBlinker, .testRightBlinker]

instance : DecidablePred OtherFrame := fun cmd =>
  inferInstanceAs (Decidable (actuator cmd.toByte ∨ cmd ∈ _))

/-! ## The STM32 -/

/-- `ucbuff[0] = cmd; ucbuff[1] = param;` The other bytes stay. -/
def mcmdBuff (cmd : Mcmd) (param : UCHAR) (ucbuff : ℕ → UCHAR) : ℕ → UCHAR
  | 0 => cmd.toByte
  | 1 => param
  | i => ucbuff i

/-- What `StartRecv7200` puts on the queue to the FPGA for a frame. -/
def fpgaValues (frame : SendSerial) (ucbuff : ℕ → UCHAR) : List (BitVec 64) :=
  if Stm32.Accepts frame.cmd then
    let sendOn (cmd : Mcmd) := [pack64 (mcmdBuff cmd (frame.buff 1) ucbuff)]
    match CmdType.ofByte frame.cmd with
    | some .sendConfig2 => TruckControl.sendFpga frame ucbuff
    | some .adcGate => sendOn .adcCtl
    | some .setAdcRate => sendOn .setAdcRate2
    | some .setFpgaRate => sendOn .setFpgaSendUpdateRate
    | some .setRpmMphRate => sendOn .setRpmMphUpdateRate
    | some .highRevLimit => sendOn .setHighRevLimit
    | some .lowRevLimit => sendOn .setLowRevLimit
    | some .sendRevLimitOverride => sendOn .revLimitOverride
    | some .sendFpOverride => sendOn .fuelPumpOverride
    | _ => []
  else []

/-- The commands that the other tasks of the STM32 put on that queue. -/
inductive ToneCmd where
  | dtmfToneOn | dtmfToneOff | specialToneOn
  deriving DecidableEq, Repr

def ToneCmd.toMcmd : ToneCmd → Mcmd
  | .dtmfToneOn => .dtmfToneOn
  | .dtmfToneOff => .dtmfToneOff
  | .specialToneOn => .specialToneOn

/-- The other tasks, on what they share with `StartRecv7200`. -/
inductive Stm32Task where
  | startDefaultTask (key : KeyType)
  | callback01 (rawData : ℤ)
  | startRecvFPGA
  | startTask7200
  deriving DecidableEq, Repr

def Stm32Task.run (s : Stm32) : Stm32Task → Stm32
  | .startDefaultTask key => s.startDefaultTask key
  | .callback01 rawData => s.callback01 rawData
  | .startRecvFPGA => s.startRecvFPGA
  | .startTask7200 => s.startTask7200.1

/-! ## From the messages to the signals -/

/-- The server, the STM32, the FPGA, and what is under way between them. `toSend` is what
`StartRecv7200` has still to put on the queue for the frame it processes; `lost` tells that
something did not get through. -/
structure FpgaSettings where
  host : HostSettings
  toStm32 : List SendSerial
  stm32 : Stm32
  toSend : List (BitVec 64)
  sendFpga : List (BitVec 64)
  line : List FpgaByte
  recvUart : RecvUart
  calcProc1 : CalcSignals
  lost : Bool

inductive SettingEvent where
  | message (msg : SettingMsg) (msgBuf : ℕ → UCHAR)
  /-- `LCD_serial_queue` starts. -/
  | lcdSerialQueue
  /-- The server sends something else. -/
  | otherFrame (cmd : { cmd : CmdType // OtherFrame cmd }) (buf : ℕ → UCHAR)
  /-- `StartRecv7200` takes the next frame. -/
  | startRecv7200 (ucbuff : ℕ → UCHAR)
  /-- It goes on to the next of its calls of `xQueueSend`. -/
  | xQueueSend
  | stm32Task (task : Stm32Task)
  /-- Another task puts a tone on the queue to the FPGA. -/
  | tone (cmd : ToneCmd) (param : UCHAR) (ucbuff : ℕ → UCHAR)
  /-- `StartSendFPGA` takes the next value of the queue. -/
  | startSendFPGA
  /-- A clock edge of the FPGA; `doneRx` when it is the one at which a byte is complete. -/
  | clk (dataReady doneRx stlvEngineRunning : Bool)

namespace FpgaSettings

/-- `xQueueSend(SendFPGAHandle, .., 0)`: the queue holds ten, and does not wait. -/
def queue (v : BitVec 64) (s : FpgaSettings) : FpgaSettings :=
  if s.sendFpga.length < 10 then { s with sendFpga := s.sendFpga ++ [v] }
  else { s with lost := true }

/-- A clock edge of both processes. -/
def clk (dataReady stlvEngineRunning : Bool) (rx : Option FpgaByte) (s : FpgaSettings) :
    FpgaSettings :=
  { s with
    recvUart := s.recvUart.clk dataReady rx
    calcProc1 := s.calcProc1.clk stlvEngineRunning s.recvUart }

def step (s : FpgaSettings) : SettingEvent → FpgaSettings
  | .message msg msgBuf =>
      let done := s.host.handle msgBuf msg
      { s with host := done.1, toStm32 := s.toStm32 ++ [done.2] }
  | .lcdSerialQueue => { s with host := s.host.lcdSerialQueue }
  | .otherFrame cmd buf => { s with toStm32 := s.toStm32 ++ [⟨cmd.val.toByte, buf⟩] }
  | .startRecv7200 ucbuff =>
      match s.toSend, s.toStm32 with
      | [], frame :: rest =>
          { s with
            stm32 := s.stm32.startRecv7200 frame
            toSend := fpgaValues frame ucbuff
            toStm32 := rest }
      | _, _ => s
  | .xQueueSend =>
      match s.toSend with
      | [] => s
      | v :: rest => { s with toSend := rest }.queue v
  | .stm32Task task => { s with stm32 := task.run s.stm32 }
  | .tone cmd param ucbuff => s.queue (pack64 (mcmdBuff cmd.toMcmd param ucbuff))
  | .startSendFPGA =>
      match s.line, s.sendFpga with
      | [], v :: rest => { s with line := TruckControl.startSendFPGA v, sendFpga := rest }
      | _, _ => s
  | .clk dataReady doneRx stlvEngineRunning =>
      match doneRx, s.line with
      | true, b :: rest =>
          let lost := s.lost || !decide (RevLimits.Listening s.recvUart)
          { s with line := rest, lost := lost }.clk dataReady stlvEngineRunning (some b)
      | _, _ => s.clk dataReady stlvEngineRunning none

/-- The FPGA after its reset, the server and the STM32 in any state, and nothing under way. -/
def start (host : HostSettings) (stm32 : Stm32) (signals : CalcSignals) : FpgaSettings where
  host := host
  toStm32 := []
  stm32 := stm32
  toSend := []
  sendFpga := []
  line := []
  recvUart := .reset
  calcProc1 := signals.reset
  lost := false

end FpgaSettings

end TruckControl
