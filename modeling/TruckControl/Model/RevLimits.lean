import Mathlib.Logic.Function.Basic
import TruckControl.Model.Config

/-! # The rev limits, from the client's selections to the registers of the FPGA -/

namespace TruckControl

/-! ## The server -/

namespace HostConfig

/-- `HIGH_REV_LIMIT`. -/
def highRevLimit (msgBuf : ℕ → UCHAR) (h : HostConfig) : HostConfig × SendSerial :=
  let utemp := word msgBuf 2
  let writeSerialBuffer := Function.update h.writeSerialBuffer 0 (utemp.setWidth 8)
  ({ h with
     ps := { h.ps with highRevLimit := utemp }
     actualHighRevLimit := hiRev.getD utemp.toNat 0
     writeSerialBuffer := writeSerialBuffer },
    ⟨CmdType.highRevLimit.toByte, writeSerialBuffer⟩)

/-- `LOW_REV_LIMIT`. -/
def lowRevLimit (msgBuf : ℕ → UCHAR) (h : HostConfig) : HostConfig × SendSerial :=
  let utemp := word msgBuf 2
  let writeSerialBuffer := Function.update h.writeSerialBuffer 0 (utemp.setWidth 8)
  ({ h with
     ps := { h.ps with lowRevLimit := utemp }
     actualLowRevLimit := loRev.getD utemp.toNat 0
     writeSerialBuffer := writeSerialBuffer },
    ⟨CmdType.lowRevLimit.toByte, writeSerialBuffer⟩)

end HostConfig

/-! ## The STM32 -/

/-- What `StartRecv7200` puts on the queue to the FPGA for a frame of the three messages;
`ucbuff` is what its buffer holds. -/
def revLimitValues (frame : SendSerial) (ucbuff : ℕ → UCHAR) : List (BitVec 64) :=
  if Stm32.Accepts frame.cmd then
    match CmdType.ofByte frame.cmd with
    | some .sendConfig2 => sendFpga frame ucbuff
    | some .highRevLimit => [pack64 (fpgaBuff .setHighRevLimit (frame.buff 1) ucbuff)]
    | some .lowRevLimit => [pack64 (fpgaBuff .setLowRevLimit (frame.buff 1) ucbuff)]
    | _ => []
  else []

/-- What else is put on that queue, for other frames and by other tasks. -/
inductive OtherFpgaCmd where
  | setFpgaSendUpdateRate | setRpmMphUpdateRate | dtmfToneOn | dtmfToneOff | specialToneOn
  | adcCtl | setAdcRate2 | revLimitOverride | fuelPumpOverride
  deriving DecidableEq, Repr

def OtherFpgaCmd.toByte : OtherFpgaCmd → UCHAR
  | .setFpgaSendUpdateRate => 0x01
  | .setRpmMphUpdateRate => 0x02
  | .dtmfToneOn => 0x03
  | .dtmfToneOff => 0x04
  | .specialToneOn => 0x05
  | .adcCtl => 0x0B
  | .setAdcRate2 => 0x0C
  | .revLimitOverride => 0x0F
  | .fuelPumpOverride => 0x10

/-- `ucbuff` with one of these commands in front. -/
def OtherFpgaCmd.buff (cmd : OtherFpgaCmd) (ucbuff : ℕ → UCHAR) : ℕ → UCHAR :=
  Function.update ucbuff 0 cmd.toByte

/-- A byte on the line to the FPGA, and the pin `CmdParam` beside it. -/
structure FpgaByte where
  cmdParam : Bool
  dataRx : UCHAR
  deriving DecidableEq, Repr

/-- `StartSendFPGA` on a value of the queue: the command, seven parameters and a mark. -/
def startSendFPGA (recVal : BitVec 64) : List FpgaByte :=
  [⟨true, recVal.setWidth 8⟩, ⟨false, (recVal >>> 8).setWidth 8⟩,
    ⟨false, (recVal >>> 8 >>> 8).setWidth 8⟩, ⟨false, (recVal >>> 8 >>> 8 >>> 8).setWidth 8⟩,
    ⟨false, (recVal >>> 8 >>> 8 >>> 8 >>> 8).setWidth 8⟩,
    ⟨false, (recVal >>> 8 >>> 8 >>> 8 >>> 8 >>> 8).setWidth 8⟩,
    ⟨false, (recVal >>> 8 >>> 8 >>> 8 >>> 8 >>> 8 >>> 8).setWidth 8⟩,
    ⟨false, (recVal >>> 8 >>> 8 >>> 8 >>> 8 >>> 8 >>> 8 >>> 8).setWidth 8⟩, ⟨false, 0xFF⟩]

/-! ## The FPGA -/

/-- The states of `recv_uart`; `rx_delay` is never entered. -/
inductive StateUart2 where
  | preIdle | idle2 | next1 | start1 | done
  deriving DecidableEq, Repr

/-- The states of `calc_proc1`. -/
inductive CalcType1 where
  | idle1a | doMcmd | otherCmd
  deriving DecidableEq, Repr

/-- The signals of `recv_uart`. -/
structure RecvUart where
  stateUartReg2 : StateUart2
  stateUartNext2 : StateUart2
  startRx : Bool
  mcmd : UCHAR
  startCalc : Bool
  incParams : BitVec 8
  stlvFlag : UCHAR
  download : ℕ → UCHAR

namespace RecvUart

def reset : RecvUart where
  stateUartReg2 := .preIdle
  stateUartNext2 := .preIdle
  startRx := false
  mcmd := 0
  startCalc := false
  incParams := 0
  stlvFlag := 0
  download := fun _ => 0

/-- The case statement. `rx` is the byte of which `done_rx` tells. -/
def uartCase (dataReady : Bool) (rx : Option FpgaByte) (s : RecvUart) : RecvUart :=
  match s.stateUartReg2 with
  | .preIdle => { s with stateUartNext2 := .idle2 }
  | .idle2 =>
      if dataReady then
        { s with startCalc := false, startRx := true, stlvFlag := 0, stateUartNext2 := .next1 }
      else { s with startCalc := false }
  | .next1 =>
      match rx with
      | some b =>
          if b.cmdParam then
            { s with startRx := false, mcmd := b.dataRx, incParams := 0, stateUartNext2 := .start1 }
          else
            { s with
              startRx := false
              download := Function.update s.download s.incParams.toNat b.dataRx
              incParams := s.incParams + 1
              stlvFlag := b.dataRx
              stateUartNext2 := .start1 }
      | none => s
  | .start1 =>
      { s with
        startCalc := if s.stlvFlag = 0xFF then true else s.startCalc
        stateUartNext2 := .done }
  | .done => { s with startCalc := false, stateUartNext2 := .idle2 }

/-- A rising edge of the clock. -/
def clk (dataReady : Bool) (rx : Option FpgaByte) (s : RecvUart) : RecvUart :=
  { s.uartCase dataReady rx with stateUartReg2 := s.stateUartNext2 }

end RecvUart

/-- `SET_HIGH_REV_LIMIT` and so on. -/
def setFpgaSendUpdateRate : UCHAR := 0x01
def setRpmMphUpdateRate : UCHAR := 0x02
def setAdcRate2 : UCHAR := 0x0C
def setHighRevLimit : UCHAR := 0x0D
def setLowRevLimit : UCHAR := 0x0E

/-- The limit that `calc_proc1` sets for a parameter of `SET_HIGH_REV_LIMIT`. -/
def hrevLimit (dlParam : BitVec 4) : BitVec 26 :=
  match dlParam with
  | 0 => 6000
  | 1 => 5800
  | 2 => 5600
  | 3 => 5400
  | 4 => 5200
  | 5 => 5000
  | 6 => 4800
  | 7 => 4600
  | 8 => 4400
  | 9 => 4200
  | 10 => 4000
  | _ => 4400

/-- The limit that `calc_proc1` sets for a parameter of `SET_LOW_REV_LIMIT`. -/
def lrevLimit (dlParam : BitVec 4) : BitVec 26 :=
  match dlParam with
  | 0 => 4500
  | 1 => 4400
  | 2 => 4300
  | 3 => 4200
  | 4 => 4100
  | 5 => 4000
  | 6 => 3900
  | 7 => 3800
  | _ => 3700

/-- The signals of `calc_proc1` that take part in setting the limits. -/
structure CalcProc1 where
  mainReg1 : CalcType1
  mainNext1 : CalcType1
  dlParam : BitVec 4
  highRevLimit : BitVec 26
  lowRevLimit : BitVec 26
  stlvStatus2 : UCHAR

namespace CalcProc1

def reset : CalcProc1 where
  mainReg1 := .idle1a
  mainNext1 := .idle1a
  dlParam := 0
  highRevLimit := 4200
  lowRevLimit := 3700
  stlvStatus2 := 0

/-- The cases on `mcmd`. A command is decided by `dl_param` as it was before the edge. -/
def mcmdCase (mcmd : UCHAR) (download : ℕ → UCHAR) (s : CalcProc1) : CalcProc1 :=
  let param := (download 0).extractLsb' 0 4
  if mcmd = setHighRevLimit then
    { s with
      dlParam := param
      stlvStatus2 := param ++ s.stlvStatus2.extractLsb' 0 4
      highRevLimit := hrevLimit s.dlParam
      mainNext1 := .doMcmd }
  else if mcmd = setLowRevLimit then
    { s with
      dlParam := param
      stlvStatus2 := s.stlvStatus2.extractLsb' 4 4 ++ param
      lowRevLimit := lrevLimit s.dlParam
      mainNext1 := .doMcmd }
  else if mcmd = setFpgaSendUpdateRate ∨ mcmd = setRpmMphUpdateRate ∨ mcmd = setAdcRate2 then
    { s with dlParam := param, mainNext1 := .doMcmd }
  else if 0x03 ≤ mcmd ∧ mcmd ≤ 0x10 ∧ mcmd ≠ 0x0A then { s with mainNext1 := .doMcmd }
  else { s with mainNext1 := .otherCmd }

/-- A rising edge of the clock, with the signals of `recv_uart` before it. -/
def clk (uart : RecvUart) (s : CalcProc1) : CalcProc1 :=
  let t := match s.mainReg1 with
    | .idle1a => if uart.startCalc then s.mcmdCase uart.mcmd uart.download else s
    | .doMcmd | .otherCmd => { s with mainNext1 := .idle1a }
  { t with mainReg1 := s.mainNext1 }

end CalcProc1

/-! ## From the messages to the registers -/

/-- The parameters, what is under way on the three lines, and the FPGA. `toSend` is what
`StartRecv7200` has still to put on the queue for the frame it processes; `lost` tells that
something did not get through. -/
structure RevLimits where
  host : HostConfig
  toStm32 : List SendSerial
  toSend : List (BitVec 64)
  sendFpga : List (BitVec 64)
  line : List FpgaByte
  recvUart : RecvUart
  calcProc1 : CalcProc1
  lost : Bool

inductive RevEvent where
  | highRevLimit (msgBuf : ℕ → UCHAR)
  | lowRevLimit (msgBuf : ℕ → UCHAR)
  | updateConfig (msgBuf : ℕ → UCHAR)
  /-- `StartRecv7200` takes the next frame. -/
  | startRecv7200 (ucbuff : ℕ → UCHAR)
  /-- It goes on to the next of its calls of `xQueueSend`. -/
  | xQueueSend
  /-- Something else is put on the queue. -/
  | otherCmd (cmd : OtherFpgaCmd) (ucbuff : ℕ → UCHAR)
  /-- `StartSendFPGA` takes the next value of the queue. -/
  | startSendFPGA
  /-- A clock edge of the FPGA; `doneRx` when it is the one at which a byte is complete. -/
  | clk (dataReady doneRx : Bool)

namespace RevLimits

/-- `xQueueSend(SendFPGAHandle, .., 0)`: the queue holds ten, and does not wait. -/
def queue (v : BitVec 64) (s : RevLimits) : RevLimits :=
  if s.sendFpga.length < 10 then { s with sendFpga := s.sendFpga ++ [v] }
  else { s with lost := true }

/-- `recv_uart` waits for a byte. -/
def Listening (uart : RecvUart) : Prop :=
  uart.stateUartReg2 = .next1 ∧ uart.stateUartNext2 = .next1

instance (uart : RecvUart) : Decidable (Listening uart) :=
  inferInstanceAs (Decidable (_ ∧ _))

/-- A clock edge of both processes. -/
def clk (dataReady : Bool) (rx : Option FpgaByte) (s : RevLimits) : RevLimits :=
  { s with recvUart := s.recvUart.clk dataReady rx, calcProc1 := s.calcProc1.clk s.recvUart }

def step (s : RevLimits) : RevEvent → RevLimits
  | .highRevLimit msgBuf =>
      let done := s.host.highRevLimit msgBuf
      { s with host := done.1, toStm32 := s.toStm32 ++ [done.2] }
  | .lowRevLimit msgBuf =>
      let done := s.host.lowRevLimit msgBuf
      { s with host := done.1, toStm32 := s.toStm32 ++ [done.2] }
  | .updateConfig msgBuf =>
      let done := s.host.updateConfig msgBuf
      { s with host := done.1, toStm32 := s.toStm32 ++ [done.2] }
  | .startRecv7200 ucbuff =>
      match s.toSend, s.toStm32 with
      | [], frame :: rest => { s with toSend := revLimitValues frame ucbuff, toStm32 := rest }
      | _, _ => s
  | .xQueueSend =>
      match s.toSend with
      | [] => s
      | v :: rest => { s with toSend := rest }.queue v
  | .otherCmd cmd ucbuff => s.queue (pack64 (cmd.buff ucbuff))
  | .startSendFPGA =>
      match s.line, s.sendFpga with
      | [], v :: rest => { s with line := TruckControl.startSendFPGA v, sendFpga := rest }
      | _, _ => s
  | .clk dataReady doneRx =>
      match doneRx, s.line with
      | true, b :: rest =>
          let lost := s.lost || !decide (Listening s.recvUart)
          { s with line := rest, lost := lost }.clk dataReady (some b)
      | _, _ => s.clk dataReady none

/-- The FPGA after its reset, and no message under way. -/
def start (host : HostConfig) : RevLimits where
  host := host
  toStm32 := []
  toSend := []
  sendFpga := []
  line := []
  recvUart := .reset
  calcProc1 := .reset
  lost := false

end RevLimits

end TruckControl
