import TruckControl.Library.Byte
import TruckControl.Model.ParallelPort
import TruckControl.Model.RevLimits

/-! # The registers of the FPGA that commands set -/

namespace TruckControl

/-! ## The delays of `Common.vhd`, and the tables of them -/

def timeDelay3 : ℕ := 33554430
def timeDelay5 : ℕ := 16000000
def timeDelay5a : ℕ := 8000000
def timeDelay6 : ℕ := 4191300
def timeDelay6a : ℕ := 3000000
def timeDelay6b : ℕ := 2000000
def timeDelay8 : ℕ := 500000
def timeDelay8a : ℕ := 300000
def timeDelay8b : ℕ := 150000
def timeDelay9 : ℕ := 40000

/-- The delay that `calc_proc1` sets for a parameter of `SET_FPGA_SEND_UPDATE_RATE`. -/
def fpgaSendDelay (dlParam : BitVec 4) : BitVec 26 :=
  match dlParam with
  | 0 => .ofNat 26 (timeDelay3 / 8)
  | 1 => .ofNat 26 (timeDelay5 / 8)
  | 2 => .ofNat 26 (timeDelay5a / 8)
  | 3 => .ofNat 26 (timeDelay6 / 8)
  | 4 => .ofNat 26 (timeDelay6a / 8)
  | 5 => .ofNat 26 (timeDelay6b / 8)
  | 6 => .ofNat 26 (timeDelay7 / 8)
  | 7 => .ofNat 26 (timeDelay8 / 8)
  | 8 => .ofNat 26 (timeDelay8a / 8)
  | 9 => .ofNat 26 (timeDelay8b / 8)
  | 10 => .ofNat 26 (timeDelay8c / 8)
  | _ => .ofNat 26 (timeDelay5 / 8)

/-- The same for `SET_RPM_MPH_UPDATE_RATE`, but for the last case. -/
def fpgaRpmMphDelay (dlParam : BitVec 4) : BitVec 26 :=
  match dlParam with
  | 0 => .ofNat 26 (timeDelay3 / 8)
  | 1 => .ofNat 26 (timeDelay5 / 8)
  | 2 => .ofNat 26 (timeDelay5a / 8)
  | 3 => .ofNat 26 (timeDelay6 / 8)
  | 4 => .ofNat 26 (timeDelay6a / 8)
  | 5 => .ofNat 26 (timeDelay6b / 8)
  | 6 => .ofNat 26 (timeDelay7 / 8)
  | 7 => .ofNat 26 (timeDelay8 / 8)
  | 8 => .ofNat 26 (timeDelay8a / 8)
  | 9 => .ofNat 26 (timeDelay8b / 8)
  | 10 => .ofNat 26 (timeDelay8c / 8)
  | _ => .ofNat 26 timeDelay5

/-- The delay that `calc_proc1` sets for a parameter of `SET_ADC_RATE2`. -/
def fpgaAdcDelay (dlParam : BitVec 4) : BitVec 26 :=
  match dlParam with
  | 0 => .ofNat 26 timeDelay5
  | 1 => .ofNat 26 timeDelay5a
  | 2 => .ofNat 26 timeDelay6
  | 3 => .ofNat 26 timeDelay6a
  | 4 => .ofNat 26 timeDelay6b
  | 5 => .ofNat 26 timeDelay7
  | 6 => .ofNat 26 timeDelay8
  | 7 => .ofNat 26 timeDelay8a
  | 8 => .ofNat 26 timeDelay8b
  | 9 => .ofNat 26 timeDelay8c
  | 10 => .ofNat 26 timeDelay9
  | _ => .ofNat 26 timeDelay5

/-! ## `calc_proc1` with all that it drives -/

/-- The commands with a case of their own. -/
inductive Mcmd where
  | setFpgaSendUpdateRate | setRpmMphUpdateRate | dtmfToneOn | dtmfToneOff | specialToneOn
  | lcdPwm | tuneOn | tuneOff | loadTune | adcCtl | setAdcRate2 | setHighRevLimit
  | setLowRevLimit | revLimitOverride | fuelPumpOverride
  deriving DecidableEq, Repr

namespace Mcmd

def toByte : Mcmd → UCHAR
  | .setFpgaSendUpdateRate => 0x01
  | .setRpmMphUpdateRate => 0x02
  | .dtmfToneOn => 0x03
  | .dtmfToneOff => 0x04
  | .specialToneOn => 0x05
  | .lcdPwm => 0x06
  | .tuneOn => 0x07
  | .tuneOff => 0x08
  | .loadTune => 0x09
  | .adcCtl => 0x0B
  | .setAdcRate2 => 0x0C
  | .setHighRevLimit => 0x0D
  | .setLowRevLimit => 0x0E
  | .revLimitOverride => 0x0F
  | .fuelPumpOverride => 0x10

def all : List Mcmd :=
  [.setFpgaSendUpdateRate, .setRpmMphUpdateRate, .dtmfToneOn, .dtmfToneOff, .specialToneOn,
    .lcdPwm, .tuneOn, .tuneOff, .loadTune, .adcCtl, .setAdcRate2, .setHighRevLimit,
    .setLowRevLimit, .revLimitOverride, .fuelPumpOverride]

/-- The case a byte is in, if not in `others`. -/
def ofByte (b : UCHAR) : Option Mcmd := all.find? fun cmd => cmd.toByte = b

@[simp] theorem ofByte_toByte (cmd : Mcmd) : ofByte cmd.toByte = some cmd := by
  cases cmd <;> rfl

theorem toByte_of_ofByte {b : UCHAR} {cmd : Mcmd} (h : ofByte b = some cmd) : b = cmd.toByte := by
  have hfound := List.find?_some h
  exact (of_decide_eq_true hfound).symm

end Mcmd

/-- The signals of `calc_proc1`, but for the tune, which `LOAD_TUNE` loads again. -/
structure CalcSignals extends CalcProc1 where
  sendDelay : BitVec 26
  rpmMphDelay : BitVec 26
  adcDelay : BitVec 26
  adcGate : Bool
  stlvRevLimitOverride : Bool
  stlvFuelPumpOverride : Bool
  stlvStatus1 : UCHAR
  stlvStatus3 : UCHAR
  dtmfIndex : BitVec 5
  special : Bool
  startDtmf : Bool
  stlvDutyCycle : BitVec 5
  startPwm2 : Bool
  keyLen : UCHAR
  noteLen : UCHAR
  stlvDutyCycle2 : BitVec 6

namespace CalcSignals

/-- The reset leaves `rpm_mph_delay`, `start_dtmf` and `note_len` as they are. -/
def reset (s : CalcSignals) : CalcSignals :=
  { s with
    toCalcProc1 := .reset
    sendDelay := 0x07FFFF
    adcDelay := 0x07FFFF
    adcGate := false
    stlvRevLimitOverride := true
    stlvFuelPumpOverride := true
    stlvStatus1 := 0
    stlvStatus3 := 0
    dtmfIndex := 0
    special := false
    stlvDutyCycle := 0b11111
    startPwm2 := false
    keyLen := 0x14
    stlvDutyCycle2 := 0b111111 }

/-- The cases on `mcmd`, for the signals that `CalcProc1` leaves out. -/
def mcmdCase (mcmd : UCHAR) (download : ℕ → UCHAR) (s : CalcSignals) : CalcSignals :=
  let param := (download 0).extractLsb' 0 4
  let bit := (download 0).getLsbD 0
  match Mcmd.ofByte mcmd with
  | some .setFpgaSendUpdateRate =>
      { s with
        stlvStatus1 := param ++ s.stlvStatus1.extractLsb' 0 4
        sendDelay := fpgaSendDelay s.dlParam }
  | some .setRpmMphUpdateRate =>
      { s with
        stlvStatus1 := s.stlvStatus1.extractLsb' 4 4 ++ param
        rpmMphDelay := fpgaRpmMphDelay s.dlParam }
  | some .dtmfToneOn =>
      { s with dtmfIndex := (download 0).extractLsb' 0 5, special := false, startDtmf := true }
  | some .dtmfToneOff => { s with startDtmf := false, special := false }
  | some .specialToneOn => { s with special := true, startDtmf := true }
  | some .lcdPwm => { s with stlvDutyCycle := (download 0).extractLsb' 0 5 }
  | some .tuneOn =>
      { s with
        keyLen := download 0
        noteLen := download 1
        stlvDutyCycle2 := (download 2).extractLsb' 0 6
        startPwm2 := true }
  | some .tuneOff => { s with startPwm2 := false }
  | some .adcCtl => { s with adcGate := bit, stlvStatus3 := Byte.assign s.stlvStatus3 2 bit }
  | some .setAdcRate2 =>
      { s with
        stlvStatus3 := param ++ s.stlvStatus3.extractLsb' 0 4
        adcDelay := fpgaAdcDelay s.dlParam }
  | some .revLimitOverride =>
      { s with stlvRevLimitOverride := bit, stlvStatus3 := Byte.assign s.stlvStatus3 0 bit }
  | some .fuelPumpOverride =>
      { s with stlvFuelPumpOverride := bit, stlvStatus3 := Byte.assign s.stlvStatus3 1 bit }
  | some .loadTune | some .setHighRevLimit | some .setLowRevLimit | none => s

/-- A rising edge of the clock, with the signals of the other processes before it. -/
def clk (stlvEngineRunning : Bool) (uart : RecvUart) (s : CalcSignals) : CalcSignals :=
  let t := match s.mainReg1 with
    | .idle1a =>
        let s := { s with stlvStatus3 := Byte.assign s.stlvStatus3 3 stlvEngineRunning }
        if uart.startCalc then s.mcmdCase uart.mcmd uart.download else s
    | .doMcmd | .otherCmd => s
  { t with toCalcProc1 := s.toCalcProc1.clk uart }

@[simp] theorem toCalcProc1_clk (stlvEngineRunning : Bool) (uart : RecvUart) (s : CalcSignals) :
    (s.clk stlvEngineRunning uart).toCalcProc1 = s.toCalcProc1.clk uart := rfl

end CalcSignals

/-! ## The line on which the commands come -/

/-- The generic of the two UARTs. -/
def dvsrMu19200 : ℕ := 163

/-- `mod_m_counter`. -/
def modM (rReg : ℕ) : ℕ := if rReg = dvsrMu19200 - 1 then 0 else rReg + 1

/-- Its `max_tick`. -/
def maxTick (rReg : ℕ) : Bool := rReg = dvsrMu19200 - 1

/-- The inputs at a clock edge. `rx` is the byte of which `uart_rx` awaits the last tick. -/
structure FpgaEdge where
  dataReady : Bool
  rx : Option FpgaByte
  stlvEngineRunning : Bool

/-- `uartLED2`, `recv_uart` and `calc_proc1`. -/
structure CommandLink where
  rReg : ℕ
  tick2 : Bool
  recvUart : RecvUart
  calcProc1 : CalcSignals

namespace CommandLink

/-- The state after a reset, when `calc_proc1` holds `s`. -/
def reset (s : CalcSignals) : CommandLink := ⟨0, false, .reset, s.reset⟩

/-- The byte of which `done_rx` tells. -/
def doneRx (e : FpgaEdge) (s : CommandLink) : Option FpgaByte :=
  if s.tick2 then e.rx else none

/-- A rising edge of the clock. Ticks get to `uart_rx` while `start_rx` is set. -/
def clk (s : CommandLink) (e : FpgaEdge) : CommandLink where
  rReg := modM s.rReg
  tick2 := s.recvUart.startRx && maxTick s.rReg
  recvUart := s.recvUart.clk e.dataReady (s.doneRx e)
  calcProc1 := s.calcProc1.clk e.stlvEngineRunning s.recvUart

/-- The bytes that come in a run. -/
def received (s : CommandLink) : List FpgaEdge → List FpgaByte
  | [] => []
  | e :: es => (s.doneRx e).toList ++ (s.clk e).received es

end CommandLink

end TruckControl
