import TruckControl.Library.Word
import TruckControl.Model.FpgaCommands

/-! # The frames from the FPGA to the dash display -/

namespace TruckControl

/-! ## `send_mph_rpm_unit` -/

/-- Its states. -/
inductive StateLed where
  | ledIdle | ledStart | ledDelay | ledStartXmit | ledDone
  deriving DecidableEq, Repr

/-- What it reads of the other processes at a clock edge. -/
structure LedIn where
  rpmResult : BitVec 16
  mphResult : BitVec 16
  rpmMphDelay : BitVec 26

/-- Its signals. -/
structure LedUnit where
  stateLedReg : StateLed
  stateLedNext : StateLed
  timeDelayReg1 : BitVec 25
  timeDelayNext1 : BitVec 25
  sPort2 : BitVec 8
  skip2 : Bool
  startTx : Bool
  dataTx : UCHAR
  ledCmd : UCHAR
  ledDlArray : ℕ → UCHAR

namespace LedUnit

/-- The reset leaves `skip2` as it is. -/
def reset (skip2 : Bool) : LedUnit where
  stateLedReg := .ledIdle
  stateLedNext := .ledIdle
  timeDelayReg1 := 0
  timeDelayNext1 := 0
  sPort2 := 0
  skip2 := skip2
  startTx := false
  dataTx := 0
  ledCmd := 0xFD
  ledDlArray := fun i => if i = 0 then 0xFF else 0

/-- The assignments to `led_dl_array`. -/
def sample (i : LedIn) (ledCmd : UCHAR) (ledDlArray : ℕ → UCHAR) : ℕ → UCHAR
  | 1 => Word.low i.rpmResult
  | 2 => Word.high i.rpmResult
  | 3 => Word.low i.mphResult
  | 4 => Word.high i.mphResult
  | 5 => ledCmd
  | j => ledDlArray j

/-- The case statement. `skip2` makes one of the two edges in `led_idle` count. -/
def ledCase (i : LedIn) (s : LedUnit) : LedUnit :=
  match s.stateLedReg with
  | .ledIdle =>
      { s with
        startTx := false
        skip2 := !s.skip2
        sPort2 := if s.skip2 then if s.sPort2 > 4 then 0 else s.sPort2 + 1 else s.sPort2
        stateLedNext := .ledStart }
  | .ledStart =>
      { s with ledDlArray := sample i s.ledCmd s.ledDlArray, stateLedNext := .ledDelay }
  | .ledDelay =>
      if s.timeDelayReg1.toNat > i.rpmMphDelay.toNat then
        { s with timeDelayNext1 := 0, stateLedNext := .ledStartXmit }
      else { s with timeDelayNext1 := s.timeDelayReg1 + 1 }
  | .ledStartXmit =>
      { s with dataTx := s.ledDlArray s.sPort2.toNat, startTx := true, stateLedNext := .ledDone }
  | .ledDone => { s with startTx := false, stateLedNext := .ledIdle }

/-- A rising edge of the clock. -/
def clk (i : LedIn) (s : LedUnit) : LedUnit :=
  { s.ledCase i with stateLedReg := s.stateLedNext, timeDelayReg1 := s.timeDelayNext1 }

end LedUnit

/-! ## `uart_tx` -/

/-- Its states. -/
inductive TxState where
  | idle | start | data | stop
  deriving DecidableEq, Repr

/-- Its registers. -/
structure UartTx where
  startRegRx : TxState
  sReg : BitVec 4
  nReg : BitVec 3
  bReg : UCHAR
  txReg : Bool
  deriving DecidableEq, Repr

namespace UartTx

def reset : UartTx where
  startRegRx := .idle
  sReg := 0
  nReg := 0
  bReg := 0
  txReg := true

/-- A rising edge of the clock. -/
def clk (txStart sTick : Bool) (din : UCHAR) (s : UartTx) : UartTx :=
  match s.startRegRx with
  | .idle =>
      if txStart then { s with txReg := true, startRegRx := .start, sReg := 0, bReg := din }
      else { s with txReg := true }
  | .start =>
      if sTick then
        if s.sReg = 15 then { s with txReg := false, startRegRx := .data, sReg := 0, nReg := 0 }
        else { s with txReg := false, sReg := s.sReg + 1 }
      else { s with txReg := false }
  | .data =>
      if sTick then
        if s.sReg = 15 then
          if s.nReg = 7 then
            { s with
              txReg := s.bReg.getLsbD 0, sReg := 0, bReg := s.bReg >>> 1, startRegRx := .stop }
          else
            { s with
              txReg := s.bReg.getLsbD 0, sReg := 0, bReg := s.bReg >>> 1, nReg := s.nReg + 1 }
        else { s with txReg := s.bReg.getLsbD 0, sReg := s.sReg + 1 }
      else { s with txReg := s.bReg.getLsbD 0 }
  | .stop =>
      if sTick then
        if s.sReg = 15 then { s with txReg := true, startRegRx := .idle }
        else { s with txReg := true, sReg := s.sReg + 1 }
      else { s with txReg := true }

end UartTx

/-! ## Both, and the processes that set the rate -/

/-- The inputs at a clock edge. -/
structure DisplayEdge extends FpgaEdge where
  rpmResult : BitVec 16
  mphResult : BitVec 16

/-- `rReg` is the counter of the transmitter's ticks. -/
structure DisplaySender where
  link : CommandLink
  led : LedUnit
  rReg : ℕ
  uartTx : UartTx

namespace DisplaySender

/-- The state after a reset. -/
def reset (s : CalcSignals) (skip2 : Bool) : DisplaySender :=
  ⟨.reset s, .reset skip2, 0, .reset⟩

/-- What `send_mph_rpm_unit` reads. -/
def ledIn (s : DisplaySender) (e : DisplayEdge) : LedIn :=
  ⟨e.rpmResult, e.mphResult, s.link.calcProc1.rpmMphDelay⟩

/-- A rising edge of the clock. -/
def clk (s : DisplaySender) (e : DisplayEdge) : DisplaySender where
  link := s.link.clk e.toFpgaEdge
  led := s.led.clk (s.ledIn e)
  rReg := modM s.rReg
  uartTx := s.uartTx.clk s.led.startTx (maxTick s.rReg) s.led.dataTx

/-- The states of a run from a reset. -/
def run (s₀ : CalcSignals) (skip2 : Bool) (es : ℕ → DisplayEdge) : ℕ → DisplaySender
  | 0 => reset s₀ skip2
  | n + 1 => (run s₀ skip2 es n).clk (es n)

end DisplaySender

end TruckControl
