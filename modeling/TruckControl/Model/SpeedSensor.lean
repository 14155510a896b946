import Mathlib.Data.Nat.Notation

/-! # The sensors for the revolutions and the speed -/

namespace TruckControl

/-! ## `period_counter` -/

inductive PeriodState where
  | idle | waite | count | done
  deriving DecidableEq, Repr

/-- The registers of `period_counter`. -/
structure PeriodCounter where
  pstateReg : PeriodState
  tReg : BitVec 16
  pReg : BitVec 17
  delayReg : Bool
  deriving DecidableEq, Repr

namespace PeriodCounter

def reset : PeriodCounter where
  pstateReg := .idle
  tReg := 0
  pReg := 0
  delayReg := false

/-- A rising edge of `si`. -/
def edge (si : Bool) (s : PeriodCounter) : Bool := !s.delayReg && si

/-- The next state. -/
def next (clkCount : ℕ) (start si : Bool) (s : PeriodCounter) : PeriodCounter :=
  match s.pstateReg with
  | .idle => if start then { s with pstateReg := .waite } else s
  | .waite => if s.edge si then { s with pstateReg := .count, tReg := 0, pReg := 0 } else s
  | .count =>
      if s.edge si then { s with pstateReg := .done }
      else if s.tReg.toNat = clkCount - 1 then { s with tReg := 0, pReg := s.pReg + 1 }
      else { s with tReg := s.tReg + 1 }
  | .done => { s with pstateReg := .idle }

/-- A rising edge of the clock; `reset_prd` is never set. -/
def clk (clkCount : ℕ) (start si : Bool) (s : PeriodCounter) : PeriodCounter :=
  { s.next clkCount start si with delayReg := si }

def doneTick (s : PeriodCounter) : Bool := s.pstateReg = .done

end PeriodCounter

/-! ## `div` -/

inductive DivState where
  | idle | op | last | done
  deriving DecidableEq, Repr

/-- The registers of `div`, with `W = 23` and `CBIT = 5`. -/
structure Div where
  stateReg : DivState
  rhReg : BitVec 23
  rlReg : BitVec 23
  dReg : BitVec 23
  nReg : BitVec 5
  deriving DecidableEq, Repr

namespace Div

def reset : Div where
  stateReg := .idle
  rhReg := 0
  rlReg := 0
  dReg := 0
  nReg := 0

/-- Compare. -/
def qBit (s : Div) : Bool := s.rhReg ≥ s.dReg

/-- And subtract. -/
def rhTmp (s : Div) : BitVec 23 := if s.rhReg ≥ s.dReg then s.rhReg - s.dReg else s.rhReg

/-- A rising edge of the clock. -/
def clk (start : Bool) (dvsr dvnd : BitVec 23) (s : Div) : Div :=
  match s.stateReg with
  | .idle =>
      if start then
        { stateReg := .op, rhReg := 0, rlReg := dvnd, dReg := dvsr, nReg := 24 }
      else s
  | .op =>
      { s with
        rlReg := s.rlReg.shiftConcat s.qBit
        rhReg := s.rhTmp.shiftConcat s.rlReg.msb
        nReg := s.nReg - 1
        stateReg := if s.nReg - 1 = 1 then .last else .op }
  | .last => { s with rlReg := s.rlReg.shiftConcat s.qBit, rhReg := s.rhTmp, stateReg := .done }
  | .done => { s with stateReg := .idle }

def doneTick (s : Div) : Bool := s.stateReg = .done

end Div

/-! ## `sensor` -/

/-- The states of `sensor_proc`. The others are entered after `time_up` only, which
`check_sensor_proc` never sets. -/
inductive FState where
  | idle | count | frq | calc1
  deriving DecidableEq, Repr

/-- `sensor_proc`, and the two units that it starts. -/
structure Sensor where
  prdCountUnit : PeriodCounter
  divUnit : Div
  fstateReg : FState
  fstateNext : FState
  prdStart : Bool
  divStart : Bool
  firstFlag : Bool
  result : BitVec 16
  deriving DecidableEq, Repr

namespace Sensor

def reset : Sensor where
  prdCountUnit := .reset
  divUnit := .reset
  fstateReg := .idle
  fstateNext := .idle
  prdStart := false
  divStart := false
  firstFlag := false
  result := 0

/-- The case statement of `sensor_proc`. -/
def fsm (s : Sensor) : Sensor :=
  match s.fstateReg with
  | .idle => { s with fstateNext := .count, prdStart := true }
  | .count =>
      if s.prdCountUnit.doneTick then
        { s with prdStart := false, divStart := true, fstateNext := .frq }
      else { s with prdStart := false }
  | .frq =>
      if s.divUnit.doneTick then
        if s.firstFlag then { s with divStart := false, fstateNext := .calc1 }
        else
          { s with
            divStart := false
            firstFlag := true
            result := s.divUnit.rlReg.setWidth 16
            fstateNext := .calc1 }
      else { s with divStart := false }
  | .calc1 => { s with result := s.divUnit.rlReg.setWidth 16, fstateNext := .idle }

/-- A rising edge of the clock. -/
def clk (clkCount : ℕ) (factor : BitVec 23) (s : Sensor) (sensor1 : Bool) : Sensor :=
  { s.fsm with
    fstateReg := s.fstateNext
    prdCountUnit := s.prdCountUnit.clk clkCount s.prdStart sensor1
    divUnit := s.divUnit.clk s.divStart (s.prdCountUnit.pReg.setWidth 23) factor }

end Sensor

/-- `RPM_CLOCK_COUNT` and so on. -/
def rpmClockCount : ℕ := 908
def rpmDvnd : ℕ := 6000000
def mphClockCount : ℕ := 8000
def mphDvnd : ℕ := 20000

end TruckControl
