import Mathlib.Data.Nat.Notation
import TruckControl.Model.FpgaCommands

/-! # The rev limiter of the FPGA -/

namespace TruckControl

def timeDelay500Rpm : ℕ := 16000000

/-- `>` of an `unsigned` and an `integer` in `std_logic_arith`: both are brought to one bit more
than the `unsigned` has, and what the `integer` has above these is dropped. -/
def gtInteger {n : ℕ} (l : BitVec n) (r : ℕ) : Bool :=
  (BitVec.ofNat (n + 1) r).slt (l.setWidth (n + 1))

/-- The states of `rev_limit_unit`. -/
inductive StateRevLimit where
  | revIdle | revStart1 | revStart2 | revDone
  deriving DecidableEq, Repr

/-- What `rev_limit_unit` reads of the other processes at a clock edge. -/
structure RevIn where
  stlvRevLimitOverride : Bool
  rpmResult : BitVec 16
  highRevLimit : BitVec 26
  lowRevLimit : BitVec 26
  deriving DecidableEq, Repr

/-- The signals of `rev_limit_unit`. -/
structure RevLimitUnit where
  revReg : StateRevLimit
  revNext : StateRevLimit
  timeDelayReg6 : BitVec 26
  timeDelayNext6 : BitVec 26
  urpmResult : BitVec 16
  revLimit : Bool
  fpShutoff : Bool
  stlvEngineRunning : Bool
  deriving DecidableEq, Repr

namespace RevLimitUnit

def reset : RevLimitUnit where
  revReg := .revIdle
  revNext := .revIdle
  timeDelayReg6 := 0
  timeDelayNext6 := 0
  urpmResult := 0
  revLimit := false
  fpShutoff := true
  stlvEngineRunning := false

/-- The case statement. The speed that is compared is the one that was sampled before. -/
def revCase (i : RevIn) (s : RevLimitUnit) : RevLimitUnit :=
  match s.revReg with
  | .revIdle =>
      if i.stlvRevLimitOverride then { s with revLimit := true, revNext := .revIdle }
      else
        { s with
          urpmResult := i.rpmResult
          revLimit :=
            if s.urpmResult.toNat > i.highRevLimit.toNat then false
            else if s.urpmResult.toNat < i.lowRevLimit.toNat then true
            else s.revLimit
          revNext := .revStart1 }
  | .revStart1 =>
      if s.timeDelayReg6.toNat > timeDelay6 then
        { s with timeDelayNext6 := 0, revNext := .revStart2 }
      else { s with timeDelayNext6 := s.timeDelayReg6 + 1 }
  | .revStart2 =>
      if s.timeDelayReg6.toNat > timeDelay6 then
        { s with
          timeDelayNext6 := 0
          revNext := .revDone
          stlvEngineRunning := gtInteger s.urpmResult timeDelay500Rpm }
      else { s with timeDelayNext6 := s.timeDelayReg6 + 1 }
  | .revDone => { s with revNext := .revIdle }

/-- A rising edge of the clock. -/
def clk (s : RevLimitUnit) (i : RevIn) : RevLimitUnit :=
  { s.revCase i with revReg := s.revNext, timeDelayReg6 := s.timeDelayNext6 }

end RevLimitUnit

end TruckControl
