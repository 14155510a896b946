import TruckControl.Model.RevLimiter

/-! # The status bit for a running engine -/

namespace TruckControl

/-- The inputs at a clock edge: the line from the STM32, and the speed. -/
structure StatusEdge where
  dataReady : Bool
  rx : Option FpgaByte
  rpmResult : BitVec 16

/-- `rev_limit_unit`, and the processes that take its flag and give it the override. -/
structure EngineStatus where
  revLimitUnit : RevLimitUnit
  link : CommandLink

namespace EngineStatus

/-- The state after a reset, when `calc_proc1` holds `s`. -/
def reset (s : CalcSignals) : EngineStatus := ⟨.reset, .reset s⟩

/-- What `rev_limit_unit` reads. -/
def revIn (s : EngineStatus) (rpmResult : BitVec 16) : RevIn where
  stlvRevLimitOverride := s.link.calcProc1.stlvRevLimitOverride
  rpmResult := rpmResult
  highRevLimit := s.link.calcProc1.highRevLimit
  lowRevLimit := s.link.calcProc1.lowRevLimit

/-- A rising edge of the clock. -/
def clk (s : EngineStatus) (e : StatusEdge) : EngineStatus where
  revLimitUnit := s.revLimitUnit.clk (s.revIn e.rpmResult)
  link := s.link.clk ⟨e.dataReady, e.rx, s.revLimitUnit.stlvEngineRunning⟩

end EngineStatus

end TruckControl
