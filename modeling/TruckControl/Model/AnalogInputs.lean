import Mathlib.Data.Fin.VecNotation
import TruckControl.Model.FpgaCommands

/-! # The analog inputs of the FPGA -/

namespace TruckControl

/-! ## `MCP3002` -/

def mcpTimeDelay : ℕ := 1000

/-- Its states. -/
inductive StateMCP3002 where
  | mStart | mPreshift1 | mPreshift2 | mPreshift3 | mShift1 | mResults0 | mResults1 | mResults2
  deriving DecidableEq, Repr

/-- What it reads at a clock edge. -/
structure McpIn where
  enable : Bool
  diff : Bool
  channel : Bool
  msbf : Bool
  mcpDin : Bool

/-- Its signals. -/
structure MCP3002 where
  mcp3002Reg : StateMCP3002
  mcp3002Next : StateMCP3002
  timeDelayReg2 : BitVec 25
  timeDelayNext2 : BitVec 25
  results : BitVec 10
  shift : BitVec 8
  preShift : BitVec 8
  skip : Bool
  skip2 : Bool
  startShift : BitVec 4
  mcpCS : Bool
  mcpCLK : Bool
  mcpDout : Bool
  doneFlag : Bool
  rawRegister : BitVec 10
  deriving DecidableEq, Repr

namespace MCP3002

/-- The reset leaves `start_shift` as it is, and its first bit is never assigned. -/
def reset (startShift : BitVec 3) : MCP3002 where
  mcp3002Reg := .mStart
  mcp3002Next := .mStart
  timeDelayReg2 := 0
  timeDelayNext2 := 0
  results := 0
  shift := 0
  preShift := 0
  skip := false
  skip2 := false
  startShift := 1#1 ++ startShift
  mcpCS := true
  mcpCLK := false
  mcpDout := false
  doneFlag := false
  rawRegister := 0

/-- `start_shift` with its last three bits assigned. -/
def assignBits (diff channel msbf : Bool) (startShift : BitVec 4) : BitVec 4 :=
  startShift.extractLsb' 3 1 ++ BitVec.ofBool diff ++ BitVec.ofBool channel ++ BitVec.ofBool msbf

/-- `results` with a bit shifted in. -/
def shiftIn (msbf mcpDin : Bool) (results : BitVec 10) : BitVec 10 :=
  if msbf then results.extractLsb' 0 9 ++ BitVec.ofBool mcpDin
  else BitVec.ofBool mcpDin ++ results.extractLsb' 1 9

/-- The case statement. A state goes on through `MCP3002_next`, so each of its ends is there
for two clock edges; `skip` and `skip2` make one of the two count. -/
def mcpCase (i : McpIn) (s : MCP3002) : MCP3002 :=
  match s.mcp3002Reg with
  | .mStart =>
      if i.enable then
        { s with
          doneFlag := false
          results := 0
          startShift := assignBits i.diff i.channel i.msbf s.startShift
          mcpCS := false
          mcpCLK := false
          shift := 0
          preShift := 0
          rawRegister := 0
          mcp3002Next := .mPreshift1 }
      else { s with doneFlag := false, results := 0 }
  | .mPreshift1 =>
      if s.timeDelayReg2.toNat > mcpTimeDelay then
        { s with timeDelayNext2 := 0, mcpCLK := false, mcp3002Next := .mPreshift2 }
      else { s with timeDelayNext2 := s.timeDelayReg2 + 1 }
  | .mPreshift2 =>
      if s.timeDelayReg2.toNat > mcpTimeDelay then
        if s.skip then { s with timeDelayNext2 := 0, skip := false }
        else if s.preShift.toNat > 3 then
          { s with
            timeDelayNext2 := 0
            preShift := 0
            mcpCLK := false
            mcp3002Next := .mShift1
            skip := true }
        else
          { s with
            timeDelayNext2 := 0
            mcpDout := s.startShift.getLsbD (3 - s.preShift.toNat)
            preShift := s.preShift + 1
            mcp3002Next := .mPreshift3
            skip := true }
      else { s with timeDelayNext2 := s.timeDelayReg2 + 1 }
  | .mPreshift3 =>
      if s.timeDelayReg2.toNat > mcpTimeDelay then
        { s with timeDelayNext2 := 0, mcpCLK := true, mcp3002Next := .mPreshift1 }
      else { s with timeDelayNext2 := s.timeDelayReg2 + 1 }
  | .mShift1 =>
      if s.timeDelayReg2.toNat > mcpTimeDelay / 32 then
        { s with timeDelayNext2 := 0, mcp3002Next := .mResults0, mcpDout := false, skip := false }
      else { s with timeDelayNext2 := s.timeDelayReg2 + 1 }
  | .mResults0 =>
      if s.timeDelayReg2.toNat > mcpTimeDelay then
        { s with timeDelayNext2 := 0, mcpCLK := false, mcp3002Next := .mResults1 }
      else { s with timeDelayNext2 := s.timeDelayReg2 + 1 }
  | .mResults1 =>
      if s.timeDelayReg2.toNat > mcpTimeDelay then
        if s.skip2 then { s with timeDelayNext2 := 0, skip2 := false }
        else if s.shift.toNat > 10 then
          -- the register is given as it was before the last bit
          { s with
            timeDelayNext2 := 0
            results := shiftIn i.msbf i.mcpDin s.results
            doneFlag := true
            rawRegister := s.results
            mcpCS := true
            mcp3002Next := .mStart
            shift := if s.shift.toNat + 1 > 11 then 0 else s.shift + 1
            skip2 := true }
        else
          { s with
            timeDelayNext2 := 0
            results := shiftIn i.msbf i.mcpDin s.results
            mcp3002Next := .mResults2
            shift := if s.shift.toNat + 1 > 11 then 0 else s.shift + 1
            skip2 := true }
      else { s with timeDelayNext2 := s.timeDelayReg2 + 1 }
  | .mResults2 =>
      if s.timeDelayReg2.toNat > mcpTimeDelay then
        { s with timeDelayNext2 := 0, mcpCLK := true, mcp3002Next := .mResults0 }
      else { s with timeDelayNext2 := s.timeDelayReg2 + 1 }

/-- A rising edge of the clock. -/
def clk (i : McpIn) (s : MCP3002) : MCP3002 :=
  { s.mcpCase i with mcp3002Reg := s.mcp3002Next, timeDelayReg2 := s.timeDelayNext2 }

end MCP3002

/-! ## The processes of `mcp_wrapper` -/

/-- The states of `calc_proc1` to `calc_proc4`, but for the letters behind their names. -/
inductive CalcType where
  | idle | start1 | start2 | start3
  deriving DecidableEq, Repr

/-- The signals of one of them: `main_reg1`, `enable1`, and so on. -/
structure CalcProc where
  mainReg : CalcType
  mainNext : CalcType
  enable : Bool
  channel : Bool
  procDone : Bool
  rawRegisterA : BitVec 10
  rawRegisterB : BitVec 10
  deriving DecidableEq, Repr

namespace CalcProc

def reset : CalcProc where
  mainReg := .idle
  mainNext := .idle
  enable := false
  channel := false
  procDone := false
  rawRegisterA := 0
  rawRegisterB := 0

/-- The case statement. -/
def calcCase (start doneFlag : Bool) (rawRegister : BitVec 10) (s : CalcProc) : CalcProc :=
  match s.mainReg with
  | .idle =>
      if start then
        { s with procDone := false, channel := false, enable := true, mainNext := .start1 }
      else s
  | .start1 =>
      if doneFlag then
        { s with enable := false, rawRegisterA := rawRegister, mainNext := .start2 }
      else { s with enable := false }
  | .start2 => { s with channel := true, enable := true, mainNext := .start3 }
  | .start3 =>
      if doneFlag then
        { s with
          enable := false, rawRegisterB := rawRegister, procDone := true, mainNext := .idle }
      else { s with enable := false }

/-- A rising edge of the clock. -/
def clk (start doneFlag : Bool) (rawRegister : BitVec 10) (s : CalcProc) : CalcProc :=
  { s.calcCase start doneFlag rawRegister with mainReg := s.mainNext }

end CalcProc

/-- What there is for each of the four chips. -/
structure McpChip where
  calcProc : CalcProc
  mcpUnit : MCP3002
  deriving DecidableEq, Repr

namespace McpChip

def reset (startShift : BitVec 3) : McpChip := ⟨.reset, .reset startShift⟩

/-- A rising edge of the clock. -/
def clk (start diff msbf mcpDin : Bool) (s : McpChip) : McpChip where
  calcProc := s.calcProc.clk start s.mcpUnit.doneFlag s.mcpUnit.rawRegister
  mcpUnit := s.mcpUnit.clk ⟨s.calcProc.enable, diff, s.calcProc.channel, msbf, mcpDin⟩

end McpChip

/-- The states of `finish_proc2`. -/
inductive FinishType where
  | finishIdle | finishDone
  deriving DecidableEq, Repr

/-- Its signals. -/
structure FinishProc2 where
  finishReg : FinishType
  finishNext : FinishType
  results : ℕ → UCHAR
  done : Bool

/-- The upper bits of a conversion, `0xFE` excepted. -/
def upperBits (rawRegister : BitVec 10) : UCHAR :=
  if rawRegister.extractLsb' 2 8 = 0xFE then 0xFD else rawRegister.extractLsb' 2 8

namespace FinishProc2

def reset : FinishProc2 where
  finishReg := .finishIdle
  finishNext := .finishIdle
  results := fun _ => 0
  done := false

/-- The assignments to `results`. -/
def copy (procs : Fin 4 → CalcProc) (results : ℕ → UCHAR) : ℕ → UCHAR
  | 0 => upperBits (procs 0).rawRegisterA
  | 1 => upperBits (procs 0).rawRegisterB
  | 2 => upperBits (procs 1).rawRegisterA
  | 3 => upperBits (procs 1).rawRegisterB
  | 4 => upperBits (procs 2).rawRegisterA
  | 5 => upperBits (procs 2).rawRegisterB
  | 6 => upperBits (procs 3).rawRegisterA
  | 7 => upperBits (procs 3).rawRegisterB
  | j => results j

/-- The case statement. -/
def finishCase (procs : Fin 4 → CalcProc) (s : FinishProc2) : FinishProc2 :=
  match s.finishReg with
  | .finishIdle =>
      if (procs 0).procDone && (procs 1).procDone && (procs 2).procDone && (procs 3).procDone then
        { s with done := false, results := copy procs s.results, finishNext := .finishDone }
      else { s with done := false }
  | .finishDone => { s with done := true, finishNext := .finishIdle }

/-- A rising edge of the clock. -/
def clk (procs : Fin 4 → CalcProc) (s : FinishProc2) : FinishProc2 :=
  { s.finishCase procs with finishReg := s.finishNext }

end FinishProc2

/-- `mcp_wrapper`. The reset of `calc_proc1` sets `diff` and `msbf`, and nothing else does. -/
structure McpWrapper where
  chips : Fin 4 → McpChip
  diff : Bool
  msbf : Bool
  finishProc2 : FinishProc2

namespace McpWrapper

def reset (startShift : Fin 4 → BitVec 3) : McpWrapper where
  chips := fun k => .reset (startShift k)
  diff := true
  msbf := true
  finishProc2 := .reset

/-- `calc_proc1` and `MCP_unit1`. -/
def calcProc1 (start mcpDin1 : Bool) (s : McpWrapper) : McpChip :=
  (s.chips 0).clk start s.diff s.msbf mcpDin1

/-- `calc_proc2` and `MCP_unit2`. -/
def calcProc2 (start mcpDin2 : Bool) (s : McpWrapper) : McpChip :=
  (s.chips 1).clk start s.diff s.msbf mcpDin2

/-- `calc_proc3` and `MCP_unit3`. -/
def calcProc3 (start mcpDin3 : Bool) (s : McpWrapper) : McpChip :=
  (s.chips 2).clk start s.diff s.msbf mcpDin3

/-- `calc_proc4` and `MCP_unit4`. -/
def calcProc4 (start mcpDin4 : Bool) (s : McpWrapper) : McpChip :=
  (s.chips 3).clk start s.diff s.msbf mcpDin4

/-- A rising edge of the clock. -/
def clk (start : Bool) (mcpDin : Fin 4 → Bool) (s : McpWrapper) : McpWrapper where
  chips := ![s.calcProc1 start (mcpDin 0), s.calcProc2 start (mcpDin 1),
    s.calcProc3 start (mcpDin 2), s.calcProc4 start (mcpDin 3)]
  diff := s.diff
  msbf := s.msbf
  finishProc2 := s.finishProc2.clk fun k => (s.chips k).calcProc

end McpWrapper

/-! ## `mcp_unit` -/

/-- Its states. -/
inductive StateMcp where
  | mcpIdle | mcpStart1 | mcpStart2 | mcpDone
  deriving DecidableEq, Repr

/-- Its signals. -/
structure McpUnit where
  mcpReg : StateMcp
  mcpNext : StateMcp
  timeDelayReg5 : BitVec 26
  timeDelayNext5 : BitVec 26
  startMcp : Bool
  deriving DecidableEq, Repr

namespace McpUnit

def reset : McpUnit where
  mcpReg := .mcpIdle
  mcpNext := .mcpIdle
  timeDelayReg5 := 0
  timeDelayNext5 := 0
  startMcp := false

/-- The case statement. -/
def mcpCase (adcDelay : BitVec 26) (adcGate doneMcp : Bool) (s : McpUnit) : McpUnit :=
  match s.mcpReg with
  | .mcpIdle =>
      if s.timeDelayReg5 > adcDelay then
        if adcGate then { s with timeDelayNext5 := 0, startMcp := true, mcpNext := .mcpStart1 }
        else { s with timeDelayNext5 := 0, mcpNext := .mcpIdle }
      else { s with timeDelayNext5 := s.timeDelayReg5 + 1 }
  | .mcpStart1 =>
      if doneMcp then { s with startMcp := false, mcpNext := .mcpStart2 }
      else { s with startMcp := false }
  | .mcpStart2 =>
      if s.timeDelayReg5 > adcDelay then { s with timeDelayNext5 := 0, mcpNext := .mcpDone }
      else { s with timeDelayNext5 := s.timeDelayReg5 + 1 }
  | .mcpDone => { s with mcpNext := .mcpIdle }

/-- A rising edge of the clock. -/
def clk (adcDelay : BitVec 26) (adcGate doneMcp : Bool) (s : McpUnit) : McpUnit :=
  { s.mcpCase adcDelay adcGate doneMcp with
    mcpReg := s.mcpNext, timeDelayReg5 := s.timeDelayNext5 }

end McpUnit

/-! ## Both -/

/-- The inputs at a clock edge. -/
structure AdcEdge where
  adcDelay : BitVec 26
  adcGate : Bool
  mcpDin : Fin 4 → Bool

structure AnalogInputs where
  mcpUnit : McpUnit
  mcpWrapper : McpWrapper

namespace AnalogInputs

def reset (startShift : Fin 4 → BitVec 3) : AnalogInputs := ⟨.reset, .reset startShift⟩

/-- A rising edge of the clock. -/
def clk (s : AnalogInputs) (e : AdcEdge) : AnalogInputs where
  mcpUnit := s.mcpUnit.clk e.adcDelay e.adcGate s.mcpWrapper.finishProc2.done
  mcpWrapper := s.mcpWrapper.clk s.mcpUnit.startMcp e.mcpDin

/-- The states of a run from a reset. -/
def run (startShift : Fin 4 → BitVec 3) (es : ℕ → AdcEdge) : ℕ → AnalogInputs
  | 0 => reset startShift
  | n + 1 => (run startShift es n).clk (es n)

end AnalogInputs

end TruckControl
