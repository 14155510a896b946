import TruckControl.Model.FpgaCommands

/-! # The receiver on the line to the FPGA -/

namespace TruckControl

/-! ## `uart_rx` -/

/-- Its states. -/
inductive RxState where
  | idle | start | data | stop
  deriving DecidableEq, Repr

/-- Its registers. -/
structure UartRx where
  stateRegRx : RxState
  sReg : BitVec 4
  nReg : BitVec 3
  bReg : UCHAR
  deriving DecidableEq, Repr

namespace UartRx

def reset : UartRx where
  stateRegRx := .idle
  sReg := 0
  nReg := 0
  bReg := 0

/-- A rising edge of the clock. -/
def clk (sTick rx : Bool) (s : UartRx) : UartRx :=
  match s.stateRegRx with
  | .idle => if !rx then { s with stateRegRx := .start, sReg := 0 } else s
  | .start =>
      if sTick then
        if s.sReg = 7 then { s with stateRegRx := .data, sReg := 0, nReg := 0 }
        else { s with sReg := s.sReg + 1 }
      else s
  | .data =>
      if sTick then
        if s.sReg = 15 then
          let bReg := BitVec.cons rx (s.bReg.extractLsb' 1 7)
          if s.nReg = 7 then { s with sReg := 0, bReg := bReg, stateRegRx := .stop }
          else { s with sReg := 0, bReg := bReg, nReg := s.nReg + 1 }
        else { s with sReg := s.sReg + 1 }
      else s
  | .stop =>
      if sTick then
        if s.sReg = 15 then { s with stateRegRx := .idle }
        else { s with sReg := s.sReg + 1 }
      else s

/-- With a tick now the byte in `dout` is complete. -/
def awaitsTick (s : UartRx) : Bool := s.stateRegRx = .stop ∧ s.sReg = 15

end UartRx

/-! ## The line with the pins beside it -/

/-- The inputs at a clock edge. -/
structure LineEdge where
  dataReady : Bool
  cmdParam : Bool
  rx : Bool
  stlvEngineRunning : Bool
  deriving DecidableEq

/-- The processes behind the line, with the receiver. -/
structure CommandLine where
  link : CommandLink
  uartRx : UartRx

namespace CommandLine

def reset (s : CalcSignals) : CommandLine := ⟨.reset s, .reset⟩

/-- What the other processes have at the edge. -/
def fpgaEdge (s : CommandLine) (e : LineEdge) : FpgaEdge where
  dataReady := e.dataReady
  rx := if s.uartRx.awaitsTick then some ⟨e.cmdParam, s.uartRx.bReg⟩ else none
  stlvEngineRunning := e.stlvEngineRunning

/-- A rising edge of the clock. -/
def clk (s : CommandLine) (e : LineEdge) : CommandLine where
  link := s.link.clk (s.fpgaEdge e)
  uartRx := s.uartRx.clk s.link.tick2 e.rx

/-- The state after a run. -/
def after (s : CommandLine) (es : List LineEdge) : CommandLine := es.foldl clk s

/-- The edges of a run, as the other processes have them. -/
def fpgaEdges (s : CommandLine) : List LineEdge → List FpgaEdge
  | [] => []
  | e :: es => s.fpgaEdge e :: (s.clk e).fpgaEdges es

end CommandLine

end TruckControl
