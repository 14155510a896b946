import TruckControl.Model.DisplaySender

/-! # The transmitter of the FPGA, and the line it drives -/

namespace TruckControl

/-- The inputs of `uartLED` at a clock edge. -/
structure TxIn where
  txStart : Bool
  wData : UCHAR
  deriving DecidableEq, Repr

/-- `uartLED`: the counter of the ticks and `uart_tx`. -/
structure UartLed where
  rReg : ℕ
  uartTx : UartTx
  deriving DecidableEq, Repr

namespace UartLed

/-- A rising edge of the clock. -/
def clk (s : UartLed) (i : TxIn) : UartLed where
  rReg := modM s.rReg
  uartTx := s.uartTx.clk i.txStart (maxTick s.rReg) i.wData

/-- The state after a run. -/
def after (s : UartLed) (is : List TxIn) : UartLed := is.foldl clk s

/-- `tx` after each edge of a run. -/
def levels (s : UartLed) : List TxIn → List Bool
  | [] => []
  | i :: is => (s.clk i).uartTx.txReg :: (s.clk i).levels is

/-- The bytes that `uart_tx` takes; while one is on the line it does not look for another. -/
def taken (s : UartLed) : List TxIn → List UCHAR
  | [] => []
  | i :: is =>
      (if s.uartTx.startRegRx = .idle ∧ i.txStart then [i.wData] else []) ++ (s.clk i).taken is

end UartLed

/-- The transmitter in the sender for the display. -/
def DisplaySender.uartLed (s : DisplaySender) : UartLed := ⟨s.rReg, s.uartTx⟩

/-- Its inputs there. -/
def DisplaySender.txIn (s : DisplaySender) : TxIn := ⟨s.led.startTx, s.led.dataTx⟩

end TruckControl
