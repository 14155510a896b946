import Mathlib.Logic.Function.Basic
import TruckControl.Library.Transition
import TruckControl.Model.Stm32

/-! # The serial line from the TS-7200 to the STM32 -/

namespace TruckControl

/-- The bytes of a frame in the order in which `write_serial` gets them. -/
def SendSerial.bytes (frame : SendSerial) : List UCHAR := frame.writes.head

/-- Where `StartRecv7200` is in its turn. -/
inductive Recv7200Point where
  /-- In the delay at the end of the turn, or before the first one. -/
  | waiting
  /-- After `HAL_UART_Receive_IT`, before `cmd = buff[0]`. -/
  | armed
  /-- In the `switch`: the indices that are still to be read and the bytes that were read. -/
  | processing (cmd : UCHAR) (todo : List ℕ) (params : List UCHAR)
  deriving DecidableEq, Repr

/-- The bytes that are still to arrive, the buffer of `StartRecv7200` and the receive that is
in progress with the number of bytes it has got, and the commands that were processed, each
with the bytes that were read for it. -/
structure SerialReceive where
  line : List UCHAR
  buff : ℕ → UCHAR
  receiving : Option ℕ
  point : Recv7200Point
  processed : List (UCHAR × List UCHAR)

inductive ReceiveEvent where
  /-- The next byte of the line arrives. -/
  | arrive
  /-- `StartRecv7200` goes on to the next place where it touches the buffer. -/
  | turn
  deriving DecidableEq, Repr

namespace SerialReceive

/-- The task before its first turn; `buff` is not initialised. -/
def start (frames : List SendSerial) (buff : ℕ → UCHAR) : SerialReceive where
  line := frames.flatMap SendSerial.bytes
  buff := buff
  receiving := none
  point := .waiting
  processed := []

/-- A byte is stored by the receive in progress, which ends with the last byte it was asked
for; without one the byte is lost. -/
def arrive (s : SerialReceive) : SerialReceive :=
  match s.line with
  | [] => s
  | b :: line =>
      match s.receiving with
      | none => { s with line := line }
      | some got =>
          { s with
            line := line
            buff := Function.update s.buff got b
            receiving := if got + 1 < serialBuffSize + 1 then some (got + 1) else none }

/-- `HAL_UART_Receive_IT(&huart1, &buff[0], SERIAL_BUFF_SIZE+1)`. -/
def receiveIT (s : SerialReceive) : SerialReceive :=
  match s.receiving with
  | none => { s with receiving := some 0 }
  | some _ => s

/-- The bytes of `buff` that the `switch` reads, in their order. There are delays between
those of `SEND_CONFIG2`, and after those of `SERVER_UP`. -/
def reads (cmd : UCHAR) : List ℕ :=
  match CmdType.ofByte cmd with
  | some .serverUp => [2, 1, 4, 3, 6, 5, 8, 7, 10, 9, 12, 11, 14, 13]
  | some .sendConfig2 =>
      [1, 2, 3, 4, 6, 5, 8, 7, 10, 9, 12, 11, 14, 13, 16, 15, 18, 17, 20, 19]
  | some .adcGate => [1, 1]
  | some .setAdcRate | some .setFpgaRate | some .setRpmMphRate => [1]
  | some .highRevLimit | some .lowRevLimit => [1]
  | some .sendRevLimitOverride | some .sendFpOverride => [1]
  | _ => []

/-- The task up to the next place where it touches the buffer. The `memset` is one step, and
leaves the last byte of the buffer. -/
def turn (s : SerialReceive) : SerialReceive :=
  match s.point with
  | .waiting => { s.receiveIT with point := .armed }
  | .armed =>
      let cmd := s.buff 0
      if Stm32.Accepts cmd then { s with point := .processing cmd (reads cmd) [] }
      else { s with point := .waiting }
  | .processing cmd (i :: todo) params =>
      { s with point := .processing cmd todo (params ++ [s.buff i]) }
  | .processing cmd [] params =>
      { s with
        point := .waiting
        processed := s.processed ++ [(cmd, params)]
        buff := fun i => if i < serialBuffSize then 0 else s.buff i }

def step (s : SerialReceive) : ReceiveEvent → SerialReceive
  | .arrive => s.arrive
  | .turn => s.turn

end SerialReceive

end TruckControl
