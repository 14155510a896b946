import Mathlib.Logic.Function.Basic
import TruckControl.Library.Transition
import TruckControl.Model.Commands

/-! # The parallel port from the FPGA to the STM32 -/

namespace TruckControl

/-! ## The FPGA -/

def timeDelay7 : ℕ := 1000000
def timeDelay8c : ℕ := 100000

/-- The states of `pport_unit`. -/
inductive PportType where
  | ppPreidle | ppIdle | ppStart1 | ppStart2 | ppDone | ppDone2
  deriving DecidableEq, Repr

/-- What `pport_unit` reads of the other processes at a clock edge. -/
structure PportIn where
  rpmResult : BitVec 16
  mphResult : BitVec 16
  mcpResults : ℕ → UCHAR
  stlvStatus1 : UCHAR
  stlvStatus2 : UCHAR
  stlvStatus3 : UCHAR
  stlvStatus4 : UCHAR
  sendDelay : BitVec 26

/-- The signals of `pport_unit`, and the bytes it has presented: those on the data pins at
each rise of `PP_CS`. -/
structure PportUnit where
  pportReg : PportType
  pportNext : PportType
  timeDelayReg : BitVec 26
  timeDelayNext : BitVec 26
  sPort : BitVec 8
  skip : Bool
  upload : ℕ → UCHAR
  ppCS : Bool
  ppData : UCHAR
  presented : List UCHAR

namespace PportUnit

/-- The array after a reset: the start of a frame, and what is there before the first
sample. -/
def uploadReset : ℕ → UCHAR
  | 0 => 0xFE
  | i + 1 => if i ≤ 12 then BitVec.ofNat 8 i else 0

def reset : PportUnit where
  pportReg := .ppPreidle
  pportNext := .ppPreidle
  timeDelayReg := 0
  timeDelayNext := 0
  sPort := 0
  skip := false
  upload := uploadReset
  ppCS := false
  ppData := 0
  presented := []

/-- The assignments to `upload`. -/
def sample (i : PportIn) (upload : ℕ → UCHAR) : ℕ → UCHAR
  | 1 => i.rpmResult.extractLsb' 0 8
  | 2 => i.rpmResult.extractLsb' 8 8
  | 3 => i.mphResult.extractLsb' 0 8
  | 4 => i.mphResult.extractLsb' 8 8
  | 5 => i.mcpResults 0
  | 6 => i.mcpResults 1
  | 7 => i.mcpResults 2
  | 8 => i.mcpResults 3
  | 9 => i.mcpResults 4
  | 10 => i.mcpResults 5
  | 11 => i.mcpResults 6
  | 12 => i.mcpResults 7
  | 13 => i.stlvStatus1
  | 14 => i.stlvStatus2
  | 15 => i.stlvStatus3
  | 16 => i.stlvStatus4
  | j => upload j

/-- The case statement. A state goes on to the next one through `pport_next`, so each is
there for two clock edges at least; `skip` makes one of the two count. -/
def pportCase (i : PportIn) (ppAck : Bool) (s : PportUnit) : PportUnit :=
  match s.pportReg with
  | .ppPreidle =>
      if s.timeDelayReg.toNat > timeDelay7 then { s with timeDelayNext := 0, pportNext := .ppIdle }
      else { s with timeDelayNext := s.timeDelayReg + 1 }
  | .ppIdle => { s with ppData := s.upload s.sPort.toNat, pportNext := .ppStart1 }
  | .ppStart1 =>
      { s with
        ppCS := true
        presented := if s.ppCS then s.presented else s.presented ++ [s.ppData]
        skip := !s.skip
        sPort := if s.skip then if s.sPort > 17 then 0 else s.sPort + 1 else s.sPort
        pportNext := .ppStart2 }
  | .ppStart2 =>
      if s.timeDelayReg.toNat > timeDelay8c then
        { s with timeDelayNext := 0, ppCS := false, pportNext := .ppDone }
      else { s with timeDelayNext := s.timeDelayReg + 1 }
  | .ppDone => if ppAck then { s with pportNext := .ppDone2 } else s
  | .ppDone2 =>
      if s.timeDelayReg > i.sendDelay then
        { s with timeDelayNext := 0, upload := sample i s.upload, pportNext := .ppIdle }
      else { s with timeDelayNext := s.timeDelayReg + 1 }

/-- A rising edge of the clock. -/
def clk (i : PportIn) (ppAck : Bool) (s : PportUnit) : PportUnit :=
  { s.pportCase i ppAck with pportReg := s.pportNext, timeDelayReg := s.timeDelayNext }

end PportUnit

/-! ## The STM32 -/

/-- Where `StartRecvFPGA` is. -/
inductive RecvPoint where
  /-- In `vTaskDelay(2000)`, before the first acknowledge is set. -/
  | starting
  /-- Before it is reset. -/
  | started
  /-- At `if(server_up > 0)`, or in the delay of its other branch. -/
  | loop
  /-- In the wait for `PP_CS`. -/
  | waitSet
  /-- Before `PP0_Pin` to `PP7_Pin` are read. -/
  | readPin (k : ℕ)
  /-- In the wait for the end of `PP_CS`. -/
  | waitReset
  /-- Before the byte is processed and the acknowledge set. -/
  | process
  /-- Before it is reset. -/
  | acked
  deriving DecidableEq, Repr

/-- The variables of `StartRecvFPGA`, its output pin, and the bytes it has assembled. What is
stored past `buff[24]` is past the end of the array. Each message is made in `ucbuff`, but
nothing is stored behind `ucbuff[4]`; only what is there from the beginning is kept here. -/
structure RecvFPGA where
  point : RecvPoint
  xbyte : UCHAR
  framePtr : ℕ
  buff : ℕ → UCHAR
  ucbuff : ℕ → UCHAR
  ppAck : Bool
  assembled : List UCHAR

namespace RecvFPGA

/-- The task as it starts; its arrays are not initialised. -/
def start (buff ucbuff : ℕ → UCHAR) : RecvFPGA where
  point := .starting
  xbyte := 0x21
  framePtr := 0
  buff := buff
  ucbuff := ucbuff
  ppAck := false
  assembled := []

/-- What is done with a byte, but for the messages. -/
def store (xbyte : UCHAR) (s : RecvFPGA) : RecvFPGA :=
  if xbyte = 0xFE then { s with framePtr := 0 }
  else { s with buff := Function.update s.buff s.framePtr xbyte, framePtr := s.framePtr + 1 }

/-- The eight bytes that `pack64` gets for a message with four bytes of `buff`. -/
def message (cmd : CmdType) (ucbuff buff : ℕ → UCHAR) (i : ℕ) : List UCHAR :=
  [cmd.toByte, buff i, buff (i + 1), buff (i + 2), buff (i + 3), ucbuff 5, ucbuff 6, ucbuff 7]

/-- The messages at a start byte. -/
def rtValues (engineOn sendAdc : ℕ) (ucbuff buff : ℕ → UCHAR) : List (List UCHAR) :=
  (if engineOn ≠ 0 then [message .sendRtValues1 ucbuff buff 0] else []) ++
    (if sendAdc = 1 then
      [message .sendRtValues2 ucbuff buff 4, message .sendRtValues3 ucbuff buff 8]
    else []) ++
      [message .sendRtFpgaStatus ucbuff buff 12]

/-- The messages that a byte gives to `xQueueSend`. -/
def sends (engineOn sendAdc : ℕ) (xbyte : UCHAR) (s : RecvFPGA) : List (List UCHAR) :=
  if xbyte = 0xFE then rtValues engineOn sendAdc s.ucbuff s.buff else []

/-- `StartRecvFPGA` up to its next access to a pin, or through one of its delays. -/
def step (serverUp : ℕ) (ppCS : Bool) (ppData : UCHAR) (s : RecvFPGA) : RecvFPGA :=
  match s.point with
  | .starting => { s with ppAck := true, point := .started }
  | .started => { s with ppAck := false, point := .loop }
  | .loop => if serverUp > 0 then { s with point := .waitSet } else s
  | .waitSet => if ppCS then { s with point := .readPin 0 } else s
  | .readPin k =>
      { s with
        xbyte := if ppData.getLsbD k then s.xbyte ||| 1#8 <<< k else s.xbyte
        point := if k < 7 then .readPin (k + 1) else .waitReset }
  | .waitReset => if ppCS then s else { s with point := .process }
  | .process =>
      { s.store s.xbyte with
        assembled := s.assembled ++ [s.xbyte], ppAck := true, point := .acked }
  | .acked => { s with ppAck := false, xbyte := 0, point := .loop }

end RecvFPGA

/-! ## The two chips -/

structure ParallelPort where
  fpga : PportUnit
  recv : RecvFPGA
  serverUp : ℕ

/-- What happens on the two chips, in any order. -/
inductive PportEvent where
  /-- A clock edge of the FPGA. -/
  | clk (i : PportIn)
  /-- `StartRecvFPGA` goes one step further. -/
  | startRecvFPGA
  /-- `StartRecv7200` stores what the server says of itself. -/
  | startRecv7200 (serverUp : ℕ)

namespace ParallelPort

/-- Both chips before their first step, at whatever time they are powered. -/
def start (buff ucbuff : ℕ → UCHAR) (serverUp : ℕ) : ParallelPort where
  fpga := .reset
  recv := .start buff ucbuff
  serverUp := serverUp

def step (s : ParallelPort) : PportEvent → ParallelPort
  | .clk i => { s with fpga := s.fpga.clk i s.recv.ppAck }
  | .startRecvFPGA => { s with recv := s.recv.step s.serverUp s.fpga.ppCS s.fpga.ppData }
  | .startRecv7200 serverUp => { s with serverUp := serverUp }

end ParallelPort

end TruckControl
