import Mathlib.Data.List.Basic

/-!
# The connection of the client

The three parties that use the socket, one statement after the other: the task that accepts
a client and greets it, the task that executes commands, and whoever closes the socket.
-/

namespace TruckControl

/-- The commands that change `engine_running`, and the texts of the same names. -/
inductive EngineCmd where
  | startSeq | shutdown
  deriving DecidableEq, Repr

/-- What the command stores. -/
def EngineCmd.engineRunning : EngineCmd → ℕ
  | .startSeq => 1
  | .shutdown => 0

/-- `if(engine_running) strcpy(tempx,"START_SEQ"); else strcpy(tempx,"SHUTDOWN");` -/
def engineText (engineRunning : ℕ) : EngineCmd :=
  if engineRunning ≠ 0 then .startSeq else .shutdown

/-- A connection that has been accepted, and the texts that were sent on it. It is closed by
either side. -/
structure Connection where
  texts : List EngineCmd
  closed : Bool
  deriving DecidableEq, Repr

/-- Where `tcp_monitor_task` is. -/
inductive MonitorPoint where
  /-- At `if(test_sock())`. -/
  | testSock
  /-- In the branch of an open socket. -/
  | sleeping
  /-- In `accept`. -/
  | accepting
  /-- Before `sock_open = 1`. -/
  | accepted
  /-- Before `engine_running` is read. -/
  | reading
  /-- At `if(test_sock())` in `send_msg`. -/
  | sendMsg (tempx : EngineCmd)
  | sendTcp (tempx : EngineCmd)
  | greeted
  | returned
  deriving DecidableEq, Repr

/-- Where `basic_controls_task` is with a command. -/
inductive ControlsPoint where
  | getMsgQueue
  /-- At `if(test_sock())`. -/
  | testSock (cmd : EngineCmd)
  /-- At `if(test_sock())` in `send_msg`. -/
  | sendMsg (cmd : EngineCmd)
  | sendTcp (cmd : EngineCmd)
  /-- Before `engine_running` is stored; the sleeps of `START_SEQ` are here. -/
  | store (cmd : EngineCmd)
  /-- After it. -/
  | stored (cmd : EngineCmd)
  deriving DecidableEq, Repr

/-- Where a call of `close_tcp` is, past its `if(sock_open)`. -/
inductive ClosePoint where
  | clear | close | reset
  deriving DecidableEq, Repr

/-- What the parties share, where they are, and the calls of `close_tcp` under way.
`globalSocket` is `none` for -1. -/
structure TcpMonitor where
  sockOpen : Bool
  globalSocket : Option Connection
  engineRunning : ℕ
  monitor : MonitorPoint
  controls : ControlsPoint
  closers : List ClosePoint
  deriving DecidableEq, Repr

inductive TcpEvent where
  /-- A client connects, and `accept` returns. -/
  | connect
  | acceptFails
  /-- The client goes away. -/
  | hangUp
  /-- Some task calls `close_tcp`. -/
  | closeTcp
  /-- One of the calls of `close_tcp` goes on. -/
  | closer (i : ℕ)
  | tcpMonitorTask (shutdownAll : Bool)
  /-- `get_msg_queue` returns a command. -/
  | command (cmd : EngineCmd)
  | basicControlsTask

namespace TcpMonitor

def start : TcpMonitor where
  sockOpen := false
  globalSocket := none
  engineRunning := 0
  monitor := .testSock
  controls := .getMsgQueue
  closers := []

def closeTcp (s : TcpMonitor) : TcpMonitor :=
  if s.sockOpen then { s with closers := s.closers ++ [.clear] } else s

/-- The text goes to the socket as it is now; `put_sock` closes it when that fails. -/
def sendTcp (text : EngineCmd) (s : TcpMonitor) : TcpMonitor :=
  if s.sockOpen then
    match s.globalSocket with
    | some ⟨texts, false⟩ => { s with globalSocket := some ⟨texts ++ [text], false⟩ }
    | _ => s.closeTcp
  else s

def tcpMonitorTask (shutdownAll : Bool) (s : TcpMonitor) : TcpMonitor :=
  match s.monitor with
  | .testSock => { s with monitor := if s.sockOpen then .sleeping else .accepting }
  | .sleeping =>
      if shutdownAll then { s.closeTcp with monitor := .returned }
      else { s with monitor := .testSock }
  | .accepting => s
  | .accepted =>
      { s with sockOpen := if s.globalSocket.isSome then true else s.sockOpen, monitor := .reading }
  | .reading => { s with monitor := .sendMsg (engineText s.engineRunning) }
  | .sendMsg tempx => { s with monitor := if s.sockOpen then .sendTcp tempx else .greeted }
  | .sendTcp tempx => { s.sendTcp tempx with monitor := .greeted }
  | .greeted => { s with monitor := if shutdownAll then .returned else .testSock }
  | .returned => s

def basicControlsTask (s : TcpMonitor) : TcpMonitor :=
  match s.controls with
  | .getMsgQueue => s
  | .testSock cmd => { s with controls := if s.sockOpen then .sendMsg cmd else .store cmd }
  | .sendMsg cmd => { s with controls := if s.sockOpen then .sendTcp cmd else .store cmd }
  | .sendTcp cmd => { s.sendTcp cmd with controls := .store cmd }
  | .store cmd => { s with engineRunning := cmd.engineRunning, controls := .stored cmd }
  | .stored _ => { s with controls := .getMsgQueue }

def closer (i : ℕ) (s : TcpMonitor) : TcpMonitor :=
  match s.closers[i]? with
  | some .clear => { s with sockOpen := false, closers := s.closers.set i .close }
  | some .close =>
      { s with
        globalSocket := s.globalSocket.map fun c => { c with closed := true }
        closers := s.closers.set i .reset }
  | some .reset => { s with globalSocket := none, closers := s.closers.eraseIdx i }
  | none => s

def step (s : TcpMonitor) : TcpEvent → TcpMonitor
  | .connect =>
      match s.monitor with
      | .accepting => { s with globalSocket := some ⟨[], false⟩, monitor := .accepted }
      | _ => s
  | .acceptFails =>
      match s.monitor with
      | .accepting => { s with globalSocket := none, monitor := .returned }
      | _ => s
  | .hangUp => { s with globalSocket := s.globalSocket.map fun c => { c with closed := true } }
  | .closeTcp => s.closeTcp
  | .closer i => s.closer i
  | .tcpMonitorTask shutdownAll => s.tcpMonitorTask shutdownAll
  | .command cmd =>
      match s.controls with
      | .getMsgQueue => { s with controls := .testSock cmd }
      | _ => s
  | .basicControlsTask => s.basicControlsTask

end TcpMonitor

end TruckControl
