import TruckControl.Library.Transition
import TruckControl.Model.BasicControls
import TruckControl.Model.Timer

/-! # The IO controller as an event system -/

namespace TruckControl

/-- The shared state, and what `basic_controls_task` has left of its command. -/
structure Controller where
  io : IoState
  todo : List Block

/-- What the tasks of the server do, in any order. -/
inductive Event where
  /-- Some task puts a command on the queue. -/
  | addMsgQueue (cmd : UCHAR)
  /-- `basic_controls_task`, done with a command, takes the next one. -/
  | getMsgQueue
  /-- `basic_controls_task` runs to its next sleep. -/
  | basicControlsTask
  /-- `monitor_input_task` reads the switches of a bank. -/
  | monitorInputTask (bank : ℕ) (result : UCHAR)
  /-- `monitor_fake_input_task` looks at a bank. -/
  | monitorFakeInputTask (bank : ℕ)
  /-- A second has passed. -/
  | timerTask
  /-- `get_host_cmd_task` stores a new lights-on delay. -/
  | lightsOnDelay (delay : ℕ)
  deriving DecidableEq, Repr

namespace Controller

def step (c : Controller) : Event → Controller
  | .addMsgQueue cmd => { c with io := c.io.addMsgQueue cmd }
  | .getMsgQueue =>
      match c.todo with
      | [] =>
          let got := c.io.msgQueue.getMsgQueue
          { io := { c.io with msgQueue := got.2 }, todo := basicControls got.1 }
      | _ :: _ => c
  | .basicControlsTask =>
      match c.todo with
      | [] => c
      | block :: todo => { io := c.io.execBlock block, todo := todo }
  | .monitorInputTask bank result =>
      if bank < 6 then { c with io := c.io.monitorInputTask bank result } else c
  | .monitorFakeInputTask bank =>
      if bank < 6 then { c with io := c.io.monitorFakeInputTask bank } else c
  | .timerTask => { c with io := c.io.timerTask }
  | .lightsOnDelay delay => { c with io := { c.io with actualLightsOnDelay := delay } }

/-- What an event comes to. -/
inductive StepCases (c : Controller) : Event → Prop where
  /-- A command is not done yet, or there is none, or no such bank. -/
  | idle {e : Event} (hstep : c.step e = c) : StepCases c e
  | added (cmd : UCHAR)
      (hstep : c.step (.addMsgQueue cmd) = { c with io := c.io.addMsgQueue cmd }) :
      StepCases c (.addMsgQueue cmd)
  | got (htodo : c.todo = [])
      (hstep : c.step .getMsgQueue =
        { io := { c.io with msgQueue := c.io.msgQueue.getMsgQueue.2 }
          todo := basicControls c.io.msgQueue.getMsgQueue.1 }) :
      StepCases c .getMsgQueue
  | executed (block : Block) (todo : List Block) (htodo : c.todo = block :: todo)
      (hstep : c.step .basicControlsTask = { io := c.io.execBlock block, todo := todo }) :
      StepCases c .basicControlsTask
  | switched (bank : ℕ) (result : UCHAR) (hb : bank < 6)
      (hstep : c.step (.monitorInputTask bank result) =
        { c with io := c.io.monitorInputTask bank result }) :
      StepCases c (.monitorInputTask bank result)
  | polled (bank : ℕ) (hb : bank < 6)
      (hstep : c.step (.monitorFakeInputTask bank) =
        { c with io := c.io.monitorFakeInputTask bank }) :
      StepCases c (.monitorFakeInputTask bank)
  | ticked (hstep : c.step .timerTask = { c with io := c.io.timerTask }) :
      StepCases c .timerTask
  | delayed (delay : ℕ)
      (hstep : c.step (.lightsOnDelay delay) =
        { c with io := { c.io with actualLightsOnDelay := delay } }) :
      StepCases c (.lightsOnDelay delay)

theorem stepCases (c : Controller) (e : Event) : StepCases c e := by
  cases e with
  | addMsgQueue cmd => exact .added cmd rfl
  | getMsgQueue =>
      cases htodo : c.todo with
      | nil => exact .got htodo (by rw [step, htodo])
      | cons block todo => exact .idle (by rw [step, htodo])
  | basicControlsTask =>
      cases htodo : c.todo with
      | nil => exact .idle (by rw [step, htodo])
      | cons block todo => exact .executed block todo htodo (by rw [step, htodo])
  | monitorInputTask bank result =>
      by_cases hb : bank < 6
      · exact .switched bank result hb (if_pos hb)
      · exact .idle (if_neg hb)
  | monitorFakeInputTask bank =>
      by_cases hb : bank < 6
      · exact .polled bank hb (if_pos hb)
      · exact .idle (if_neg hb)
  | timerTask => exact .ticked (by rw [step])
  | lightsOnDelay delay => exact .delayed delay rfl

/-- The server as it starts on a database: all relays off, no request pending, and
`inports` read from the switches. -/
def boot (db : Database) (inports : Banks) (lightsOnDelay : ℕ) : Controller where
  todo := []
  io :=
    { oll := db.olLoadConfig
      ip := initIps db.olLoadConfig
      outportstatus := fun _ => 0
      cardPorts := fun _ => 0
      inportstatus := inports
      fakeInportstatus1 := fun _ => 0
      fakeInportstatus2 := fun _ => 0
      msgQueue := .init
      engineRunning := 0
      lightsOnCountdown := 0
      actualLightsOnDelay := lightsOnDelay
      testLblinkers := 0
      testRblinkers := 0
      runningHours := 0
      runningMinutes := 0
      runningSeconds := 0
      trunningHours := 0
      trunningMinutes := 0
      trunningSeconds := 0 }

/-- The states after any history of queued commands, switch edges, polls and ticks. -/
def Reachable (db : Database) : Controller → Prop :=
  Transition.Reachable step fun c => ∃ inports lightsOnDelay, c = boot db inports lightsOnDelay

end Controller

end TruckControl
