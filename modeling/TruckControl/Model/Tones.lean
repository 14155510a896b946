import TruckControl.Model.Stm32

/-! # The tones of the keys -/

namespace TruckControl

/-- A message on the queue to the FPGA; `other` is a command that no tone belongs to. -/
inductive FpgaMsg where
  | dtmfToneOn (tone : UCHAR)
  | dtmfToneOff
  | other
  deriving DecidableEq, Repr

/-- `au8_keyTable`. -/
def keyTable : List (List KeyType) :=
  [[.kpAst, .kp0, .kpPound, .kpD], [.kp7, .kp8, .kp9, .kpC], [.kp4, .kp5, .kp6, .kpB],
    [.kp1, .kp2, .kp3, .kpA]]

/-- `do_keyscan`: the first key that is held down, row after row. -/
def doKeyscan (held : List KeyType) : Option KeyType :=
  keyTable.flatten.find? fun key => key ∈ held

/-- `key_is_released`: of the rows, only that of the key which was found is driven. -/
def keyIsReleased (key : KeyType) (held : List KeyType) : Bool :=
  (keyTable.filter fun row => key ∈ row).flatten.all fun key => key ∉ held

/-- `ucbuff[1]` of the tone of a key. -/
def keyTone (key : KeyType) : UCHAR :=
  if key = .kp0 then 0 else key.toByte - KeyType.kp1.toByte + 1

/-- `e_isrState`, and the delay of `StartKeyStateTask` before a tone is switched off. -/
inductive KeyStatePoint where
  | waitForPress
  | waitForRelease (key : KeyType)
  | toneOff
  deriving DecidableEq, Repr

/-- Where `StartDefaultTask` is: before it takes a key, or in a delay before a further tone. -/
inductive DefaultPoint where
  | receive | secondTone | toneOff
  deriving DecidableEq, Repr

/-- The keypad, the tasks, their two queues, and what has been delivered to the FPGA. -/
structure ToneTasks where
  held : List KeyType
  keyState : KeyStatePoint
  defaultTask : DefaultPoint
  keypressed : List KeyType
  sendFPGA : List FpgaMsg
  sending : Option FpgaMsg
  delivered : List FpgaMsg
  deriving DecidableEq, Repr

inductive ToneEvent where
  /-- From now on these keys are held down. -/
  | keys (held : List KeyType)
  | startKeyStateTask
  | startDefaultTask
  /-- `StartSendFPGA` takes a message, or is through with it. -/
  | startSendFPGA
  /-- Another task sends a command to the FPGA. -/
  | otherTask
  deriving DecidableEq, Repr

namespace ToneTasks

def start : ToneTasks where
  held := []
  keyState := .waitForPress
  defaultTask := .receive
  keypressed := []
  sendFPGA := []
  sending := none
  delivered := []

/-- `xQueueSend(SendFPGAHandle, .., 0)`: the queue holds ten, and does not wait. -/
def xQueueSend (m : FpgaMsg) (s : ToneTasks) : ToneTasks :=
  if s.sendFPGA.length < 10 then { s with sendFPGA := s.sendFPGA ++ [m] } else s

/-- `xQueueSend(keypressedHandle, .., 0)`. -/
def sendKey (key : KeyType) (s : ToneTasks) : ToneTasks :=
  if s.keypressed.length < 16 then { s with keypressed := s.keypressed ++ [key] } else s

/-- A turn of `StartKeyStateTask`, or the end of its delay. -/
def startKeyStateTask (s : ToneTasks) : ToneTasks :=
  match s.keyState with
  | .waitForPress =>
      match doKeyscan s.held with
      | some key =>
          { s with keyState := .waitForRelease key }.xQueueSend (.dtmfToneOn (keyTone key))
      | none => s
  | .waitForRelease key =>
      if keyIsReleased key s.held then { s with keyState := .toneOff }.sendKey key else s
  | .toneOff => { s with keyState := .waitForPress }.xQueueSend .dtmfToneOff

/-- `StartDefaultTask` takes a key, or comes to the end of a delay. -/
def startDefaultTask (s : ToneTasks) : ToneTasks :=
  match s.defaultTask with
  | .receive =>
      match s.keypressed with
      | [] => s
      | key :: rest =>
          let s := { s with keypressed := rest }
          match key with
          | .kpA | .kpB | .kpC | .kpD | .kpAst | .kpPound => s
          | _ => { s with defaultTask := .secondTone }.xQueueSend (.dtmfToneOn 10)
  | .secondTone => { s with defaultTask := .toneOff }.xQueueSend (.dtmfToneOn 9)
  | .toneOff => { s with defaultTask := .receive }.xQueueSend .dtmfToneOff

def startSendFPGA (s : ToneTasks) : ToneTasks :=
  match s.sending, s.sendFPGA with
  | some m, _ => { s with sending := none, delivered := s.delivered ++ [m] }
  | none, m :: rest => { s with sending := some m, sendFPGA := rest }
  | none, [] => s

def step (s : ToneTasks) : ToneEvent → ToneTasks
  | .keys held => { s with held := held }
  | .startKeyStateTask => s.startKeyStateTask
  | .startDefaultTask => s.startDefaultTask
  | .startSendFPGA => s.startSendFPGA
  | .otherTask => s.xQueueSend .other

end ToneTasks

end TruckControl
