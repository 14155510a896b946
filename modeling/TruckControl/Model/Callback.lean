import TruckControl.Library.Transition
import TruckControl.Model.Stm32

/-! # The timer callback, and the tasks that come between -/

namespace TruckControl

def specialToneOn : UCHAR := 5
def dtmfToneOff : UCHAR := 4

/-- A tick of `Callback01` that takes a reading: whether the engine was on at the test of the
fan, which of its messages the queues took, and the fan flag after it. -/
structure TempTick where
  rawData : BitVec 9
  engineOn : ℕ
  sent : List UCHAR
  tones : List UCHAR
  fanOn : ℕ
  deriving DecidableEq, Repr

/-- Before a tick, or before the part of it that is named. -/
inductive CallbackPoint where
  | idle
  | engineTemp | indoorTemp | alarm | tempTooHigh | fanOn | fanOff
  deriving DecidableEq, Repr

/-- What the tasks share, the queue to the FPGA, and where `Callback01` is. The ticks that it
is through with are kept. -/
structure Callback01 where
  stm32 : Stm32
  sendFPGA : List UCHAR
  point : CallbackPoint
  tick : TempTick
  ticks : List TempTick

inductive CallbackEvent where
  /-- The timer expires; the DS1620 is going to read this. -/
  | timer (rawData : BitVec 9)
  /-- `Callback01` goes on with its next part. -/
  | callback01
  | startRecv7200 (frame : SendSerial)
  | startDefaultTask (key : KeyType)
  | startRecvFPGA
  | startTask7200
  /-- Another task sends a command to the FPGA. -/
  | otherTask (cmd : UCHAR)
  | startSendFPGA

namespace Callback01

/-- Before the first tick. -/
def start (stm32 : Stm32) : Callback01 where
  stm32 := stm32
  sendFPGA := []
  point := .idle
  tick := ⟨0, 0, [], [], 0⟩
  ticks := []

/-- `xQueueSend(SendFPGAHandle, .., 0)`: the queue holds ten, and does not wait. -/
def xQueueSend (cmd : UCHAR) (s : Callback01) : Callback01 :=
  if s.sendFPGA.length < 10 then { s with sendFPGA := s.sendFPGA ++ [cmd] } else s

/-- A tone of `Callback01`, if the queue takes it. -/
def sendTone (cmd : UCHAR) (s : Callback01) : Callback01 :=
  let t := s.xQueueSend cmd
  { t with
    tick := { t.tick with tones := t.tick.tones ++ t.sendFPGA.drop s.sendFPGA.length } }

/-- A part of `Callback01`, and what the queue to the TS-7200 takes of its messages. -/
def part (f : Stm32 → Stm32) (s : Callback01) : Callback01 :=
  { s with
    stm32 := f s.stm32
    tick := { s.tick with
      sent := s.tick.sent ++ (f s.stm32).send7200.drop s.stm32.send7200.length } }

/-- The engine temperature as it is compared. -/
def rawData (s : Callback01) : ℤ := Stm32.freezing s.tick.rawData.toNat

def timer (rawData : BitVec 9) (s : Callback01) : Callback01 :=
  if s.point = .idle ∧ s.stm32.serverUp = 1 then
    { s with point := .engineTemp, tick := ⟨rawData, 0, [], [], 0⟩ }
  else s

/-- The alarm, up to the delay between its two messages. -/
def alarm (s : Callback01) : Callback01 :=
  if s.stm32.tooHighFlag = 0 ∧ s.rawData > s.stm32.engineTempLimit.toNat then
    { s.sendTone specialToneOn with point := .tempTooHigh }
  else if s.stm32.tooHighFlag = 1 then
    { s.sendTone dtmfToneOff with stm32.tooHighFlag := 0, point := .fanOn }
  else { s with point := .fanOn }

def callback01 (s : Callback01) : Callback01 :=
  match s.point with
  | .idle => s
  | .engineTemp =>
      { s.part (Stm32.xQueueSend CmdType.engineTemp.toByte) with point := .indoorTemp }
  | .indoorTemp => { s.part (Stm32.xQueueSend CmdType.indoorTemp.toByte) with point := .alarm }
  | .alarm => s.alarm
  | .tempTooHigh =>
      { s.part fun stm32 =>
          { stm32.xQueueSend CmdType.tempTooHigh.toByte with tooHighFlag := 1 } with
        point := .fanOn }
  | .fanOn =>
      { s.part (Stm32.switchFanOn s.rawData) with
        point := .fanOff, tick.engineOn := s.stm32.engineOn }
  | .fanOff =>
      let t := s.part (Stm32.switchFanOff s.rawData)
      { t with point := .idle, ticks := t.ticks ++ [{ t.tick with fanOn := t.stm32.fanOn }] }

def step (s : Callback01) : CallbackEvent → Callback01
  | .timer rawData => s.timer rawData
  | .callback01 => s.callback01
  | .startRecv7200 frame => { s with stm32 := s.stm32.startRecv7200 frame }
  | .startDefaultTask key => { s with stm32 := s.stm32.startDefaultTask key }
  | .startRecvFPGA => { s with stm32 := s.stm32.startRecvFPGA }
  | .startTask7200 => { s with stm32 := s.stm32.startTask7200.1 }
  | .otherTask cmd => s.xQueueSend cmd
  | .startSendFPGA => { s with sendFPGA := s.sendFPGA.tail }

/-! ## A tick that no other task comes into -/

@[simp] theorem stm32_sendTone (cmd : UCHAR) (s : Callback01) :
    (s.sendTone cmd).stm32 = s.stm32 := by
  rw [sendTone, xQueueSend]
  split_ifs <;> rfl

@[simp] theorem tick_rawData_sendTone (cmd : UCHAR) (s : Callback01) :
    (s.sendTone cmd).tick.rawData = s.tick.rawData := by
  rw [sendTone, xQueueSend]
  split_ifs <;> rfl

theorem callback01_idle {s : Callback01} (h : s.point = .idle) (n : ℕ) :
    callback01^[n] s = s := by
  have hsame : s.callback01 = s := by simp only [callback01, h]
  exact Function.iterate_fixed hsame n

/-- From the test of the fan on. -/
theorem stm32_callback01_fanOn {s : Callback01} (h : s.point = .fanOn) (n : ℕ) :
    (callback01^[n + 2] s).stm32 =
      (s.stm32.switchFanOn s.rawData).switchFanOff s.rawData := by
  have hidle : s.callback01.callback01.point = .idle := by simp only [callback01, h, part]
  rw [Function.iterate_add_apply]
  change (callback01^[n] s.callback01.callback01).stm32 = _
  rw [callback01_idle hidle n]
  simp only [callback01, h, part, rawData]

/-- From the alarm on, which takes one part or two. -/
theorem stm32_callback01_alarm {s : Callback01} (h : s.point = .alarm) :
    (callback01^[4] s).stm32 =
      ((s.stm32.alarm s.rawData).switchFanOn s.rawData).switchFanOff s.rawData := by
  change (callback01^[3] s.callback01).stm32 = _
  have hfirst : s.callback01 = s.alarm := by simp only [callback01, h]
  rw [hfirst, alarm, Stm32.alarm]
  split_ifs with hon hoff
  · refine (stm32_callback01_fanOn (by simp only [callback01, part]) 0).trans ?_
    simp only [callback01, part, rawData, stm32_sendTone, tick_rawData_sendTone]
  · refine (stm32_callback01_fanOn (by simp only) 1).trans ?_
    simp only [rawData, stm32_sendTone, tick_rawData_sendTone]
  · exact stm32_callback01_fanOn (by simp only) 1

theorem exec_callback01 (s : Callback01) (n : ℕ) :
    Transition.exec step s (.replicate n .callback01) = callback01^[n] s :=
  Transition.exec_replicate s n CallbackEvent.callback01

/-- Between two ticks, a tick in one go. -/
theorem stm32_exec_tick (s : Callback01) (hidle : s.point = .idle) (rawData : BitVec 9) :
    (Transition.exec step s (.timer rawData :: .replicate 6 .callback01)).stm32 =
      s.stm32.callback01 rawData.toNat := by
  rw [Transition.exec_cons, exec_callback01, Stm32.callback01]
  change (callback01^[6] (s.timer rawData)).stm32 = _
  rw [timer]
  by_cases hup : s.stm32.serverUp = 1
  · rw [if_pos ⟨hidle, hup⟩, if_pos hup]
    refine (stm32_callback01_alarm ?_).trans ?_
    · simp only [callback01, part]
    · simp only [callback01, part, Callback01.rawData]
  · rw [if_neg fun h => hup h.2, if_neg hup, callback01_idle hidle]

end Callback01

end TruckControl
