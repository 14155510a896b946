import TruckControl.Model.IoState

/-! # The once-a-second timer task -/

namespace TruckControl

open InputType OutputType

/-- `if(++seconds > 59)` and its carries. -/
def tickClock (hours minutes seconds : UCHAR) : UCHAR × UCHAR × UCHAR :=
  if seconds + 1#8 > 59#8 then
    if minutes + 1#8 > 59#8 then (hours + 1#8, 0#8, 0#8) else (hours, minutes + 1#8, 0#8)
  else (hours, minutes, seconds + 1#8)

namespace IoState

/-- The engine's clock while it runs, the lights-off countdown while it does not. -/
def timerEngine (s : IoState) : IoState :=
  if s.engineRunning = 1 then
    let clock := tickClock s.runningHours s.runningMinutes s.runningSeconds
    let s := { s with
      runningHours := clock.1, runningMinutes := clock.2.1, runningSeconds := clock.2.2 }
    if s.runningMinutes = 0#8 ∧ s.runningSeconds = 15#8 then
      (s.addMsgQueue CmdType.onLights.toByte).addMsgQueue CmdType.onRunningLights.toByte
    else s
  else
    let s := { s with runningHours := 0#8, runningMinutes := 0#8, runningSeconds := 0#8 }
    if s.lightsOnCountdown > 0 then
      let s := { s with lightsOnCountdown := s.lightsOnCountdown - 1 }
      if s.lightsOnCountdown = 0 then
        ((((s.addMsgQueue CmdType.offLlights.toByte).addMsgQueue
          CmdType.offRlights.toByte).addMsgQueue CmdType.offLights.toByte).addMsgQueue
          CmdType.offRunningLights.toByte).addMsgQueue CmdType.offFan.toByte
      else s
    else s

def timerUptime (s : IoState) : IoState :=
  let clock := tickClock s.trunningHours s.trunningMinutes s.trunningSeconds
  { s with
    trunningHours := clock.1, trunningMinutes := clock.2.1, trunningSeconds := clock.2.2 }

/-- `TEST_LEFT_BLINKER` asked for the input; the next tick takes the request back. -/
def timerLblinkers (s : IoState) : IoState :=
  if s.testLblinkers > 0 then
    let s := if s.testLblinkers = 1 then { s with testLblinkers := s.testLblinkers + 1 } else s
    if s.testLblinkers = 2 then { s with testLblinkers := 0 }.changeInput leftblinkerInput false
    else s
  else s

def timerRblinkers (s : IoState) : IoState :=
  if s.testRblinkers > 0 then
    let s := if s.testRblinkers = 1 then { s with testRblinkers := s.testRblinkers + 1 } else s
    if s.testRblinkers = 2 then { s with testRblinkers := 0 }.changeInput rightblinkerInput false
    else s
  else s

/-- The body of the scan for one port. The record was freed by `ollist_insert_data`
when its port is read for the shadow bits; the read finds the old value there. -/
def timerPort (s : IoState) (i : ℕ) : IoState :=
  let otp := s.datap i
  if (otp.type = 2#8 ∨ otp.type = 3#8) ∧ otp.reset = 1#8 then
    let s := if otp.type = 3#8 then
        s.changeOutput otp.port.toNat ((otp.timeDelay - otp.timeLeft) % 2#32 ≠ 0#32)
      else s
    let otp := { otp with timeLeft := otp.timeLeft - 1#32 }
    let s := s.write i otp
    if otp.timeLeft = 0#32 then
      -- the toggle of an even delay is overwritten right below
      let otp := if otp.type = 3#8 ∧ otp.timeDelay % 2#32 = 0#32 then
          { otp with onoff := if otp.onoff = 1#8 then 0#8 else 1#8 }
        else otp
      let s := s.changeOutput i false
      let otp := { otp with onoff := 0#8, reset := 0#8 }
      let s := (s.write i otp).insertData otp.port.toNat i
      { s with
        fakeInportstatus1 := s.fakeInportstatus1.assign otp.port.toNat false
        fakeInportstatus2 := s.fakeInportstatus2.assign otp.port.toNat false }
    else s
  else s

/-- The scan for time-delay and blink outputs, from `STARTER` up to `TESTOUTPUT27`. -/
def timerScan (s : IoState) : IoState :=
  (List.range testoutput27).foldl timerPort s

/-- One second of `timer_task`. -/
def timerTask (s : IoState) : IoState :=
  timerScan (timerRblinkers (timerLblinkers (timerUptime (timerEngine s))))

end IoState

end TruckControl
