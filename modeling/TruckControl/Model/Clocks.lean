import TruckControl.Library.Decimal
import TruckControl.Model.Controller
import TruckControl.Model.SetTime

/-! # The two clocks that the timer task sends -/

namespace TruckControl

/-- `sprintf(tempx,"%dh %dm %ds ",hours, minutes, seconds)`. -/
def clockText (hours minutes seconds : ℕ) : List UCHAR :=
  Decimal.decimal 8 hours ++ ascii 'h' :: ascii ' ' :: (Decimal.decimal 8 minutes ++
    ascii 'm' :: ascii ' ' :: (Decimal.decimal 8 seconds ++ [ascii 's', ascii ' ']))

/-- The text for three counters of one byte. -/
def countersText (clock : UCHAR × UCHAR × UCHAR) : List UCHAR :=
  clockText clock.1.toNat clock.2.1.toNat clock.2.2.toNat

/-- The hours, minutes and seconds of a number of seconds as a text. -/
def durationText (n : ℕ) : List UCHAR := clockText (n / 3600) (n / 60 % 60) (n % 60)

namespace IoState

/-- `running_hours`, `running_minutes`, `running_seconds`. -/
def running (s : IoState) : UCHAR × UCHAR × UCHAR :=
  (s.runningHours, s.runningMinutes, s.runningSeconds)

/-- `trunning_hours`, `trunning_minutes`, `trunning_seconds`. -/
def trunning (s : IoState) : UCHAR × UCHAR × UCHAR :=
  (s.trunningHours, s.trunningMinutes, s.trunningSeconds)

/-- What a tick sends as `ENGINE_RUNTIME`: nothing while the engine is off. -/
def engineRuntime (s : IoState) : Option (List UCHAR) :=
  if s.engineRunning = 1 then some (countersText s.timerEngine.running) else none

/-- What a tick sends as `SERVER_UPTIME`. -/
def serverUptime (s : IoState) : List UCHAR :=
  countersText s.timerEngine.timerUptime.trunning

end IoState

/-! ## The ticks, counted -/

/-- The server, and how many ticks there have been: all, those in a row up to the last that
found the engine running, and those since the engine was last off. -/
structure Timed where
  server : Controller
  ticks : ℕ
  inRow : ℕ
  period : ℕ

namespace Timed

def step (t : Timed) (e : Event) : Timed where
  server := t.server.step e
  ticks := if e = .timerTask then t.ticks + 1 else t.ticks
  inRow :=
    if e = .timerTask then if t.server.io.engineRunning = 1 then t.inRow + 1 else 0 else t.inRow
  period :=
    if (t.server.step e).io.engineRunning = 1 then
      if e = .timerTask then t.period + 1 else t.period
    else 0

def boot (db : Database) (inports : Banks) (lightsOnDelay : ℕ) : Timed :=
  ⟨.boot db inports lightsOnDelay, 0, 0, 0⟩

/-- The server after any history. -/
def Reachable (db : Database) : Timed → Prop :=
  Transition.Reachable step fun t => ∃ inports lightsOnDelay, t = boot db inports lightsOnDelay

end Timed

end TruckControl
