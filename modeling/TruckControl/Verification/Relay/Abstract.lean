import TruckControl.Model.BasicControls

/-!
# One output as a machine of its own

An output record together with its relay. What the controller does to an output
depends on nothing but these two, so forty such machines, each taking the actions
meant for it, are what the controller is for.
-/

namespace TruckControl

/-- The half of a record that no task changes. -/
def OData.setup (d : OData) : OData := { d with onoff := 0#8, timeLeft := 0#32, reset := 0#8 }

structure Relay where
  datap : OData
  hw : Bool
  deriving DecidableEq, Repr

namespace Relay

/-! ## The actions -/

/-- An edge of the driving input, or a direct command. -/
def setOutput (onoff : Bool) (r : Relay) : Relay :=
  if r.datap.type = 0#8 then
    let on := if r.datap.polarity = 1#8 then !onoff else onoff
    ⟨{ r.datap with onoff := IoState.level on }, on⟩
  else if r.datap.type = 1#8 then
    if r.datap.reset = 0#8 then
      let on : Bool := r.datap.onoff ≠ 1#8
      ⟨{ r.datap with reset := 1#8, onoff := IoState.level on }, on⟩
    else if r.datap.reset = 1#8 then ⟨{ r.datap with reset := 0#8 }, r.hw⟩
    else r
  else if r.datap.type = 2#8 ∨ r.datap.type = 3#8 then
    if r.datap.reset = 0#8 then
      ⟨{ r.datap with reset := 1#8, timeLeft := r.datap.timeDelay, onoff := 1#8 }, true⟩
    else r
  else if r.datap.type = 4#8 then
    if r.datap.reset = 0#8 then ⟨{ r.datap with reset := 1#8, onoff := 0#8 }, false⟩
    else if r.datap.reset = 1#8 then ⟨{ r.datap with reset := 3#8 }, r.hw⟩
    else r
  else r

/-- The countdown is running: a time-delay or blink output that was triggered. -/
def Counting (r : Relay) : Prop :=
  (r.datap.type = 2#8 ∨ r.datap.type = 3#8) ∧ r.datap.reset = 1#8

instance (r : Relay) : Decidable r.Counting := inferInstanceAs (Decidable (_ ∧ _))

/-- The next scan ends the countdown. -/
def Expires (r : Relay) : Prop := r.Counting ∧ r.datap.timeLeft = 1#32

instance (r : Relay) : Decidable r.Expires := inferInstanceAs (Decidable (_ ∧ _))

/-- A scan of the timer. -/
def timerPort (r : Relay) : Relay :=
  if r.Counting then
    if r.datap.timeLeft = 1#32 then
      ⟨{ r.datap with timeLeft := 0#32, onoff := 0#8, reset := 0#8 }, false⟩
    else
      ⟨{ r.datap with timeLeft := r.datap.timeLeft - 1#32 },
        if r.datap.type = 3#8 then
          decide ((r.datap.timeDelay - r.datap.timeLeft) % 2#32 ≠ 0#32)
        else r.hw⟩
  else r

/-- What the tasks can do to an output. -/
inductive Action where
  | keep
  | set (onoff : Bool)
  | scan
  /-- Write the record but not the relay. -/
  | mark (onoff : Bool)
  /-- Write the relay but not the record, unless the emergency stop holds it. -/
  | drive (onoff : Bool)
  /-- Write both, unless the emergency stop holds the relay. -/
  | switch (onoff : Bool)
  /-- Switch on and release the emergency stop. -/
  | start
  /-- Switch off. -/
  | stop
  deriving DecidableEq, Repr

def act (r : Relay) : Action → Relay
  | .keep => r
  | .set onoff => r.setOutput onoff
  | .scan => r.timerPort
  | .mark onoff => ⟨{ r.datap with onoff := IoState.level onoff }, r.hw⟩
  | .drive onoff => if r.datap.reset = 0#8 then ⟨r.datap, onoff⟩ else r
  | .switch onoff =>
      if r.datap.reset = 0#8 then ⟨{ r.datap with onoff := IoState.level onoff }, onoff⟩ else r
  | .start => ⟨{ r.datap with onoff := 1#8, reset := 0#8 }, true⟩
  | .stop => ⟨{ r.datap with onoff := 0#8 }, false⟩

/-! ## What an action leaves alone -/

theorem setup_eq_of_eq {d e : OData} (h : d.setup = e.setup) :
    d.port = e.port ∧ d.inputPort = e.inputPort ∧ d.polarity = e.polarity ∧
      d.type = e.type ∧ d.timeDelay = e.timeDelay := by
  simp only [OData.setup, OData.mk.injEq] at h
  tauto

@[simp] theorem setup_setOutput (onoff : Bool) (r : Relay) :
    (r.setOutput onoff).datap.setup = r.datap.setup := by
  unfold setOutput
  split_ifs <;> rfl

@[simp] theorem setup_timerPort (r : Relay) : r.timerPort.datap.setup = r.datap.setup := by
  unfold timerPort
  split_ifs <;> rfl

@[simp] theorem setup_act (r : Relay) (a : Action) : (r.act a).datap.setup = r.datap.setup := by
  cases a with
  | keep => rfl
  | set onoff => exact setup_setOutput onoff r
  | scan => exact setup_timerPort r
  | mark onoff => rfl
  | drive onoff => unfold act; split_ifs <;> rfl
  | switch onoff => unfold act; split_ifs <;> rfl
  | start => rfl
  | stop => rfl

end Relay

end TruckControl
