import TruckControl.Verification.OwnCommands

/-!
# What switching leaves alone

Records, relays, input levels and the control queue are what switching is about. The rest
of the state, the clocks and countdowns among it, is written by three commands and by the
tick only.
-/

namespace TruckControl

open OutputType

namespace IoState

/-- The state without the records, the relays, the input levels and the queue. -/
def side (s : IoState) : IoState :=
  { s with
    oll := ollistInit
    outportstatus := fun _ => 0
    cardPorts := fun _ => 0
    inportstatus := fun _ => 0
    fakeInportstatus1 := fun _ => 0
    fakeInportstatus2 := fun _ => 0
    msgQueue := .init }

@[simp] theorem side_write (s : IoState) (i : ℕ) (d : OData) : (s.write i d).side = s.side := rfl

@[simp] theorem side_insertData (s : IoState) (i otp : ℕ) :
    (s.insertData i otp).side = s.side := rfl

@[simp] theorem side_addMsgQueue (s : IoState) (cmd : UCHAR) :
    (s.addMsgQueue cmd).side = s.side := rfl

@[simp] theorem side_changeInput (s : IoState) (index : ℕ) (onoff : Bool) :
    (s.changeInput index onoff).side = s.side := rfl

@[simp] theorem side_changeOutput (s : IoState) (i : ℕ) (onoff : Bool) :
    (s.changeOutput i onoff).side = s.side := by
  rw [changeOutput]
  split <;> rfl

@[simp] theorem side_setOutput (s : IoState) (otp : ℕ) (onoff : Bool) :
    (s.setOutput otp onoff).side = s.side := by
  simp only [setOutput]
  split_ifs <;> simp

/-! ## The polls -/

theorem side_dispatch (s : IoState) (index : ℕ) (onoff : Bool) :
    (s.dispatch index onoff).side = s.side := by
  apply foldl_keeps side
  intro s row
  split_ifs
  · exact side_setOutput s row.port onoff
  · rfl

theorem side_monitorInputTask (s : IoState) (bank : ℕ) (result : UCHAR) :
    (s.monitorInputTask bank result).side = s.side := by
  rw [monitorInputTask]
  cases decodeChange bank result (s.inportstatus bank) with
  | none => rfl
  | some edge => exact side_dispatch s edge.1 edge.2

theorem side_monitorFakeInputTask (s : IoState) (bank : ℕ) :
    (s.monitorFakeInputTask bank).side = s.side := by
  simp only [monitorFakeInputTask]
  cases decodeChange bank (s.fakeInportstatus2 bank) (s.fakeInportstatus1 bank) with
  | none => rfl
  | some edge => exact side_dispatch _ edge.1 edge.2

/-! ## Commands -/

/-- What a block does beside switching. -/
def blockSide : Block → IoState → IoState
  | .testLeftBlinker, s => { s with testLblinkers := 1 }
  | .testRightBlinker, s => { s with testRblinkers := 1 }
  | .startSeqEnable, s => { s with engineRunning := 1 }
  | .shutdownAcc, s =>
      { s with
        runningHours := 0#8, runningMinutes := 0#8, runningSeconds := 0#8, engineRunning := 0 }
  | .shutdownFuelPump, s => { s with lightsOnCountdown := s.actualLightsOnDelay }
  | _, s => s

theorem side_execBlock (s : IoState) (block : Block) :
    (s.execBlock block).side = (blockSide block s).side := by
  have hdelay : (s.stopOutput fuelpump).side = s.side := by
    simp [stopOutput]
  cases block with
  | requestInput index onoff outputs =>
      have hmark (s : IoState) (output : ℕ) : (s.markOutput onoff output).side = s.side := rfl
      exact foldl_keeps side hmark outputs (s.changeInput index onoff)
  | setOutput index onoff => exact side_setOutput s index onoff
  | acc onoff =>
      simp only [execBlock, execAcc]
      split_ifs <;> simp [blockSide]
  | fuelPump onoff =>
      simp only [execBlock, execFuelPump]
      split_ifs <;> simp [blockSide]
  | changeInput index onoff => rfl
  | testLeftBlinker => rfl
  | testRightBlinker => rfl
  | startSeqEnable => rfl
  | startSeqPower => simp [execBlock, startOutput, blockSide]
  | shutdownAcc => simp [execBlock, stopOutput, blockSide]
  | shutdownFuelPump =>
      have hside : (s.execBlock .shutdownFuelPump).side =
          { (s.stopOutput fuelpump).side with
            lightsOnCountdown := (s.stopOutput fuelpump).side.actualLightsOnDelay } := rfl
      rw [hside, hdelay]
      rfl

/-! ## The tick -/

theorem side_timerPort (s : IoState) (i : ℕ) : (s.timerPort i).side = s.side := by
  simp only [timerPort]
  split_ifs
  any_goals (simp; done)
  -- an output that is done also has its shadow bits cleared
  all_goals
    generalize hdone : insertData _ _ _ = t
    have ht : t.side = s.side := by rw [← hdone]; simp
    exact ht

theorem side_timerScan (s : IoState) : s.timerScan.side = s.side :=
  foldl_keeps side side_timerPort _ s

end IoState

end TruckControl
