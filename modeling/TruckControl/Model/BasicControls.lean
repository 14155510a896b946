import TruckControl.Model.IoState

/-! # The commands that `basic_controls_task` executes -/

namespace TruckControl

open InputType OutputType

/-- The stretches of a command between two of its sleeps. A stretch is one step of the model:
other tasks run while `basic_controls_task` sleeps. -/
inductive Block where
  | changeInput (index : ℕ) (onoff : Bool)
  | acc (onoff : Bool)
  | fuelPump (onoff : Bool)
  /-- Ask for an input, and note the level in the records of its outputs. -/
  | requestInput (index : ℕ) (onoff : Bool) (outputs : List ℕ)
  | setOutput (index : ℕ) (onoff : Bool)
  | testLeftBlinker
  | testRightBlinker
  | startSeqPower
  | startSeqEnable
  | shutdownAcc
  | shutdownFuelPump
  deriving DecidableEq, Repr

namespace IoState

/-- `ON_ACC` and `OFF_ACC`. The record is stored back as it is; only the relay moves,
and not while the emergency stop holds it. -/
def execAcc (onoff : Bool) (s : IoState) : IoState :=
  let s := s.insertData accon accon
  if (s.datap accon).reset = 0#8 then s.changeOutput accon onoff else s

/-- `ON_FUEL_PUMP` and `OFF_FUEL_PUMP`. -/
def execFuelPump (onoff : Bool) (s : IoState) : IoState :=
  if (s.datap fuelpump).reset = 0#8 then
    ((s.changeOutput fuelpump onoff).write fuelpump
      { s.datap fuelpump with onoff := level onoff }).insertData fuelpump fuelpump
  else if onoff then s.insertData fuelpump fuelpump
  else s

/-- `otp->onoff = onoff` in the record of one output, which is stored back. -/
def markOutput (onoff : Bool) (index : ℕ) (s : IoState) : IoState :=
  (s.write index { s.datap index with onoff := level onoff }).insertData index index

/-- One relay of `START_SEQ`: power on, and the emergency stop released. -/
def startOutput (index : ℕ) (s : IoState) : IoState :=
  let d := { s.datap index with onoff := 1#8, reset := 0#8 }
  ((s.write index d).changeOutput index true).insertData d.port.toNat index

/-- One relay of `SHUTDOWN`. -/
def stopOutput (index : ℕ) (s : IoState) : IoState :=
  let s := s.changeOutput index false
  let d := { s.datap index with onoff := 0#8 }
  (s.write index d).insertData d.port.toNat index

def execBlock : Block → IoState → IoState
  | .changeInput index onoff, s => s.changeInput index onoff
  | .acc onoff, s => s.execAcc onoff
  | .fuelPump onoff, s => s.execFuelPump onoff
  | .requestInput index onoff outputs, s =>
      outputs.foldl (fun s output => s.markOutput onoff output) (s.changeInput index onoff)
  | .setOutput index onoff, s => s.setOutput index onoff
  | .testLeftBlinker, s => { s.changeInput leftblinkerInput true with testLblinkers := 1 }
  | .testRightBlinker, s => { s.changeInput rightblinkerInput true with testRblinkers := 1 }
  | .startSeqPower, s => (s.startOutput accon).startOutput fuelpump
  | .startSeqEnable, s => { s.changeInput starterInput true with engineRunning := 1 }
  | .shutdownAcc, s =>
      { s with
        runningHours := 0#8, runningMinutes := 0#8, runningSeconds := 0#8,
        engineRunning := 0 }.stopOutput accon
  | .shutdownFuelPump, s =>
      let s := s.stopOutput fuelpump
      { s with lightsOnCountdown := s.actualLightsOnDelay }

end IoState

/-! ## The command table -/

/-- `sp_cmd_arr`. -/
def spCmdArr : List (ℕ × Bool) :=
  [(lheadlamp, true), (lbrights, true), (rheadlamp, true), (rbrights, true),
    (lbrights, false), (lheadlamp, false), (rbrights, false), (rheadlamp, false),
    (rheadlamp, true), (rbrights, true), (lheadlamp, true), (lbrights, true),
    (lbrights, false), (lheadlamp, false), (rbrights, false), (rheadlamp, false)]

/-- The `switch` of `basic_controls_task`. The commands that end the program touch no
output, and no command follows them; they execute nothing here. -/
def basicControls (cmd : UCHAR) : List Block :=
  match CmdType.ofByte cmd with
  | some .enableStart => [.changeInput starterInput true]
  | some .starterOff => [.changeInput starterInput false]
  | some .onAcc => [.acc true]
  | some .offAcc => [.acc false]
  | some .onFuelPump => [.fuelPump true]
  | some .offFuelPump => [.fuelPump false]
  | some .onFan => [.requestInput coolingfanInput true [coolingfan]]
  | some .offFan => [.requestInput coolingfanInput false [coolingfan]]
  | some .onLights => [.requestInput headlampInput true [lheadlamp, rheadlamp]]
  | some .offLights => [.requestInput headlampInput false [lheadlamp, rheadlamp]]
  | some .onLlights => [.setOutput lheadlamp true]
  | some .offLlights => [.setOutput lheadlamp false]
  | some .onRlights => [.setOutput rheadlamp true]
  | some .offRlights => [.setOutput rheadlamp false]
  | some .onRunningLights => [.requestInput runningLightsInput true [runninglights]]
  | some .offRunningLights => [.requestInput runningLightsInput false [runninglights]]
  | some .specialCmd => (spCmdArr ++ spCmdArr).map fun c => .setOutput c.1 c.2
  | some .onBrights => [.requestInput brightsInput true [lbrights, rbrights]]
  | some .offBrights => [.requestInput brightsInput false [lbrights, rbrights]]
  | some .onRbrights => [.setOutput rbrights true]
  | some .offRbrights => [.setOutput rbrights false]
  | some .onLbrights => [.setOutput lbrights true]
  | some .offLbrights => [.setOutput lbrights false]
  | some .testLeftBlinker => [.testLeftBlinker]
  | some .testRightBlinker => [.testRightBlinker]
  | some .onBrakes => [.changeInput brakeInput true]
  | some .offBrakes => [.changeInput brakeInput false]
  | some .wiper1 => [.setOutput wwiper1 true, .setOutput wwiper2 false]
  | some .wiper2 => [.setOutput wwiper1 true, .setOutput wwiper2 true]
  | some .wiperOff => [.setOutput wwiper1 false, .setOutput wwiper2 false]
  | some .startSeq => [.startSeqPower, .changeInput starterInput false, .startSeqEnable]
  | some .shutdown => [.shutdownAcc, .shutdownFuelPump]
  | _ => []

end TruckControl
