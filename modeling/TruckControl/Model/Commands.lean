import Mathlib.Data.Nat.Notation

/-! # The shared command, key, input and output numbers -/

namespace TruckControl

abbrev UCHAR := BitVec 8

abbrev UINT := BitVec 32

/-- The command bytes that the client, the TS-7200 and the STM32 exchange, in the
order of `cmd_types`, which fixes their values. -/
inductive CmdType where
  | nonCmd | enableStart | starterOff | onAcc | offAcc | onFuelPump | offFuelPump | onFan
  | offFan | onLights | offLights | onBrights | offBrights | blank | estopSignal | onBrakes
  | offBrakes | onRunningLights | offRunningLights | specialCmd | startSeq | shutdown
  | onLlights | offLlights | onLbrights | offLbrights | onRlights | offRlights | onRbrights
  | offRbrights | wiper1 | wiper2 | wiperOff | shutdownIobox | rebootIobox | setTime
  | getTime | testLeftBlinker | testRightBlinker | disconnect | badMsg | currentTime
  | setParams | exitProgram | engineTemp | indoorTemp | sendRtValues1 | sendRtValues2
  | sendRtValues3 | engineRuntime | serverUptime | sendConfig | sendMsg | sendRpm | sendMph
  | sendAdcs1 | sendAdcs2 | navUp | navDown | navSide | navClick | navClose | sendStatus
  | serverUp | serverDown | uploadNew | uploadOther | uploadNewParam | setTempLimit
  | setFanOn | setFanOff | highRevLimit | lowRevLimit | lightsOnDelay | setBlowerEnTemp
  | setBlower1Temp | setBlower2Temp | setBlower3Temp | setBattBoxTemp | tempTooHigh
  | getVersion | updateConfig | sendConfig2 | getConfig2 | clientConnected
  | serverConnected | setKeymode | shellAndRename | refreshLcd | sendGpsGllData
  | sendGpsGgaData | sendGpsGsaData | sendGpsGsvData | sendGpsRmcData | sendGpsVtgData
  | sendGpsZdaData | setGpsData | setGpsBaudrate | enableGpsSendData | enableAdcSendData
  | adcGate | setAdcRate | setRpmMphRate | setFpgaRate | sendRtFpgaStatus
  | sendRevLimitOverride | sendFpOverride
  deriving DecidableEq, Repr

namespace CmdType

/-- The byte a command travels as. -/
def toByte (cmd : CmdType) : UCHAR := BitVec.ofNat 8 cmd.ctorIdx

/-- The command a byte stands for; bytes past the end of the enumeration match no
`case` label. -/
def ofByte (b : UCHAR) : Option CmdType :=
  if b.toNat < 107 then some (CmdType.ofNat b.toNat) else none

theorem ctorIdx_lt (cmd : CmdType) : cmd.ctorIdx < 107 := by
  cases cmd <;> decide

theorem toNat_toByte (cmd : CmdType) : cmd.toByte.toNat = cmd.ctorIdx := by
  have h := ctorIdx_lt cmd
  simp [toByte]
  omega

@[simp] theorem ofByte_toByte (cmd : CmdType) : ofByte cmd.toByte = some cmd := by
  simp [ofByte, toNat_toByte, ctorIdx_lt, CmdType.ofNat_ctorIdx]

theorem eq_toByte_of_ofByte {b : UCHAR} {cmd : CmdType} (h : ofByte b = some cmd) :
    b = cmd.toByte := by
  have hall : ∀ b : UCHAR, ∀ cmd ∈ ofByte b, b = cmd.toByte := by decide +kernel
  exact hall b cmd h

theorem toByte_injective : Function.Injective toByte := by
  intro a b h
  have := congrArg ofByte h
  simpa using this

end CmdType

/-- The key codes of the keypad, from `KP_1 = 0xE0` on. -/
inductive KeyType where
  | kp1 | kp2 | kp3 | kp4 | kp5 | kp6 | kp7 | kp8 | kp9
  | kpA | kpB | kpC | kpD | kpPound | kpAst | kp0
  deriving DecidableEq, Repr

/-- The byte a key is reported as. -/
def KeyType.toByte (key : KeyType) : UCHAR := BitVec.ofNat 8 (0xE0 + key.ctorIdx)

/-! ## Inputs -/

namespace InputType

abbrev headlampInput : ℕ := 0
abbrev runningLightsInput : ℕ := 1
abbrev leftblinkerInput : ℕ := 2
abbrev rightblinkerInput : ℕ := 3
abbrev brightsInput : ℕ := 4
abbrev starterInput : ℕ := 5
abbrev coolingfanInput : ℕ := 6
abbrev estopInput : ℕ := 7
abbrev brakeInput : ℕ := 8

end InputType

/-! ## Outputs

Only the outputs that the commands and the timer name; the others are plain port
numbers. -/

namespace OutputType

abbrev starter : ℕ := 0
abbrev accon : ℕ := 1
abbrev fuelpump : ℕ := 2
abbrev coolingfan : ℕ := 3
abbrev lheadlamp : ℕ := 4
abbrev rheadlamp : ℕ := 5
abbrev runninglights : ℕ := 6
abbrev lbrights : ℕ := 16
abbrev rbrights : ℕ := 17
abbrev wwiper1 : ℕ := 21
abbrev wwiper2 : ℕ := 22
abbrev testoutput27 : ℕ := 30

end OutputType

end TruckControl
