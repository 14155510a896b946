import TruckControl.Model.Client
import TruckControl.Model.SerialLine
import TruckControl.Model.Stm32

/-! # The parameters of the client, of the TS-7200 and of the STM32 -/

namespace TruckControl

/-- `PARAM_STRUCT`. -/
structure Params where
  rpmMphUpdateRate : UINT
  fpgaXmitRate : UINT
  highRevLimit : UINT
  lowRevLimit : UINT
  coolingFanOn : UINT
  coolingFanOff : UINT
  blowerEnabled : UINT
  blower1On : UINT
  blower2On : UINT
  blower3On : UINT
  lightsOnDelay : UINT
  engineTempLimit : UINT
  battBoxTemp : UINT
  testBank : UINT
  passwordTimeout : UINT
  passwordRetries : UINT
  baudrate3 : UINT
  deriving DecidableEq, Repr

/-- The parameters that the STM32 has a copy of. -/
inductive Setting where
  | engineTempLimit | coolingFanOn | coolingFanOff | blower1On | blower2On | blower3On
  | blowerEnabled
  deriving DecidableEq, Repr

namespace Params

def get (ps : Params) : Setting → UINT
  | .engineTempLimit => ps.engineTempLimit
  | .coolingFanOn => ps.coolingFanOn
  | .coolingFanOff => ps.coolingFanOff
  | .blower1On => ps.blower1On
  | .blower2On => ps.blower2On
  | .blower3On => ps.blower3On
  | .blowerEnabled => ps.blowerEnabled

def put (ps : Params) (v : UINT) : Setting → Params
  | .engineTempLimit => { ps with engineTempLimit := v }
  | .coolingFanOn => { ps with coolingFanOn := v }
  | .coolingFanOff => { ps with coolingFanOff := v }
  | .blower1On => { ps with blower1On := v }
  | .blower2On => { ps with blower2On := v }
  | .blower3On => { ps with blower3On := v }
  | .blowerEnabled => { ps with blowerEnabled := v }

theorem get_put (ps : Params) (v : UINT) (k j : Setting) :
    (ps.put v k).get j = if j = k then v else ps.get j := by
  cases k <;> cases j <;> rfl

end Params

/-! ## The client -/

/-- What `StopMbox` sends of the client's `ConfigParams`; those of a combo box are the
selected index. -/
structure ConfigParams where
  siRpmMphUpdateRate : UINT
  siFPGAXmitRate : UINT
  siHighRevLimit : UINT
  siLowRevLimit : UINT
  fanOn : UINT
  fanOff : UINT
  blowerEnabled : UINT
  blower1On : UINT
  blower2On : UINT
  blower3On : UINT
  siLightsOnDelay : UINT
  engineTempLimit : UINT
  batteryBoxTemp : UINT
  siTestBank : UINT
  siPasswordTimeout : UINT
  siPasswordRetries : UINT
  siBaudrate3 : UINT

namespace ConfigParams

/-- In the order in which `StopMbox` copies them. -/
def fields (c : ConfigParams) : List UINT :=
  [c.siRpmMphUpdateRate, c.siFPGAXmitRate, c.siHighRevLimit, c.siLowRevLimit, c.fanOn, c.fanOff,
    c.blowerEnabled, c.blower1On, c.blower2On, c.blower3On, c.siLightsOnDelay, c.engineTempLimit,
    c.batteryBoxTemp, c.siTestBank, c.siPasswordTimeout, c.siPasswordRetries, c.siBaudrate3]

/-- The same values under the server's names. -/
def toParams (c : ConfigParams) : Params where
  rpmMphUpdateRate := c.siRpmMphUpdateRate
  fpgaXmitRate := c.siFPGAXmitRate
  highRevLimit := c.siHighRevLimit
  lowRevLimit := c.siLowRevLimit
  coolingFanOn := c.fanOn
  coolingFanOff := c.fanOff
  blowerEnabled := c.blowerEnabled
  blower1On := c.blower1On
  blower2On := c.blower2On
  blower3On := c.blower3On
  lightsOnDelay := c.siLightsOnDelay
  engineTempLimit := c.engineTempLimit
  battBoxTemp := c.batteryBoxTemp
  testBank := c.siTestBank
  passwordTimeout := c.siPasswordTimeout
  passwordRetries := c.siPasswordRetries
  baudrate3 := c.siBaudrate3

end ConfigParams

/-- `BitConverter.GetBytes` of an integer. -/
def getBytes (v : UINT) : List UCHAR :=
  [v.setWidth 8, (v >>> 8).setWidth 8, (v >>> 16).setWidth 8, (v >>> 24).setWidth 8]

/-- `Buffer.BlockCopy(src, 0, bytes, offset, src.Count())`. -/
def blockCopy (src bytes : List UCHAR) (offset : ℕ) : List UCHAR :=
  bytes.take offset ++ src ++ bytes.drop (offset + src.length)

/-- The `UPDATE_CONFIG` packet: integers of four bytes, copied two bytes apart. -/
def ConfigParams.packet (c : ConfigParams) : List UCHAR :=
  let bytes := (List.replicate (17 * 4 + 2) 0#8).set 0 CmdType.updateConfig.toByte
  c.fields.zipIdx.foldl (fun bytes v => blockCopy (getBytes v.1) bytes (2 * v.2 + 2)) bytes

/-- `Send`: a packet behind the header of `ToPreamblePacket`. -/
def clientSend (packet : List UCHAR) : List UCHAR :=
  correctPreamble ++ getBytes (BitVec.ofNat 32 packet.length) ++ getBytes 0 ++ packet

/-! ## The server -/

/-- `utemp = (UINT)msg_buf[i + 1]; utemp <<= 8; utemp |= (UINT)msg_buf[i];` -/
def word (msgBuf : ℕ → UCHAR) (i : ℕ) : UINT :=
  (msgBuf (i + 1)).setWidth 32 <<< 8 ||| (msgBuf i).setWidth 32

def hiRev : List ℕ := [6000, 5800, 5600, 5400, 5200, 5000, 4800, 4600, 4200, 4000]

def loRev : List ℕ := [4500, 4400, 4300, 4200, 4100, 4000, 3900, 3800, 3700]

def lightsOnDelays : List ℕ := [1, 2, 3, 5, 10, 15, 30, 60, 120, 300, 600, 1800, 3600]

/-- The parameters and what `get_host_cmd_task` keeps beside them. A selection outside its
table reads other memory, here a zero. -/
structure HostConfig where
  ps : Params
  writeSerialBuffer : ℕ → UCHAR
  actualHighRevLimit : ℕ
  actualLowRevLimit : ℕ
  actualLightsOnDelay : ℕ

namespace HostConfig

/-- `write_serial_buffer`, as `UPDATE_CONFIG` fills it. -/
def configBuffer (msgBuf old : ℕ → UCHAR) : ℕ → UCHAR
  | 0 => (word msgBuf 2).setWidth 8
  | 1 => (word msgBuf 4).setWidth 8
  | 2 => (word msgBuf 6).setWidth 8
  | 3 => (word msgBuf 8).setWidth 8
  | 4 => msgBuf 10
  | 5 => msgBuf 11
  | 6 => msgBuf 12
  | 7 => msgBuf 13
  | 8 => msgBuf 14
  | 9 => msgBuf 15
  | 10 => msgBuf 16
  | 11 => msgBuf 17
  | 12 => msgBuf 18
  | 13 => msgBuf 19
  | 14 => msgBuf 20
  | 15 => msgBuf 21
  | 16 => msgBuf 24
  | 17 => msgBuf 25
  | 18 => msgBuf 26
  | 19 => msgBuf 27
  | i => old i

/-- `UPDATE_CONFIG`. -/
def updateConfig (msgBuf : ℕ → UCHAR) (h : HostConfig) : HostConfig × SendSerial :=
  let ps : Params :=
    { rpmMphUpdateRate := word msgBuf 2
      fpgaXmitRate := word msgBuf 4
      highRevLimit := word msgBuf 6
      lowRevLimit := word msgBuf 8
      coolingFanOn := word msgBuf 10
      coolingFanOff := word msgBuf 12
      blowerEnabled := word msgBuf 14
      blower1On := word msgBuf 16
      blower2On := word msgBuf 18
      blower3On := word msgBuf 20
      lightsOnDelay := word msgBuf 22
      engineTempLimit := word msgBuf 24
      battBoxTemp := word msgBuf 26
      testBank := word msgBuf 28
      passwordTimeout := word msgBuf 30
      passwordRetries := word msgBuf 32
      baudrate3 := word msgBuf 34 }
  let writeSerialBuffer := configBuffer msgBuf h.writeSerialBuffer
  ({ ps := ps
     writeSerialBuffer := writeSerialBuffer
     actualHighRevLimit := hiRev.getD ps.highRevLimit.toNat 0
     actualLowRevLimit := loRev.getD ps.lowRevLimit.toNat 0
     actualLightsOnDelay := lightsOnDelays.getD ps.lightsOnDelay.toNat 0 },
    ⟨CmdType.sendConfig2.toByte, writeSerialBuffer⟩)

/-- What the handlers of one parameter do with it. -/
def setParam (k : Setting) (msgBuf : ℕ → UCHAR) (h : HostConfig) : HostConfig :=
  { h with ps := h.ps.put (word msgBuf 2) k }

/-- `SET_TEMP_LIMIT` is sent on. -/
def setTempLimit (msgBuf : ℕ → UCHAR) (h : HostConfig) : HostConfig × SendSerial :=
  let writeSerialBuffer : ℕ → UCHAR
    | 0 => msgBuf 2
    | 1 => msgBuf 3
    | i => h.writeSerialBuffer i
  ({ setParam .engineTempLimit msgBuf h with writeSerialBuffer := writeSerialBuffer },
    ⟨CmdType.setTempLimit.toByte, writeSerialBuffer⟩)

def setFanOn := setParam .coolingFanOn
def setFanOff := setParam .coolingFanOff
def setBlower1Temp := setParam .blower1On
def setBlower2Temp := setParam .blower2On
def setBlower3Temp := setParam .blower3On
def setBlowerEnTemp := setParam .blowerEnabled

/-- The handler of a parameter, and the frames it sends. -/
def setMsg : Setting → (ℕ → UCHAR) → HostConfig → HostConfig × List SendSerial
  | .engineTempLimit, msgBuf, h => ((setTempLimit msgBuf h).1, [(setTempLimit msgBuf h).2])
  | .coolingFanOn, msgBuf, h => (setFanOn msgBuf h, [])
  | .coolingFanOff, msgBuf, h => (setFanOff msgBuf h, [])
  | .blower1On, msgBuf, h => (setBlower1Temp msgBuf h, [])
  | .blower2On, msgBuf, h => (setBlower2Temp msgBuf h, [])
  | .blower3On, msgBuf, h => (setBlower3Temp msgBuf h, [])
  | .blowerEnabled, msgBuf, h => (setBlowerEnTemp msgBuf h, [])

/-- The text that `get_host_cmd_task` has put in `tempx` when it comes to the `case` of
`SERVER_UP`: the number and the name of the command. -/
def serverUpText : List UCHAR :=
  "cmd: 63 SERVER_UP".toList.map fun c => BitVec.ofNat 8 c.toNat

example : CmdType.serverUp.ctorIdx = 63 := rfl

/-- `SERVER_UP` of the client: `tempx` is sent, the text and what lies behind it. -/
def serverUp (tempx : ℕ → UCHAR) : SendSerial :=
  ⟨CmdType.serverUp.toByte, fun i => (serverUpText ++ [0#8]).getD i (tempx i)⟩

end HostConfig

/-- `send_buffer` of `serial_recv_task` as it starts. -/
def sendBuffer (ps : Params) (old : ℕ → UCHAR) : ℕ → UCHAR
  | 0 => ps.engineTempLimit.setWidth 8
  | 1 => (ps.engineTempLimit >>> 8).setWidth 8
  | 2 => ps.coolingFanOn.setWidth 8
  | 3 => (ps.coolingFanOn >>> 8).setWidth 8
  | 4 => ps.coolingFanOff.setWidth 8
  | 5 => (ps.coolingFanOff >>> 8).setWidth 8
  | 6 => ps.blower1On.setWidth 8
  | 7 => (ps.blower1On >>> 8).setWidth 8
  | 8 => ps.blower2On.setWidth 8
  | 9 => (ps.blower2On >>> 8).setWidth 8
  | 10 => ps.blower3On.setWidth 8
  | 11 => (ps.blower3On >>> 8).setWidth 8
  | 12 => ps.blowerEnabled.setWidth 8
  | 13 => (ps.blowerEnabled >>> 8).setWidth 8
  | i => old i

/-! ## The STM32 -/

/-- The temperatures that the frames of the TS-7200 set. -/
structure Temperatures where
  engineTempLimit : BitVec 16
  fanOnTemp : BitVec 16
  fanOffTemp : BitVec 16
  blower1Temp : BitVec 16
  blower2Temp : BitVec 16
  blower3Temp : BitVec 16
  blowerEnTemp : BitVec 16
  battBoxTemp : BitVec 16
  deriving DecidableEq, Repr

namespace Temperatures

def init : Temperatures where
  engineTempLimit := 190
  fanOnTemp := 175
  fanOffTemp := 150
  blower1Temp := 65
  blower2Temp := 55
  blower3Temp := 45
  blowerEnTemp := 70
  battBoxTemp := 75

def get (t : Temperatures) : Setting → BitVec 16
  | .engineTempLimit => t.engineTempLimit
  | .coolingFanOn => t.fanOnTemp
  | .coolingFanOff => t.fanOffTemp
  | .blower1On => t.blower1Temp
  | .blower2On => t.blower2Temp
  | .blower3On => t.blower3Temp
  | .blowerEnabled => t.blowerEnTemp

/-- `StartRecv7200` on a frame, as far as it sets temperatures. -/
def startRecv7200 (frame : SendSerial) (t : Temperatures) : Temperatures :=
  if Stm32.Accepts frame.cmd then
    match CmdType.ofByte frame.cmd with
    | some .serverUp =>
        { engineTempLimit := frame.buff 2 ++ frame.buff 1
          fanOnTemp := frame.buff 4 ++ frame.buff 3
          fanOffTemp := frame.buff 6 ++ frame.buff 5
          blower1Temp := frame.buff 8 ++ frame.buff 7
          blower2Temp := frame.buff 10 ++ frame.buff 9
          blower3Temp := frame.buff 12 ++ frame.buff 11
          blowerEnTemp := frame.buff 14 ++ frame.buff 13
          battBoxTemp := t.battBoxTemp }
    | some .sendConfig2 =>
        { fanOnTemp := frame.buff 6 ++ frame.buff 5
          fanOffTemp := frame.buff 8 ++ frame.buff 7
          blowerEnTemp := frame.buff 10 ++ frame.buff 9
          blower1Temp := frame.buff 12 ++ frame.buff 11
          blower2Temp := frame.buff 14 ++ frame.buff 13
          blower3Temp := frame.buff 16 ++ frame.buff 15
          engineTempLimit := frame.buff 18 ++ frame.buff 17
          battBoxTemp := frame.buff 20 ++ frame.buff 19 }
    | _ => t
  else t

theorem startRecv7200_serverUp (buf : ℕ → UCHAR) (t : Temperatures) :
    t.startRecv7200 ⟨CmdType.serverUp.toByte, buf⟩ =
      { engineTempLimit := buf 1 ++ buf 0
        fanOnTemp := buf 3 ++ buf 2
        fanOffTemp := buf 5 ++ buf 4
        blower1Temp := buf 7 ++ buf 6
        blower2Temp := buf 9 ++ buf 8
        blower3Temp := buf 11 ++ buf 10
        blowerEnTemp := buf 13 ++ buf 12
        battBoxTemp := t.battBoxTemp } := by
  have haccept : Stm32.Accepts CmdType.serverUp.toByte := by decide
  rw [startRecv7200, if_pos haccept, CmdType.ofByte_toByte]
  rfl

theorem startRecv7200_sendConfig2 (buf : ℕ → UCHAR) (t : Temperatures) :
    t.startRecv7200 ⟨CmdType.sendConfig2.toByte, buf⟩ =
      { fanOnTemp := buf 5 ++ buf 4
        fanOffTemp := buf 7 ++ buf 6
        blowerEnTemp := buf 9 ++ buf 8
        blower1Temp := buf 11 ++ buf 10
        blower2Temp := buf 13 ++ buf 12
        blower3Temp := buf 15 ++ buf 14
        engineTempLimit := buf 17 ++ buf 16
        battBoxTemp := buf 19 ++ buf 18 } := by
  have haccept : Stm32.Accepts CmdType.sendConfig2.toByte := by decide
  rw [startRecv7200, if_pos haccept, CmdType.ofByte_toByte]
  rfl

/-- The STM32 does not look at the limit that is sent on. -/
theorem startRecv7200_setTempLimit (buf : ℕ → UCHAR) (t : Temperatures) :
    t.startRecv7200 ⟨CmdType.setTempLimit.toByte, buf⟩ = t := by
  have hignore : ¬ Stm32.Accepts CmdType.setTempLimit.toByte := by decide
  rw [startRecv7200, if_neg hignore]

/-- The part of the temperatures that decides about the fan and the alarm. -/
theorem startRecv7200_stm32 (frame : SendSerial) (s : Stm32) (t : Temperatures)
    (h : s.engineTempLimit = t.engineTempLimit ∧ s.fanOnTemp = t.fanOnTemp ∧
      s.fanOffTemp = t.fanOffTemp) :
    (s.startRecv7200 frame).engineTempLimit = (t.startRecv7200 frame).engineTempLimit ∧
      (s.startRecv7200 frame).fanOnTemp = (t.startRecv7200 frame).fanOnTemp ∧
      (s.startRecv7200 frame).fanOffTemp = (t.startRecv7200 frame).fanOffTemp := by
  by_cases haccept : Stm32.Accepts frame.cmd
  · have haccept' : actuator frame.cmd ∨ frame.cmd ∈ Stm32.recvCommands.map CmdType.toByte :=
      haccept
    rw [Stm32.startRecv7200, if_pos haccept', startRecv7200, if_pos haccept]
    generalize CmdType.ofByte frame.cmd = cmd
    cases cmd with
    | none => exact h
    | some cmd =>
        cases cmd with
        | serverUp | sendConfig2 => exact ⟨rfl, rfl, rfl⟩
        | getConfig2 => simpa using h
        | _ => exact h
  · have haccept' : ¬ (actuator frame.cmd ∨
        frame.cmd ∈ Stm32.recvCommands.map CmdType.toByte) := haccept
    rw [Stm32.startRecv7200, if_neg haccept', startRecv7200, if_neg haccept]
    exact h

end Temperatures

/-- The commands of the FPGA that a configuration is passed on in. -/
inductive FpgaCmd where
  | setFpgaSendUpdateRate | setRpmMphUpdateRate | setHighRevLimit | setLowRevLimit
  deriving DecidableEq, Repr

/-- Their values, as `mytypes.h` defines them. -/
def FpgaCmd.toByte : FpgaCmd → UCHAR
  | .setFpgaSendUpdateRate => 0x01
  | .setRpmMphUpdateRate => 0x02
  | .setHighRevLimit => 0x0D
  | .setLowRevLimit => 0x0E

/-- `ucbuff[0] = cmd; ucbuff[1] = param;` The other bytes stay. -/
def fpgaBuff (cmd : FpgaCmd) (param : UCHAR) (ucbuff : ℕ → UCHAR) : ℕ → UCHAR
  | 0 => cmd.toByte
  | 1 => param
  | i => ucbuff i

/-- What `StartRecv7200` puts on the queue to the FPGA for a `SEND_CONFIG2` frame, one call of
`xQueueSend` after the other. -/
def sendFpga (frame : SendSerial) (ucbuff : ℕ → UCHAR) : List (BitVec 64) :=
  [pack64 (fpgaBuff .setRpmMphUpdateRate (frame.buff 1) ucbuff),
    pack64 (fpgaBuff .setFpgaSendUpdateRate (frame.buff 2) ucbuff),
    pack64 (fpgaBuff .setHighRevLimit (frame.buff 3) ucbuff),
    pack64 (fpgaBuff .setLowRevLimit (frame.buff 4) ucbuff)]

/-! ## Configuration traffic -/

/-- The parameters, the frames under way, and the copies. -/
structure ConfigLink where
  host : HostConfig
  toStm32 : List SendSerial
  temps : Temperatures

inductive ConfigEvent where
  | updateConfig (msgBuf : ℕ → UCHAR)
  /-- `SET_TEMP_LIMIT`, `SET_FAN_ON`, `SET_FAN_OFF` and the `SET_BLOWER` commands. -/
  | setMsg (k : Setting) (msgBuf : ℕ → UCHAR)
  | serverUp (tempx : ℕ → UCHAR)
  | startRecv7200

namespace ConfigLink

/-- Frames arrive whole and in order. -/
def step (s : ConfigLink) : ConfigEvent → ConfigLink
  | .updateConfig msgBuf =>
      let done := s.host.updateConfig msgBuf
      { s with host := done.1, toStm32 := s.toStm32 ++ [done.2] }
  | .setMsg k msgBuf =>
      let done := HostConfig.setMsg k msgBuf s.host
      { s with host := done.1, toStm32 := s.toStm32 ++ done.2 }
  | .serverUp tempx => { s with toStm32 := s.toStm32 ++ [HostConfig.serverUp tempx] }
  | .startRecv7200 =>
      match s.toStm32 with
      | [] => s
      | frame :: rest => { s with temps := s.temps.startRecv7200 frame, toStm32 := rest }

/-- `serial_recv_task` has sent the `SERVER_UP` it starts with. -/
def boot (host : HostConfig) (old : ℕ → UCHAR) : ConfigLink where
  host := host
  toStm32 := [⟨CmdType.serverUp.toByte, sendBuffer host.ps old⟩]
  temps := .init

end ConfigLink

end TruckControl
