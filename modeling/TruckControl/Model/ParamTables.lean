import TruckControl.Model.ParamFile
import TruckControl.Model.RevLimits

/-! # The tables that the stored parameters select from -/

namespace TruckControl

/-! ## `ps` in memory and in `param.conf` -/

namespace Params

/-- In the order of `PARAM_STRUCT`. -/
def fields (ps : Params) : List UINT :=
  [ps.rpmMphUpdateRate, ps.fpgaXmitRate, ps.highRevLimit, ps.lowRevLimit, ps.coolingFanOn,
    ps.coolingFanOff, ps.blowerEnabled, ps.blower1On, ps.blower2On, ps.blower3On,
    ps.lightsOnDelay, ps.engineTempLimit, ps.battBoxTemp, ps.testBank, ps.passwordTimeout,
    ps.passwordRetries, ps.baudrate3]

/-- The bytes of the integers, the low byte first. -/
def toBytes (ps : Params) : List UCHAR := ps.fields.flatMap getBytes

/-- The integer that starts at `bytes[4 * i]`. -/
def intAt (bytes : List UCHAR) (i : ℕ) : UINT :=
  bytes.getD (4 * i + 3) 0 ++ bytes.getD (4 * i + 2) 0 ++ bytes.getD (4 * i + 1) 0 ++
    bytes.getD (4 * i) 0

theorem append_getBytes (v : UINT) :
    ((v >>> 24).setWidth 8 ++ (v >>> 16).setWidth 8 ++ (v >>> 8).setWidth 8 ++ v.setWidth 8 :
      BitVec 32) = v := by
  apply BitVec.eq_of_getLsbD_eq
  intro i hi
  simp
  grind

def ofBytes (bytes : List UCHAR) : Params where
  rpmMphUpdateRate := intAt bytes 0
  fpgaXmitRate := intAt bytes 1
  highRevLimit := intAt bytes 2
  lowRevLimit := intAt bytes 3
  coolingFanOn := intAt bytes 4
  coolingFanOff := intAt bytes 5
  blowerEnabled := intAt bytes 6
  blower1On := intAt bytes 7
  blower2On := intAt bytes 8
  blower3On := intAt bytes 9
  lightsOnDelay := intAt bytes 10
  engineTempLimit := intAt bytes 11
  battBoxTemp := intAt bytes 12
  testBank := intAt bytes 13
  passwordTimeout := intAt bytes 14
  passwordRetries := intAt bytes 15
  baudrate3 := intAt bytes 16

theorem length_toBytes (ps : Params) : ps.toBytes.length = sizeofParams := rfl

end Params

/-- The static memory of a new process. -/
def ParamBlock.zero : ParamBlock where
  ps := List.replicate sizeofParams 0
  password := List.replicate passwordSize 0
  length_ps := List.length_replicate
  length_password := List.length_replicate

/-! ## The handlers -/

namespace HostConfig

/-- `LIGHTS_ON_DELAY`. -/
def lightsOnDelay (msgBuf : ℕ → UCHAR) (h : HostConfig) : HostConfig :=
  let utemp := word msgBuf 2
  { h with
    ps := { h.ps with lightsOnDelay := utemp }
    actualLightsOnDelay := lightsOnDelays.getD utemp.toNat 0 }

/-- `SET_BATT_BOX_TEMP`. -/
def setBattBoxTemp (msgBuf : ℕ → UCHAR) (h : HostConfig) : HostConfig :=
  { h with ps := { h.ps with battBoxTemp := word msgBuf 2 } }

end HostConfig

/-- The messages that set parameters. -/
inductive ParamMsg where
  | highRevLimit | lowRevLimit | lightsOnDelay | updateConfig | setBattBoxTemp
  | set (k : Setting)
  deriving DecidableEq, Repr

/-- What the handler of a message does with the parameters. -/
def ParamMsg.handle (msgBuf : ℕ → UCHAR) (h : HostConfig) : ParamMsg → HostConfig
  | .highRevLimit => (h.highRevLimit msgBuf).1
  | .lowRevLimit => (h.lowRevLimit msgBuf).1
  | .lightsOnDelay => h.lightsOnDelay msgBuf
  | .updateConfig => (h.updateConfig msgBuf).1
  | .setBattBoxTemp => h.setBattBoxTemp msgBuf
  | .set k => (HostConfig.setMsg k msgBuf h).1

/-- A look-up in one of the three tables. -/
inductive TableAccess where
  | hiRev (i : ℤ)
  | loRev (i : ℤ)
  | lightsOnDelay (i : ℤ)
  deriving DecidableEq, Repr

def TableAccess.InRange : TableAccess → Prop
  | .hiRev i => 0 ≤ i ∧ i < TruckControl.hiRev.length
  | .loRev i => 0 ≤ i ∧ i < TruckControl.loRev.length
  | .lightsOnDelay i => 0 ≤ i ∧ i < lightsOnDelays.length

instance : DecidablePred TableAccess.InRange
  | .hiRev _ | .loRev _ | .lightsOnDelay _ => inferInstanceAs (Decidable (_ ∧ _))

/-- The look-ups of a handler. -/
def ParamMsg.accesses (msgBuf : ℕ → UCHAR) : ParamMsg → List TableAccess
  | .highRevLimit => [.hiRev (word msgBuf 2).toInt]
  | .lowRevLimit => [.loRev (word msgBuf 2).toInt]
  | .lightsOnDelay => [.lightsOnDelay (word msgBuf 2).toInt]
  | .updateConfig =>
      [.hiRev (word msgBuf 6).toInt, .loRev (word msgBuf 8).toInt,
        .lightsOnDelay (word msgBuf 22).toInt]
  | .setBattBoxTemp | .set _ => []

/-! ## The server from one start to the next -/

/-- The parameters, the password and `param.conf`. -/
structure ParamStore where
  host : HostConfig
  password : List UCHAR
  file : Option (List UCHAR)
  length_password : password.length = passwordSize

/-- `opened` tells whether `param.conf` can be opened. -/
inductive ParamEvent where
  | message (m : ParamMsg) (msgBuf : ℕ → UCHAR) (opened : Bool)
  /-- The GPS task has found another baud rate. -/
  | gpsBaudrate (brTry : UINT) (opened : Bool)
  /-- The parameters are written once more before the server exits. -/
  | exitProgram (opened : Bool)
  /-- The server starts again; `id` is what lies on the stack of `LoadParams`. -/
  | restart (id : UCHAR) (opened : Bool)

namespace ParamStore

def block (s : ParamStore) : ParamBlock where
  ps := s.host.ps.toBytes
  password := s.password
  length_ps := Params.length_toBytes s.host.ps
  length_password := s.length_password

/-- `WriteParams("param.conf", ..)`. -/
def writeParams (opened : Bool) (s : ParamStore) : ParamStore :=
  if opened then { s with file := some (TruckControl.writeParams s.block) } else s

/-- What `LoadParams` leaves of the file in the memory of a new process. -/
def loaded (id : UCHAR) (file : Option (List UCHAR)) : ParamBlock :=
  (loadParams id file .zero).block

/-- `init_ips` of a new process. -/
def initIps (id : UCHAR) (opened : Bool) (file : Option (List UCHAR)) : ParamStore :=
  let block := loaded id (if opened then file else none)
  let ps := { Params.ofBytes block.ps with blower1On := 32 }
  { host :=
      { ps := ps
        writeSerialBuffer := fun _ => 0
        actualHighRevLimit := 0
        actualLowRevLimit := 0
        actualLightsOnDelay := lightsOnDelays.getD ps.lightsOnDelay.toNat 0 }
    password := block.password
    file := file
    length_password := block.length_password }

/-- The look-up of `init_ips`. -/
def initAccesses (id : UCHAR) (opened : Bool) (file : Option (List UCHAR)) : List TableAccess :=
  [.lightsOnDelay (initIps id opened file).host.ps.lightsOnDelay.toInt]

/-- `UPDATE_CONFIG` clears the password. -/
def handle (m : ParamMsg) (msgBuf : ℕ → UCHAR) (s : ParamStore) : ParamStore :=
  let s := { s with host := m.handle msgBuf s.host }
  if m = .updateConfig then
    { s with
      password := List.replicate passwordSize 0
      length_password := List.length_replicate }
  else s

def step (s : ParamStore) : ParamEvent → ParamStore
  | .message m msgBuf opened => (s.handle m msgBuf).writeParams opened
  | .gpsBaudrate brTry opened =>
      { s with host := { s.host with ps := { s.host.ps with baudrate3 := brTry - 1 } } }.writeParams
        opened
  | .exitProgram opened => s.writeParams opened
  | .restart id opened => initIps id opened s.file

/-- The look-ups that an event makes. -/
def accesses (s : ParamStore) : ParamEvent → List TableAccess
  | .message m msgBuf _ => m.accesses msgBuf
  | .gpsBaudrate _ _ | .exitProgram _ => []
  | .restart id opened => initAccesses id opened s.file

end ParamStore

end TruckControl
