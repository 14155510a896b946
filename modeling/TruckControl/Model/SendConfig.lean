import TruckControl.Library.Decimal
import TruckControl.Model.ParamTables

/-! # The parameters as the text that the client is sent -/

namespace TruckControl

/-! ## The server -/

/-- The string in `password`. -/
structure Password where
  chars : List UCHAR
  length_le : chars.length ≤ 5
  noSpace : 0x20#8 ∉ chars
  strlen : 0#8 ∉ chars

/-- `sizeof(tempx)` in `send_param_msg`. -/
def sizeofTempx : ℕ := 40

/-- What `sprintf` writes: `"%d "` for each of the integers of `ps`, in their order, and `"%s"`
for the password. -/
def paramText (ps : Params) (password : Password) : List UCHAR :=
  ps.fields.flatMap (fun v => Decimal.signed 8 v.toInt ++ [0x20#8]) ++ password.chars

/-- A byte other than the digits and the minus sign is in no number. -/
theorem notMem_signed {w : ℕ} (hw : 6 ≤ w) {c : BitVec w} (hminus : c ≠ BitVec.ofNat w 45)
    (hdigit : c.toNat < 48) (i : ℤ) : c ∉ Decimal.signed w i := by
  intro hmem
  rcases Decimal.mem_signed hmem with rfl | ⟨d, hd, rfl⟩
  · exact hminus rfl
  · rw [Decimal.toNat_digit hw hd] at hdigit
    omega

theorem strlen_paramText (ps : Params) (password : Password) :
    0#8 ∉ paramText ps password := by
  rw [paramText, List.mem_append, List.mem_flatMap]
  rintro (⟨v, -, hmem⟩ | hmem)
  · rcases List.mem_append.mp hmem with hmem | hmem
    · exact notMem_signed (by decide) (by decide) (by decide) v.toInt hmem
    · cases List.mem_singleton.mp hmem
  · exact password.strlen hmem

/-- `send_param_msg`: `after` is what lies behind the text. -/
def sendParamMsg (ps : Params) (password : Password) (after : ℕ → UCHAR) : TextMsg where
  text := paramText ps password
  after := after
  msgType := CmdType.sendConfig.toByte
  strlen := strlen_paramText ps password

/-! ## The client -/

/-- What `int.Parse` skips at the beginning and at the end. -/
def isWhite (c : BitVec 16) : Bool := c = 0x20#16 || (0x09#16 ≤ c && c ≤ 0x0D#16)

/-- The sign at the beginning, and the rest. -/
def leadingSign : List (BitVec 16) → Bool × List (BitVec 16)
  | [] => (false, [])
  | c :: s => if c = 0x2D#16 then (true, s) else if c = 0x2B#16 then (false, s) else (false, c :: s)

/-- `int.Parse`; `none` is an exception. -/
def intParse (word : List (BitVec 16)) : Option ℤ :=
  let signed := leadingSign (word.dropWhile isWhite)
  let digits := signed.2.takeWhile Decimal.isDigit
  let rest := (signed.2.dropWhile Decimal.isDigit).dropWhile isWhite
  let v : ℤ := if signed.1 then -(Decimal.number digits : ℤ) else Decimal.number digits
  if digits ≠ [] ∧ (∀ c ∈ rest, c = 0) ∧ -2 ^ 31 ≤ v ∧ v < 2 ^ 31 then some v else none

/-- `cfg_params`. -/
structure CfgParams where
  rpmMphUpdateRate : ℤ
  fpgaXmitRate : ℤ
  highRevLimit : ℤ
  lowRevLimit : ℤ
  fanOn : ℤ
  fanOff : ℤ
  blowerEnabled : ℤ
  blower1On : ℤ
  blower2On : ℤ
  blower3On : ℤ
  lightsOnDelay : ℤ
  engineTempLimit : ℤ
  batteryBoxTemp : ℤ
  testBank : ℤ
  passwordTimeout : ℤ
  passwordRetries : ℤ
  baudrate3 : ℤ
  password : List (BitVec 16)
  deriving DecidableEq, Repr

namespace CfgParams

/-- The `switch (i)` on a word of the text. -/
def setWord (c : CfgParams) (word : List (BitVec 16)) : ℕ → Option CfgParams
  | 0 => (intParse word).map fun v => { c with rpmMphUpdateRate := v }
  | 1 => (intParse word).map fun v => { c with fpgaXmitRate := v }
  | 2 => (intParse word).map fun v => { c with highRevLimit := v }
  | 3 => (intParse word).map fun v => { c with lowRevLimit := v }
  | 4 => (intParse word).map fun v => { c with fanOn := v }
  | 5 => (intParse word).map fun v => { c with fanOff := v }
  | 6 => (intParse word).map fun v => { c with blowerEnabled := v }
  | 7 => (intParse word).map fun v => { c with blower1On := v }
  | 8 => (intParse word).map fun v => { c with blower2On := v }
  | 9 => (intParse word).map fun v => { c with blower3On := v }
  | 10 => (intParse word).map fun v => { c with lightsOnDelay := v }
  | 11 => (intParse word).map fun v => { c with engineTempLimit := v }
  | 12 => (intParse word).map fun v => { c with batteryBoxTemp := v }
  | 13 => (intParse word).map fun v => { c with testBank := v }
  | 14 => (intParse word).map fun v => { c with passwordTimeout := v }
  | 15 => (intParse word).map fun v => { c with passwordRetries := v }
  | 16 => (intParse word).map fun v => { c with baudrate3 := v }
  | 17 => some { c with password := word }
  | _ => some c

/-- `Process_Msg` on the text of `SEND_CONFIG`. -/
def sendConfig (ret : List (BitVec 16)) (c : CfgParams) : Option CfgParams :=
  (ret.splitOn 0x20#16).zipIdx.foldlM (fun c word => c.setWord word.1 word.2) c

/-- The parameters of the server, under the client's names. -/
def ofServer (ps : Params) (password : Password) : CfgParams where
  rpmMphUpdateRate := ps.rpmMphUpdateRate.toInt
  fpgaXmitRate := ps.fpgaXmitRate.toInt
  highRevLimit := ps.highRevLimit.toInt
  lowRevLimit := ps.lowRevLimit.toInt
  fanOn := ps.coolingFanOn.toInt
  fanOff := ps.coolingFanOff.toInt
  blowerEnabled := ps.blowerEnabled.toInt
  blower1On := ps.blower1On.toInt
  blower2On := ps.blower2On.toInt
  blower3On := ps.blower3On.toInt
  lightsOnDelay := ps.lightsOnDelay.toInt
  engineTempLimit := ps.engineTempLimit.toInt
  batteryBoxTemp := ps.battBoxTemp.toInt
  testBank := ps.testBank.toInt
  passwordTimeout := ps.passwordTimeout.toInt
  passwordRetries := ps.passwordRetries.toInt
  baudrate3 := ps.baudrate3.toInt
  password := password.chars.map (BitVec.setWidth 16)

end CfgParams

end TruckControl
