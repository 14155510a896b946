import TruckControl.Library.Parameters
import TruckControl.Model.FpgaSettings
import TruckControl.Verification.FpgaCommands

/-!
# What a command sets in the FPGA

Beside the tables a command sets single bits, and the status bytes report both. Apart from
the clock, the two processes of the FPGA are a receiver of commands with parameters.
-/

namespace TruckControl

open Parameters (Receiver)

/-! ## The settings, and what a command makes of them -/

/-- The signals that one bit of a command sets. -/
inductive FlagReg where
  | adcGate | revLimitOverride | fuelPumpOverride
  deriving DecidableEq, Repr

namespace FlagReg

def toMcmd : FlagReg → Mcmd
  | .adcGate => .adcCtl
  | .revLimitOverride => .revLimitOverride
  | .fuelPumpOverride => .fuelPumpOverride

/-- The bit of `stlv_status3` in which it is reported. -/
def statusBit : FlagReg → ℕ
  | .adcGate => 2
  | .revLimitOverride => 0
  | .fuelPumpOverride => 1

end FlagReg

namespace RateReg

def toMcmd : RateReg → Mcmd
  | .sendDelay => .setFpgaSendUpdateRate
  | .rpmMphDelay => .setRpmMphUpdateRate
  | .adcDelay => .setAdcRate2
  | .highRevLimit => .setHighRevLimit
  | .lowRevLimit => .setLowRevLimit

end RateReg

/-- The registers with a table, the parameters that the status bytes report for them, the
signals of one bit, and what is reported of these. -/
@[ext] structure Settings where
  rate : RateReg → BitVec 26
  nibble : RateReg → BitVec 4
  flag : FlagReg → Bool
  statusFlag : FlagReg → Bool

namespace Settings

/-- A command, when the tables are looked up by `dlParam`. -/
def look (cmd param : UCHAR) (dlParam : BitVec 4) (l : Settings) : Settings where
  rate := setRates cmd dlParam l.rate
  nibble r := if cmd = r.cmd then param.extractLsb' 0 4 else l.nibble r
  flag f := if cmd = f.toMcmd.toByte then param.getLsbD 0 else l.flag f
  statusFlag f := if cmd = f.toMcmd.toByte then param.getLsbD 0 else l.statusFlag f

/-- What a command with its first parameter makes of the settings. -/
def set (cmd param : UCHAR) (l : Settings) : Settings :=
  l.look cmd param (param.extractLsb' 0 4)

/-- The last parameter has the last word. -/
theorem set_look (cmd param param' : UCHAR) (dlParam : BitVec 4) (l : Settings) :
    (l.look cmd param' dlParam).set cmd param = l.set cmd param := by
  refine Settings.ext (setRates_setRates ..) ?_ ?_ ?_ <;> funext r <;> simp only [set, look] <;>
    split_ifs <;> rfl

theorem set_set (cmd param param' : UCHAR) (l : Settings) :
    (l.set cmd param').set cmd param = l.set cmd param := set_look ..

end Settings

namespace CalcSignals

/-- The parameters in the status bytes. -/
def nibble (s : CalcSignals) : RateReg → BitVec 4
  | .sendDelay => s.stlvStatus1.extractLsb' 4 4
  | .rpmMphDelay => s.stlvStatus1.extractLsb' 0 4
  | .adcDelay => s.stlvStatus3.extractLsb' 4 4
  | .highRevLimit => s.stlvStatus2.extractLsb' 4 4
  | .lowRevLimit => s.stlvStatus2.extractLsb' 0 4

def flag (s : CalcSignals) : FlagReg → Bool
  | .adcGate => s.adcGate
  | .revLimitOverride => s.stlvRevLimitOverride
  | .fuelPumpOverride => s.stlvFuelPumpOverride

def settings (s : CalcSignals) : Settings where
  rate := s.rate
  nibble := s.nibble
  flag := s.flag
  statusFlag f := s.stlvStatus3.getLsbD f.statusBit

end CalcSignals

/-! ## The halves of a status byte -/

theorem extractLsb'_append_high (a b : BitVec 4) : (a ++ b : BitVec 8).extractLsb' 4 4 = a :=
  BitVec.extractLsb'_append_eq_left

theorem extractLsb'_append_low (a b : BitVec 4) : (a ++ b : BitVec 8).extractLsb' 0 4 = b :=
  BitVec.extractLsb'_append_eq_right

theorem getLsbD_append_low {a : BitVec 4} {b : BitVec 8} {j : ℕ} (hj : j < 4) :
    (a ++ b.extractLsb' 0 4 : BitVec 8).getLsbD j = b.getLsbD j := by
  have h := BitVec.getLsbD_append (x := a) (y := b.extractLsb' 0 4) (i := j)
  rw [if_pos hj, BitVec.getLsbD_extractLsb', Nat.zero_add, decide_eq_true hj, Bool.true_and] at h
  exact h

theorem Byte.extractLsb'_assign_high {i : ℕ} (hi : i < 4) (b : BitVec 8) (v : Bool) :
    (Byte.assign b i v).extractLsb' 4 4 = b.extractLsb' 4 4 := by
  apply BitVec.eq_of_getLsbD_eq
  intro j hj
  have hne : 4 + j ≠ i := by omega
  simp [BitVec.getLsbD_extractLsb', Byte.getLsbD_assign b i (4 + j) v (by omega), hne]

/-! ## A command on the signals -/

namespace CalcSignals

variable (mcmd : UCHAR) (download : ℕ → UCHAR) (s : CalcSignals)

theorem stlvStatus1_mcmdCase :
    (s.mcmdCase mcmd download).nibble .sendDelay =
        (if mcmd = setFpgaSendUpdateRate then (download 0).extractLsb' 0 4
          else s.nibble .sendDelay) ∧
      (s.mcmdCase mcmd download).nibble .rpmMphDelay =
        (if mcmd = setRpmMphUpdateRate then (download 0).extractLsb' 0 4
          else s.nibble .rpmMphDelay) := by
  cases hcmd : Mcmd.ofByte mcmd with
  | none =>
      have hsend : mcmd ≠ setFpgaSendUpdateRate := ofByte_ne hcmd .setFpgaSendUpdateRate
      have hrpm : mcmd ≠ setRpmMphUpdateRate := ofByte_ne hcmd .setRpmMphUpdateRate
      rw [mcmdCase, hcmd, if_neg hsend, if_neg hrpm]
      exact ⟨rfl, rfl⟩
  | some cmd =>
      rw [Mcmd.toByte_of_ofByte hcmd, mcmdCase, Mcmd.ofByte_toByte]
      cases cmd with
      | setFpgaSendUpdateRate | setRpmMphUpdateRate =>
          exact ⟨extractLsb'_append_high .., extractLsb'_append_low ..⟩
      | _ => exact ⟨rfl, rfl⟩

theorem stlvStatus3_mcmdCase :
    (s.mcmdCase mcmd download).nibble .adcDelay =
        (if mcmd = setAdcRate2 then (download 0).extractLsb' 0 4 else s.nibble .adcDelay) ∧
      ∀ f : FlagReg, (s.mcmdCase mcmd download).stlvStatus3.getLsbD f.statusBit =
        if mcmd = f.toMcmd.toByte then (download 0).getLsbD 0
        else s.stlvStatus3.getLsbD f.statusBit := by
  cases hcmd : Mcmd.ofByte mcmd with
  | none =>
      have hadc : mcmd ≠ setAdcRate2 := ofByte_ne hcmd .setAdcRate2
      rw [mcmdCase, hcmd, if_neg hadc]
      refine ⟨rfl, ?_⟩
      intro f
      rw [if_neg (ofByte_ne hcmd f.toMcmd)]
  | some cmd =>
      rw [Mcmd.toByte_of_ofByte hcmd, mcmdCase, Mcmd.ofByte_toByte]
      cases cmd with
      | setAdcRate2 =>
          refine ⟨extractLsb'_append_high .., ?_⟩
          intro f
          cases f <;> exact getLsbD_append_low (by decide)
      | adcCtl | revLimitOverride | fuelPumpOverride =>
          refine ⟨Byte.extractLsb'_assign_high (by decide) .., ?_⟩
          intro f
          rw [Byte.getLsbD_assign _ _ _ _ (by decide)]
          cases f <;> rfl
      | _ =>
          refine ⟨rfl, ?_⟩
          intro f
          cases f <;> rfl

theorem flag_mcmdCase (f : FlagReg) : (s.mcmdCase mcmd download).flag f =
    if mcmd = f.toMcmd.toByte then (download 0).getLsbD 0 else s.flag f := by
  cases hcmd : Mcmd.ofByte mcmd with
  | none =>
      rw [mcmdCase, hcmd, if_neg (ofByte_ne hcmd f.toMcmd)]
  | some cmd =>
      rw [Mcmd.toByte_of_ofByte hcmd, mcmdCase, Mcmd.ofByte_toByte]
      cases cmd <;> cases f <;> rfl

end CalcSignals

theorem CalcProc1.stlvStatus2_mcmdCase (mcmd : UCHAR) (download : ℕ → UCHAR) (s : CalcProc1) :
    (s.mcmdCase mcmd download).stlvStatus2.extractLsb' 4 4 =
        (if mcmd = setHighRevLimit then (download 0).extractLsb' 0 4
          else s.stlvStatus2.extractLsb' 4 4) ∧
      (s.mcmdCase mcmd download).stlvStatus2.extractLsb' 0 4 =
        (if mcmd = setLowRevLimit then (download 0).extractLsb' 0 4
          else s.stlvStatus2.extractLsb' 0 4) := by
  rw [mcmdCase]
  by_cases hhigh : mcmd = setHighRevLimit
  · have hlow : mcmd ≠ setLowRevLimit := by
      rw [hhigh]
      decide
    rw [if_pos hhigh, if_pos hhigh, if_neg hlow]
    exact ⟨extractLsb'_append_high .., extractLsb'_append_low ..⟩
  · rw [if_neg hhigh, if_neg hhigh]
    by_cases hlow : mcmd = setLowRevLimit
    · rw [if_pos hlow, if_pos hlow]
      exact ⟨extractLsb'_append_high .., extractLsb'_append_low ..⟩
    · rw [if_neg hlow, if_neg hlow]
      split_ifs <;> exact ⟨rfl, rfl⟩

/-! ## The clock edges -/

namespace CalcSignals

variable {c : CalcSignals} {u : RecvUart}

/-- `stlv_engine_running` is none of the settings. -/
theorem settings_assign_running (running : Bool) (c : CalcSignals) :
    { c with stlvStatus3 := Byte.assign c.stlvStatus3 3 running }.settings = c.settings := by
  refine Settings.ext rfl ?_ rfl ?_
  · funext r
    cases r with
    | adcDelay => exact Byte.extractLsb'_assign_high (by decide) ..
    | _ => rfl
  · funext f
    change (Byte.assign c.stlvStatus3 3 running).getLsbD f.statusBit = _
    rw [Byte.getLsbD_assign _ _ _ _ (by decide)]
    cases f <;> rfl

theorem settings_clk_of_not_startCalc (hstart : u.startCalc = false) (running : Bool) :
    (c.clk running u).settings = c.settings := by
  cases hmain : c.mainReg1 with
  | idle1a =>
      rw [← settings_assign_running running c]
      simp only [clk, CalcProc1.clk, hmain, hstart]
      rfl
  | doMcmd | otherCmd =>
      simp only [clk, CalcProc1.clk, hmain]
      rfl

/-- A command is decided by `dl_param` as it was. -/
theorem settings_clk (hmain : c.mainReg1 = .idle1a) (hstart : u.startCalc = true)
    (running : Bool) :
    (c.clk running u).settings = c.settings.look u.mcmd (u.download 0) c.dlParam := by
  rw [← settings_assign_running running c]
  have h1 := stlvStatus1_mcmdCase u.mcmd u.download
    { c with stlvStatus3 := Byte.assign c.stlvStatus3 3 running }
  have h2 := CalcProc1.stlvStatus2_mcmdCase u.mcmd u.download c.toCalcProc1
  have h3 := stlvStatus3_mcmdCase u.mcmd u.download
    { c with stlvStatus3 := Byte.assign c.stlvStatus3 3 running }
  refine Settings.ext (rate_clk hmain hstart running) ?_ ?_ ?_
  · funext r
    simp only [clk, CalcProc1.clk, hmain, hstart, if_true]
    cases r with
    | sendDelay => exact h1.1
    | rpmMphDelay => exact h1.2
    | adcDelay => exact h3.1
    | highRevLimit => exact h2.1
    | lowRevLimit => exact h2.2
  · funext f
    have hflag := flag_mcmdCase u.mcmd u.download
      { c with stlvStatus3 := Byte.assign c.stlvStatus3 3 running } f
    simp only [clk, CalcProc1.clk, hmain, hstart, if_true]
    cases f <;> exact hflag
  · funext f
    simp only [clk, CalcProc1.clk, hmain, hstart, if_true]
    exact h3.2 f

end CalcSignals

/-! ## The bytes apart from the clock -/

/-- A command with what has been downloaded. -/
def Settings.act (cmd : UCHAR) (download : ℕ → UCHAR) (l : Settings) : Settings :=
  l.set cmd (download 0)

theorem Settings.overwrites_act : Receiver.Overwrites Settings.act :=
  fun _ _ _ _ => Settings.set_set ..

/-- A byte is taken, and the settings change if it is the mark. -/
def settingsByte (m : Receiver UCHAR Settings) (b : FpgaByte) : Receiver UCHAR Settings :=
  if b.cmdParam then m.recvCmd b.dataRx else m.recvParam 256 0xFF Settings.act b.dataRx

/-- A value of the queue, as the bytes sent of it change the settings. -/
def Settings.setValue (l : Settings) (v : BitVec 64) : Settings :=
  l.set (v.setWidth 8) ((v >>> 8).setWidth 8)

theorem settingsBytes_startSendFPGA (m : Receiver UCHAR Settings) (v : BitVec 64) :
    ((startSendFPGA v).foldl settingsByte m).state = m.state.setValue v := by
  let params : List UCHAR := [(v >>> 8).setWidth 8, (v >>> 8 >>> 8).setWidth 8,
    (v >>> 8 >>> 8 >>> 8).setWidth 8, (v >>> 8 >>> 8 >>> 8 >>> 8).setWidth 8,
    (v >>> 8 >>> 8 >>> 8 >>> 8 >>> 8).setWidth 8,
    (v >>> 8 >>> 8 >>> 8 >>> 8 >>> 8 >>> 8).setWidth 8,
    (v >>> 8 >>> 8 >>> 8 >>> 8 >>> 8 >>> 8 >>> 8).setWidth 8]
  have hbytes : (startSendFPGA v).foldl settingsByte m =
      (params ++ [0xFF]).foldl (Receiver.recvParam 256 0xFF Settings.act)
        (m.recvCmd (v.setWidth 8)) := rfl
  have hparam := Receiver.params_message 256 0xFF Settings.act m (v.setWidth 8) params
    (by simp [params]) (i := 0) (by simp [params])
  rw [hbytes, Receiver.state_message 256 0xFF Settings.overwrites_act, Settings.act, hparam]
  rfl

/-- The FPGA apart from the clock: what is pending is done. -/
def settingsLoad (u : RecvUart) (c : CalcSignals) : Receiver UCHAR Settings where
  cmd := u.mcmd
  count := u.incParams.toNat
  params := u.download
  state := if Pending u then c.settings.set u.mcmd (u.download 0) else c.settings

theorem look_eq_set_of_primed {u : RecvUart} {c : CalcSignals} (h : Primed u c)
    (hreg : u.stateUartReg2 = .done) (hstart : u.startCalc = true) :
    c.settings.look u.mcmd (u.download 0) c.dlParam = c.settings.set u.mcmd (u.download 0) :=
  Settings.ext (setRates_eq_of_primed h hreg hstart) rfl rfl rfl

/-- A clock edge without a byte. -/
theorem InStep.settingsLoad_clk {u : RecvUart} {c : CalcSignals} (h : InStep u c.toCalcProc1)
    (hprimed : Primed u c) (dataReady running : Bool) :
    settingsLoad (u.clk dataReady none) (c.clk running u) = settingsLoad u c := by
  obtain ⟨hmcmd, hinc, hdownload⟩ := u.params_clk dataReady
  cases hstart : u.startCalc with
  | false =>
      have hpending := h.pending_clk dataReady hstart
      simp only [settingsLoad, hmcmd, hinc, hdownload, hpending,
        CalcSignals.settings_clk_of_not_startCalc hstart]
  | true =>
      obtain ⟨hmain, hpending, hpending' | ⟨hreg, hdone⟩⟩ := h.of_startCalc dataReady hstart
      · simp only [settingsLoad, hmcmd, hinc, hdownload, if_pos hpending, if_pos hpending',
          CalcSignals.settings_clk hmain hstart, Settings.set_look]
      · simp only [settingsLoad, hmcmd, hinc, hdownload, if_pos hpending, if_neg hdone,
          CalcSignals.settings_clk hmain hstart, look_eq_set_of_primed hprimed hreg hstart]

/-- The clock edge at which a byte comes. -/
theorem InStep.settingsLoad_recvByte {u : RecvUart} {c : CalcSignals}
    (h : InStep u c.toCalcProc1) (hlisten : RevLimits.Listening u) (dataReady running : Bool)
    (b : FpgaByte) :
    settingsLoad (u.clk dataReady (some b)) (c.clk running u) =
      settingsByte (settingsLoad u c) b := by
  obtain ⟨hflag, hstart, -⟩ := h.of_listening hlisten
  obtain ⟨hreg, hnext⟩ := hlisten
  have hsame := CalcSignals.settings_clk_of_not_startCalc (c := c) hstart running
  cases hparam : b.cmdParam with
  | true =>
      simp [RecvUart.clk, RecvUart.uartCase, settingsLoad, Pending, settingsByte, Receiver.recvCmd,
        hreg, hnext, hflag, hparam, hsame]
  | false =>
      simp [RecvUart.clk, RecvUart.uartCase, settingsLoad, Pending, settingsByte,
        Receiver.recvParam, Settings.act, hreg, hnext, hflag, hparam, hsame]

end TruckControl
