import TruckControl.Library.Transition
import TruckControl.Model.FpgaCommands
import TruckControl.Verification.FpgaLimits

/-!
# What a message to the FPGA sets

Five registers are set from tables. The entry is looked up by the parameter of an earlier
command first, and once more by that of the message.
-/

namespace TruckControl

/-! ## The registers -/

/-- The registers with a table. -/
inductive RateReg where
  | sendDelay | rpmMphDelay | adcDelay | highRevLimit | lowRevLimit
  deriving DecidableEq, Repr

namespace RateReg

/-- The command that names the register. -/
def cmd : RateReg → UCHAR
  | .sendDelay => setFpgaSendUpdateRate
  | .rpmMphDelay => setRpmMphUpdateRate
  | .adcDelay => setAdcRate2
  | .highRevLimit => setHighRevLimit
  | .lowRevLimit => setLowRevLimit

def table : RateReg → BitVec 4 → BitVec 26
  | .sendDelay => fpgaSendDelay
  | .rpmMphDelay => fpgaRpmMphDelay
  | .adcDelay => fpgaAdcDelay
  | .highRevLimit => hrevLimit
  | .lowRevLimit => lrevLimit

theorem cmd_injective {r r' : RateReg} (h : r.cmd = r'.cmd) : r = r' := by
  revert h
  cases r <;> cases r' <;> decide

end RateReg

def CalcSignals.rate (s : CalcSignals) : RateReg → BitVec 26
  | .sendDelay => s.sendDelay
  | .rpmMphDelay => s.rpmMphDelay
  | .adcDelay => s.adcDelay
  | .highRevLimit => s.highRevLimit
  | .lowRevLimit => s.lowRevLimit

/-- The registers after a command with a parameter. -/
def setRates (cmd : UCHAR) (param : BitVec 4) (f : RateReg → BitVec 26) : RateReg → BitVec 26 :=
  fun r => if cmd = r.cmd then r.table param else f r

theorem setRates_setRates (cmd : UCHAR) (param param' : BitVec 4) (f : RateReg → BitVec 26) :
    setRates cmd param (setRates cmd param' f) = setRates cmd param f := by
  funext r
  simp only [setRates]
  split_ifs <;> rfl

/-! ## The registers and the bytes that set them -/

/-- The FPGA, apart from the clock. -/
structure RateLoad where
  mcmd : UCHAR
  incParams : BitVec 8
  download : ℕ → UCHAR
  rates : RateReg → BitVec 26

namespace RateLoad

/-- A byte is taken, and the registers are set if it is the mark. -/
def recvByte (m : RateLoad) (b : FpgaByte) : RateLoad :=
  if b.cmdParam then { m with mcmd := b.dataRx, incParams := 0 }
  else
    let download := Function.update m.download m.incParams.toNat b.dataRx
    { m with
      incParams := m.incParams + 1
      download := download
      rates :=
        if b.dataRx = 0xFF then setRates m.mcmd ((download 0).extractLsb' 0 4) m.rates
        else m.rates }

/-- After `k` parameters of a command: setting the registers gives `f`. -/
structure Carries (cmd param : UCHAR) (f : RateReg → BitVec 26) (k : ℕ) (m : RateLoad) : Prop where
  mcmd : m.mcmd = cmd
  incParams : m.incParams = BitVec.ofNat 8 k
  download : m.download 0 = param
  rates : setRates cmd (param.extractLsb' 0 4) m.rates = f

variable {cmd param : UCHAR} {f : RateReg → BitVec 26} {k : ℕ} {m : RateLoad}

theorem Carries.download_update (h : m.Carries cmd param f k) (hk : 0 < k) (hlt : k < 256)
    (b : UCHAR) : Function.update m.download m.incParams.toNat b 0 = param := by
  have hinc : m.incParams.toNat = k := by
    rw [h.incParams, BitVec.toNat_ofNat, Nat.mod_eq_of_lt hlt]
  rw [Function.update_of_ne (by omega), h.download]

theorem Carries.recvByte (h : m.Carries cmd param f k) (hk : 0 < k) (hlt : k < 256) (b : UCHAR) :
    (m.recvByte ⟨false, b⟩).Carries cmd param f (k + 1) := by
  have hdownload := h.download_update hk hlt b
  refine ⟨h.mcmd, ?_, hdownload, ?_⟩
  · simp [RateLoad.recvByte, h.incParams, BitVec.ofNat_add]
  · simp only [RateLoad.recvByte, Bool.false_eq_true, if_false, hdownload, h.mcmd]
    split_ifs
    · rw [setRates_setRates, h.rates]
    · exact h.rates

theorem Carries.recvBytes (bs : List UCHAR) (h : m.Carries cmd param f k) (hk : 0 < k)
    (hlt : k + bs.length < 256) :
    ((bs.map (FpgaByte.mk false)).foldl RateLoad.recvByte m).Carries cmd param f
      (k + bs.length) := by
  induction bs generalizing m k with
  | nil => exact h
  | cons b bs ih =>
      rw [List.length_cons] at hlt
      have hrest := ih (h.recvByte hk (by omega) b) (by omega) (by omega)
      rw [List.length_cons, Nat.add_comm bs.length, ← Nat.add_assoc]
      exact hrest

/-- With the mark the registers are set. -/
theorem Carries.mark (h : m.Carries cmd param f k) (hk : 0 < k) (hlt : k < 256) :
    (m.recvByte ⟨false, 0xFF⟩).rates = f := by
  have hdownload := h.download_update hk hlt 0xFF
  simp only [RateLoad.recvByte, Bool.false_eq_true, if_false, if_true, hdownload, h.mcmd]
  exact h.rates

theorem carries_first (m : RateLoad) (cmd param : UCHAR) :
    ((m.recvByte ⟨true, cmd⟩).recvByte ⟨false, param⟩).Carries cmd param
      (setRates cmd (param.extractLsb' 0 4) m.rates) 1 := by
  have hdownload : Function.update m.download 0 param 0 = param := Function.update_self ..
  refine ⟨rfl, rfl, hdownload, ?_⟩
  simp only [RateLoad.recvByte, Bool.false_eq_true, if_false, if_true, BitVec.toNat_zero,
    hdownload, BitVec.ofNat_eq_ofNat]
  split_ifs
  · exact setRates_setRates ..
  · rfl

/-- The bytes of a value set the registers by its command and its first parameter. -/
theorem recvBytes_startSendFPGA (m : RateLoad) (v : BitVec 64) :
    ((startSendFPGA v).foldl recvByte m).rates =
      setRates (v.setWidth 8) (((v >>> 8).setWidth 8).extractLsb' 0 4) m.rates := by
  have hfirst := carries_first m (v.setWidth 8) ((v >>> 8).setWidth 8)
  have hlast := hfirst.recvBytes [(v >>> 8 >>> 8).setWidth 8, (v >>> 8 >>> 8 >>> 8).setWidth 8,
    (v >>> 8 >>> 8 >>> 8 >>> 8).setWidth 8, (v >>> 8 >>> 8 >>> 8 >>> 8 >>> 8).setWidth 8,
    (v >>> 8 >>> 8 >>> 8 >>> 8 >>> 8 >>> 8).setWidth 8,
    (v >>> 8 >>> 8 >>> 8 >>> 8 >>> 8 >>> 8 >>> 8).setWidth 8] Nat.one_pos (by simp)
  exact hlast.mark (by simp) (by simp)

end RateLoad

/-! ## The clock edges -/

namespace CalcSignals

theorem rate_clk_of_not_startCalc {c : CalcSignals} {u : RecvUart} (hstart : u.startCalc = false)
    (running : Bool) : (c.clk running u).rate = c.rate := by
  funext r
  cases hmain : c.mainReg1 with
  | idle1a | doMcmd | otherCmd => cases r <;> simp [clk, CalcProc1.clk, rate, hmain, hstart]

theorem ofByte_ne {mcmd : UCHAR} (h : Mcmd.ofByte mcmd = none) (cmd : Mcmd) :
    mcmd ≠ cmd.toByte := by
  intro heq
  rw [heq, Mcmd.ofByte_toByte] at h
  cases h

variable (mcmd : UCHAR) (download : ℕ → UCHAR) (s : CalcSignals)

theorem sendDelay_mcmdCase : (s.mcmdCase mcmd download).sendDelay =
    if mcmd = setFpgaSendUpdateRate then fpgaSendDelay s.dlParam else s.sendDelay := by
  cases hcmd : Mcmd.ofByte mcmd with
  | none =>
      have hne : mcmd ≠ setFpgaSendUpdateRate := ofByte_ne hcmd .setFpgaSendUpdateRate
      rw [mcmdCase, hcmd, if_neg hne]
  | some cmd =>
      rw [Mcmd.toByte_of_ofByte hcmd, mcmdCase, Mcmd.ofByte_toByte]
      cases cmd <;> rfl

theorem rpmMphDelay_mcmdCase : (s.mcmdCase mcmd download).rpmMphDelay =
    if mcmd = setRpmMphUpdateRate then fpgaRpmMphDelay s.dlParam else s.rpmMphDelay := by
  cases hcmd : Mcmd.ofByte mcmd with
  | none =>
      have hne : mcmd ≠ setRpmMphUpdateRate := ofByte_ne hcmd .setRpmMphUpdateRate
      rw [mcmdCase, hcmd, if_neg hne]
  | some cmd =>
      rw [Mcmd.toByte_of_ofByte hcmd, mcmdCase, Mcmd.ofByte_toByte]
      cases cmd <;> rfl

theorem adcDelay_mcmdCase : (s.mcmdCase mcmd download).adcDelay =
    if mcmd = setAdcRate2 then fpgaAdcDelay s.dlParam else s.adcDelay := by
  cases hcmd : Mcmd.ofByte mcmd with
  | none =>
      have hne : mcmd ≠ setAdcRate2 := ofByte_ne hcmd .setAdcRate2
      rw [mcmdCase, hcmd, if_neg hne]
  | some cmd =>
      rw [Mcmd.toByte_of_ofByte hcmd, mcmdCase, Mcmd.ofByte_toByte]
      cases cmd <;> rfl

end CalcSignals

namespace CalcProc1

variable (mcmd : UCHAR) (download : ℕ → UCHAR) (s : CalcProc1)

theorem highRevLimit_mcmdCase : (s.mcmdCase mcmd download).highRevLimit =
    if mcmd = setHighRevLimit then hrevLimit s.dlParam else s.highRevLimit := by
  by_cases h : mcmd = setHighRevLimit
  · subst h
    rfl
  · simp only [mcmdCase, if_neg h]
    split_ifs <;> rfl

theorem lowRevLimit_mcmdCase : (s.mcmdCase mcmd download).lowRevLimit =
    if mcmd = setLowRevLimit then lrevLimit s.dlParam else s.lowRevLimit := by
  by_cases h : mcmd = setLowRevLimit
  · subst h
    rfl
  · simp only [mcmdCase, if_neg h]
    split_ifs <;> rfl

/-- Each command with a table keeps its parameter. -/
theorem dlParam_mcmdCase {r : RateReg} (h : mcmd = r.cmd) :
    (s.mcmdCase mcmd download).dlParam = (download 0).extractLsb' 0 4 := by
  subst h
  cases r <;> rfl

end CalcProc1

namespace CalcSignals

/-- The register is looked up by `dl_param` as it was. -/
theorem rate_clk {c : CalcSignals} {u : RecvUart} (hmain : c.mainReg1 = .idle1a)
    (hstart : u.startCalc = true) (running : Bool) :
    (c.clk running u).rate = setRates u.mcmd c.dlParam c.rate := by
  funext r
  cases r <;>
    simp only [clk, CalcProc1.clk, hmain, hstart, if_true, rate, setRates, RateReg.cmd,
      RateReg.table, sendDelay_mcmdCase, rpmMphDelay_mcmdCase, adcDelay_mcmdCase,
      CalcProc1.highRevLimit_mcmdCase, CalcProc1.lowRevLimit_mcmdCase] <;>
    rfl

theorem dlParam_clk {c : CalcSignals} {u : RecvUart} (hmain : c.mainReg1 = .idle1a)
    (hstart : u.startCalc = true) (running : Bool) {r : RateReg} (hcmd : u.mcmd = r.cmd) :
    (c.clk running u).dlParam = (u.download 0).extractLsb' 0 4 := by
  simp only [clk, CalcProc1.clk, hmain, hstart, if_true]
  exact CalcProc1.dlParam_mcmdCase _ _ _ hcmd

end CalcSignals

/-- At the second edge of a command `dl_param` is its own parameter. -/
def Primed (u : RecvUart) (c : CalcSignals) : Prop :=
  u.stateUartReg2 = .done → u.startCalc = true → ∀ r : RateReg, u.mcmd = r.cmd →
    c.dlParam = (u.download 0).extractLsb' 0 4

/-- The FPGA apart from the clock: what is pending is done. -/
def rateLoad (u : RecvUart) (c : CalcSignals) : RateLoad where
  mcmd := u.mcmd
  incParams := u.incParams
  download := u.download
  rates := if Pending u then setRates u.mcmd ((u.download 0).extractLsb' 0 4) c.rate else c.rate

theorem setRates_eq_of_primed {u : RecvUart} {c : CalcSignals} (h : Primed u c)
    (hreg : u.stateUartReg2 = .done) (hstart : u.startCalc = true) :
    setRates u.mcmd c.dlParam c.rate =
      setRates u.mcmd ((u.download 0).extractLsb' 0 4) c.rate := by
  funext r
  simp only [setRates]
  split_ifs with hcmd
  · rw [h hreg hstart r hcmd]
  · rfl

/-- What is pending stays so at an edge without a byte, unless the registers are set. -/
theorem InStep.pending_clk {u : RecvUart} {c : CalcProc1} (h : InStep u c) (dataReady : Bool)
    (hstart : u.startCalc = false) : Pending (u.clk dataReady none) ↔ Pending u := by
  cases h with
  | waking hreg hnext =>
      rcases hnext with hnext | hnext <;>
        simp [RecvUart.clk, RecvUart.uartCase, Pending, hreg, hnext]
  | quiet hreg hnext | leaving hreg hnext =>
      cases dataReady with
      | true | false => simp [RecvUart.clk, RecvUart.uartCase, Pending, hreg, hnext]
  | listening hreg hnext =>
      rcases hreg with hreg | hreg <;> cases dataReady <;>
        simp [RecvUart.clk, RecvUart.uartCase, Pending, hreg, hnext]
  | received hreg hnext | checking hreg hnext | checked hreg hnext | computed hreg hnext =>
      simp [RecvUart.clk, RecvUart.uartCase, Pending, hreg, hnext]
  | computing hreg hnext hflag hstart' =>
      rw [hstart] at hstart'
      cases hstart'
  | passing hreg hnext hflag =>
      rcases hnext with hnext | hnext <;>
        simp_all [RecvUart.clk, RecvUart.uartCase, Pending]

/-- `start_calc` is seen at two edges, and what is pending is done at the second. -/
theorem InStep.of_startCalc {u : RecvUart} {c : CalcProc1} (h : InStep u c) (dataReady : Bool)
    (hstart : u.startCalc = true) :
    c.mainReg1 = .idle1a ∧ Pending u ∧
      (Pending (u.clk dataReady none) ∨
        u.stateUartReg2 = .done ∧ ¬ Pending (u.clk dataReady none)) := by
  cases h with
  | waking _ _ hstart' | quiet _ _ hstart' | listening _ _ _ hstart' | received _ _ hstart'
  | checking _ _ hstart' | passing _ _ _ hstart' | computed _ _ hstart' | leaving _ _ hstart' =>
      rw [hstart] at hstart'
      cases hstart'
  | checked hreg hnext hstart' hrest =>
      rw [hstart] at hstart'
      have hflag := of_decide_eq_true hstart'.symm
      refine ⟨hrest.1, ⟨hflag, .inr (.inl hreg)⟩, .inl ?_⟩
      simp [RecvUart.clk, RecvUart.uartCase, Pending, hreg, hnext, hflag]
  | computing hreg hnext hflag hstart' hmain =>
      refine ⟨hmain, ⟨hflag, .inr (.inr ⟨hreg, hnext⟩)⟩, .inr ⟨hreg, ?_⟩⟩
      simp [RecvUart.clk, RecvUart.uartCase, Pending, hreg, hnext]

theorem RecvUart.params_clk (u : RecvUart) (dataReady : Bool) :
    (u.clk dataReady none).mcmd = u.mcmd ∧ (u.clk dataReady none).incParams = u.incParams ∧
      (u.clk dataReady none).download = u.download := by
  cases hreg : u.stateUartReg2 with
  | preIdle | next1 | start1 | done => simp [RecvUart.clk, RecvUart.uartCase, hreg]
  | idle2 => cases dataReady <;> simp [RecvUart.clk, RecvUart.uartCase, hreg]

/-- A clock edge without a byte. -/
theorem InStep.rateLoad_clk {u : RecvUart} {c : CalcSignals} (h : InStep u c.toCalcProc1)
    (hprimed : Primed u c) (dataReady running : Bool) :
    rateLoad (u.clk dataReady none) (c.clk running u) = rateLoad u c := by
  obtain ⟨hmcmd, hinc, hdownload⟩ := u.params_clk dataReady
  cases hstart : u.startCalc with
  | false =>
      have hpending := h.pending_clk dataReady hstart
      simp only [rateLoad, hmcmd, hinc, hdownload, hpending,
        CalcSignals.rate_clk_of_not_startCalc hstart]
  | true =>
      obtain ⟨hmain, hpending, hpending' | ⟨hreg, hdone⟩⟩ := h.of_startCalc dataReady hstart
      · simp only [rateLoad, hmcmd, hinc, hdownload, if_pos hpending, if_pos hpending',
          CalcSignals.rate_clk hmain hstart, setRates_setRates]
      · simp only [rateLoad, hmcmd, hinc, hdownload, if_pos hpending, if_neg hdone,
          CalcSignals.rate_clk hmain hstart, setRates_eq_of_primed hprimed hreg hstart]

/-- The clock edge at which a byte comes. -/
theorem InStep.rateLoad_recvByte {u : RecvUart} {c : CalcSignals} (h : InStep u c.toCalcProc1)
    (hlisten : RevLimits.Listening u) (dataReady running : Bool) (b : FpgaByte) :
    rateLoad (u.clk dataReady (some b)) (c.clk running u) = (rateLoad u c).recvByte b := by
  obtain ⟨hflag, hstart, -⟩ := h.of_listening hlisten
  obtain ⟨hreg, hnext⟩ := hlisten
  cases hparam : b.cmdParam with
  | true | false =>
      simp [RecvUart.clk, RecvUart.uartCase, rateLoad, Pending, RateLoad.recvByte, hreg,
        hnext, hflag, hparam, CalcSignals.rate_clk_of_not_startCalc hstart]

/-- `start_calc` is set two edges before `done` is left. -/
theorem InStep.primed_clk {u : RecvUart} {c : CalcSignals} (h : InStep u c.toCalcProc1)
    (dataReady running : Bool) (rx : Option FpgaByte) :
    Primed (u.clk dataReady rx) (c.clk running u) := by
  intro hreg' hstart' r hcmd
  have hnext : u.stateUartNext2 = .done := hreg'
  cases h with
  | waking _ hnext' => simp [hnext] at hnext'
  | quiet _ hnext' | listening _ hnext' | received _ hnext' | checking _ hnext'
  | computed _ hnext' | leaving _ hnext' =>
      rw [hnext] at hnext'
      cases hnext'
  | checked hreg _ hstart hrest =>
      have hflag : u.startCalc = true := by
        by_contra hne
        simp_all [RecvUart.clk, RecvUart.uartCase]
      have hsame : u.mcmd = r.cmd := by
        simpa [RecvUart.clk, RecvUart.uartCase, hreg] using hcmd
      rw [CalcSignals.dlParam_clk hrest.1 hflag running hsame]
      simp [RecvUart.clk, RecvUart.uartCase, hreg]
  | computing hreg | passing hreg =>
      simp [RecvUart.clk, RecvUart.uartCase, hreg] at hstart'

/-! ## Runs of the line -/

/-- Where `recv_uart` is when it is about to wait for a byte. -/
theorem InStep.reg_of_next1 {u : RecvUart} {c : CalcProc1} (h : InStep u c)
    (hnext : u.stateUartNext2 = .next1) :
    u.stateUartReg2 = .idle2 ∨ u.stateUartReg2 = .next1 := by
  cases h with
  | listening hreg => exact hreg
  | waking _ hnext' | passing _ hnext' =>
      rw [hnext] at hnext'
      rcases hnext' with h | h <;> cases h
  | quiet _ hnext' | received _ hnext' | checking _ hnext' | checked _ hnext'
  | computing _ hnext' | computed _ hnext' | leaving _ hnext' =>
      rw [hnext] at hnext'
      cases hnext'

namespace CommandLink

/-- The processes are in step, and a byte is complete only when `recv_uart` waits for it. -/
structure Inv (s : CommandLink) : Prop where
  inStep : InStep s.recvUart s.calcProc1.toCalcProc1
  primed : Primed s.recvUart s.calcProc1
  startRx : s.recvUart.startRx = true → s.recvUart.stateUartNext2 = .next1
  tick2 : s.tick2 = true → s.rReg = 0 ∧ RevLimits.Listening s.recvUart

theorem inv_reset (s : CalcSignals) : (reset s).Inv where
  inStep := .waking rfl (.inl rfl) rfl ⟨rfl, rfl⟩
  primed := by
    intro hreg
    cases hreg
  startRx := by
    intro hstart
    cases hstart
  tick2 := by
    intro htick
    cases htick

theorem Inv.doneRx_listening {s : CommandLink} (h : s.Inv) {e : FpgaEdge} {b : FpgaByte}
    (hb : s.doneRx e = some b) : RevLimits.Listening s.recvUart := by
  rw [doneRx] at hb
  split_ifs at hb with htick
  exact (h.tick2 htick).2

theorem Inv.startRx_clk {s : CommandLink} (h : s.Inv) (e : FpgaEdge)
    (hstart : (s.clk e).recvUart.startRx = true) :
    (s.clk e).recvUart.stateUartNext2 = .next1 := by
  have hnext := h.startRx
  cases hreg : s.recvUart.stateUartReg2 with
  | preIdle | start1 | done =>
      have hkept : s.recvUart.startRx = true := by
        simpa [clk, RecvUart.clk, RecvUart.uartCase, hreg] using hstart
      rcases h.inStep.reg_of_next1 (hnext hkept) with hreg' | hreg' <;>
        exact absurd (hreg.symm.trans hreg') (by decide)
  | idle2 =>
      cases hready : e.dataReady with
      | true => simp [clk, RecvUart.clk, RecvUart.uartCase, hreg, hready]
      | false =>
          simp only [clk, RecvUart.clk, RecvUart.uartCase, hreg, hready] at hstart ⊢
          exact hnext hstart
  | next1 =>
      cases hb : s.doneRx e with
      | none =>
          simp only [clk, RecvUart.clk, RecvUart.uartCase, hreg, hb] at hstart ⊢
          exact hnext hstart
      | some b =>
          simp only [clk, RecvUart.clk, RecvUart.uartCase, hreg, hb] at hstart
          split_ifs at hstart

theorem Inv.tick2_clk {s : CommandLink} (h : s.Inv) (e : FpgaEdge)
    (htick : (s.clk e).tick2 = true) :
    (s.clk e).rReg = 0 ∧ RevLimits.Listening (s.clk e).recvUart := by
  simp only [clk, Bool.and_eq_true, maxTick, decide_eq_true_eq] at htick
  obtain ⟨hstart, hmax⟩ := htick
  have hnext := h.startRx hstart
  have hnone : s.doneRx e = none := by
    rw [doneRx, if_neg]
    intro htick2
    have hzero := (h.tick2 htick2).1
    rw [hzero] at hmax
    cases hmax
  refine ⟨if_pos hmax, ?_⟩
  rcases h.inStep.reg_of_next1 hnext with hreg | hreg
  · cases hready : e.dataReady <;>
      simp [RevLimits.Listening, clk, RecvUart.clk, RecvUart.uartCase, hreg, hnext, hready]
  · simp [RevLimits.Listening, clk, RecvUart.clk, RecvUart.uartCase, hreg, hnext, hnone]

theorem Inv.clk {s : CommandLink} (h : s.Inv) (e : FpgaEdge) : (s.clk e).Inv where
  inStep := by
    cases hb : s.doneRx e with
    | none =>
        rw [CommandLink.clk, hb]
        exact (h.inStep.clk e.dataReady).1
    | some b =>
        rw [CommandLink.clk, hb]
        exact (h.inStep.recvByte (h.doneRx_listening hb) e.dataReady b).1
  primed := h.inStep.primed_clk e.dataReady e.stlvEngineRunning (s.doneRx e)
  startRx := h.startRx_clk e
  tick2 := h.tick2_clk e

/-- What the FPGA has made of the bytes that have come. -/
def load (s : CommandLink) : RateLoad := rateLoad s.recvUart s.calcProc1

theorem Inv.load_clk {s : CommandLink} (h : s.Inv) (e : FpgaEdge) :
    (s.clk e).load = (s.doneRx e).toList.foldl RateLoad.recvByte s.load := by
  cases hb : s.doneRx e with
  | none =>
      rw [CommandLink.clk, hb]
      exact h.inStep.rateLoad_clk h.primed e.dataReady e.stlvEngineRunning
  | some b =>
      rw [CommandLink.clk, hb]
      exact h.inStep.rateLoad_recvByte (h.doneRx_listening hb) e.dataReady e.stlvEngineRunning b

/-- After a run the bytes that came in it have been taken. -/
theorem Inv.exec {s : CommandLink} (h : s.Inv) (es : List FpgaEdge) :
    (Transition.exec CommandLink.clk s es).Inv ∧
      (Transition.exec CommandLink.clk s es).load =
        (s.received es).foldl RateLoad.recvByte s.load := by
  induction es generalizing s with
  | nil => exact ⟨h, rfl⟩
  | cons e es ih =>
      obtain ⟨hinv, hload⟩ := ih (h.clk e)
      refine ⟨hinv, ?_⟩
      rw [Transition.exec_cons, hload, h.load_clk e, received, List.foldl_append]

theorem received_append (s : CommandLink) (es fs : List FpgaEdge) :
    s.received (es ++ fs) =
      s.received es ++ (Transition.exec CommandLink.clk s es).received fs := by
  induction es generalizing s with
  | nil => rfl
  | cons e es ih => simp only [List.cons_append, received, ih, List.append_assoc,
      Transition.exec_cons]

/-! ## Between two messages -/

/-- At least four edges, and no byte is complete at one of them. -/
def Pause (es : List FpgaEdge) : Prop := 4 ≤ es.length ∧ ∀ e ∈ es, e.rx = none

instance (es : List FpgaEdge) : Decidable (Pause es) := inferInstanceAs (Decidable (_ ∧ _))

/-- How many edges the last mark is pending for. -/
def pendingFor (u : RecvUart) : ℕ :=
  match u.stateUartReg2, u.stateUartNext2 with
  | .next1, .start1 => 4
  | .start1, .start1 => 3
  | .start1, _ => 2
  | .done, .done => 1
  | _, _ => 0

theorem pendingFor_pos {u : RecvUart} (h : Pending u) : 0 < pendingFor u := by
  obtain ⟨-, ⟨hreg, hnext⟩ | hreg | ⟨hreg, hnext⟩⟩ := h
  · simp [pendingFor, hreg, hnext]
  · cases hnext : u.stateUartNext2 <;> simp [pendingFor, hreg, hnext]
  · simp [pendingFor, hreg, hnext]

theorem pendingFor_clk {u : RecvUart} {c : CalcProc1} (h : InStep u c) (dataReady : Bool) :
    pendingFor (u.clk dataReady none) ≤ pendingFor u - 1 := by
  cases h with
  | waking hreg hnext =>
      rcases hnext with hnext | hnext <;>
        simp [RecvUart.clk, RecvUart.uartCase, pendingFor, hreg, hnext]
  | quiet hreg hnext | leaving hreg hnext =>
      cases dataReady with
      | true | false => simp [RecvUart.clk, RecvUart.uartCase, pendingFor, hreg, hnext]
  | listening hreg hnext =>
      rcases hreg with hreg | hreg <;> cases dataReady <;>
        simp [RecvUart.clk, RecvUart.uartCase, pendingFor, hreg, hnext]
  | received hreg hnext | checking hreg hnext | checked hreg hnext | computed hreg hnext
  | computing hreg hnext =>
      simp [RecvUart.clk, RecvUart.uartCase, pendingFor, hreg, hnext]
  | passing hreg hnext =>
      rcases hnext with hnext | hnext <;>
        simp [RecvUart.clk, RecvUart.uartCase, pendingFor, hreg, hnext]

theorem Inv.pendingFor_exec {s : CommandLink} (h : s.Inv) {es : List FpgaEdge}
    (hnone : ∀ e ∈ es, e.rx = none) :
    pendingFor (Transition.exec CommandLink.clk s es).recvUart ≤
      pendingFor s.recvUart - es.length := by
  induction es generalizing s with
  | nil => exact Nat.le_refl _
  | cons e es ih =>
      have hone : s.doneRx e = none := by
        rw [doneRx, hnone e List.mem_cons_self]
        exact ite_self _
      have hclk := pendingFor_clk h.inStep e.dataReady
      have hrest := ih (h.clk e) fun e' he' => hnone e' (List.mem_cons_of_mem e he')
      rw [← hone] at hclk
      have hlen : (e :: es).length = es.length + 1 := rfl
      rw [Transition.exec_cons]
      refine hrest.trans ?_
      rw [hlen]
      exact (Nat.sub_le_sub_right hclk _).trans (by omega)

/-- After a pause nothing is pending. -/
theorem Inv.settled {s : CommandLink} (h : s.Inv) {pause : List FpgaEdge} (hpause : Pause pause) :
    let s' := Transition.exec CommandLink.clk s pause
    s'.load.rates = s'.calcProc1.rate := by
  intro s'
  have hle := h.pendingFor_exec hpause.2
  have hfour : pendingFor s.recvUart ≤ 4 := by
    rw [pendingFor]
    split <;> decide
  have hnot : ¬ Pending s'.recvUart := by
    intro hpending
    have hpos : 0 < pendingFor (Transition.exec CommandLink.clk s pause).recvUart :=
      pendingFor_pos hpending
    have hlen := hpause.1
    omega
  rw [load, rateLoad]
  exact if_neg hnot

theorem received_of_none {es : List FpgaEdge} (hnone : ∀ e ∈ es, e.rx = none)
    (s : CommandLink) : s.received es = [] := by
  induction es generalizing s with
  | nil => rfl
  | cons e es ih =>
      have hone : s.doneRx e = none := by
        rw [doneRx, hnone e List.mem_cons_self]
        exact ite_self _
      rw [received, hone, ih fun e' he' => hnone e' (List.mem_cons_of_mem e he')]
      rfl

/-- After a message, whatever came before, the register it names holds the entry for its own
parameter, and the other registers are as they were. -/
theorem rate_message (s₀ : CalcSignals) (v : BitVec 64) (r : RateReg)
    {before pause message pause' : List FpgaEdge} (hpause : Pause pause) (hpause' : Pause pause')
    (hmessage : (Transition.exec clk (reset s₀) (before ++ pause)).received message =
      startSendFPGA v)
    (hcmd : v.setWidth 8 = r.cmd) :
    let s₁ := Transition.exec clk (reset s₀) (before ++ pause)
    let s₂ := Transition.exec clk s₁ (message ++ pause')
    s₂.calcProc1.rate r = r.table (((v >>> 8).setWidth 8).extractLsb' 0 4) ∧
      ∀ r' ≠ r, s₂.calcProc1.rate r' = s₁.calcProc1.rate r' := by
  intro s₁ s₂
  have hinv₀ := (inv_reset s₀).exec before
  have hrates₁ : s₁.load.rates = s₁.calcProc1.rate := by
    have h := hinv₀.1.settled hpause
    rw [← Transition.exec_append] at h
    exact h
  have hinv₁ : s₁.Inv := ((inv_reset s₀).exec (before ++ pause)).1
  have hmid := hinv₁.exec message
  have hrates₂ : s₂.load.rates = s₂.calcProc1.rate := by
    have h := hmid.1.settled hpause'
    rw [← Transition.exec_append] at h
    exact h
  have hload : s₂.load = (startSendFPGA v).foldl RateLoad.recvByte s₁.load := by
    rw [(hinv₁.exec (message ++ pause')).2, received_append, hmessage,
      received_of_none hpause'.2, List.append_nil]
  have hset : s₂.calcProc1.rate =
      setRates r.cmd (((v >>> 8).setWidth 8).extractLsb' 0 4) s₁.calcProc1.rate := by
    rw [← hrates₂, hload, RateLoad.recvBytes_startSendFPGA, hrates₁, hcmd]
  refine ⟨?_, ?_⟩
  · rw [hset]
    exact if_pos rfl
  · intro r' hne
    rw [hset]
    exact if_neg fun h => hne (RateReg.cmd_injective h).symm

/-! ## A message on the line -/

/-- Registers before the reset, as a power-up may leave them. -/
def powerUp : CalcSignals where
  toCalcProc1 := .reset
  sendDelay := 0
  rpmMphDelay := 0
  adcDelay := 0
  adcGate := false
  stlvRevLimitOverride := false
  stlvFuelPumpOverride := false
  stlvStatus1 := 0
  stlvStatus3 := 0
  dtmfIndex := 0
  special := false
  startDtmf := false
  stlvDutyCycle := 0
  startPwm2 := false
  keyLen := 0
  noteLen := 0
  stlvDutyCycle2 := 0

/-- Edges at which nothing comes. -/
def quiet : List FpgaEdge := List.replicate 4 ⟨false, none, false⟩

/-- A value sent with a tick of the line for each byte. -/
def sendEdges (v : BitVec 64) : List FpgaEdge :=
  (startSendFPGA v).flatMap fun b => List.replicate dvsrMu19200 ⟨true, some b, false⟩

/-- `SET_RPM_MPH_UPDATE_RATE` with the parameter 9, and a mark among those that do not count. -/
theorem rate_message_rpmMphDelay :
    let s₁ := Transition.exec clk (reset powerUp) ([] ++ quiet)
    let s₂ := Transition.exec clk s₁ (sendEdges 0xFF0902 ++ quiet)
    s₂.calcProc1.rate .rpmMphDelay = 18750 ∧
      ∀ r' ≠ .rpmMphDelay, s₂.calcProc1.rate r' = s₁.calcProc1.rate r' :=
  rate_message powerUp 0xFF0902 .rpmMphDelay (by decide) (by decide) (by decide +kernel) rfl

end CommandLink

end TruckControl
