import TruckControl.Model.RevLimits

/-!
# How the FPGA sets the rev limits

A limit is set through two processes that meet for a few clock edges at every byte. Seen
apart from the clock they take bytes one by one.
-/

namespace TruckControl

/-! ## The limits and the bytes that set them -/

structure Limits where
  high : BitVec 26
  low : BitVec 26
  deriving DecidableEq, Repr

namespace Limits

/-- What a command with its first parameter makes of the limits. -/
def set (cmd param : UCHAR) (l : Limits) : Limits :=
  if cmd = setHighRevLimit then { l with high := hrevLimit (param.extractLsb' 0 4) }
  else if cmd = setLowRevLimit then { l with low := lrevLimit (param.extractLsb' 0 4) }
  else l

theorem set_set (cmd param : UCHAR) (l : Limits) :
    set cmd param (set cmd param l) = set cmd param l := by
  simp only [set]
  split_ifs <;> rfl

/-- A value of the queue, as the bytes sent of it set the limits. -/
def setValue (l : Limits) (v : BitVec 64) : Limits :=
  l.set (v.setWidth 8) ((v >>> 8).setWidth 8)

/-- A frame to the STM32, as the values it puts on the queue set them. -/
def setFrame (l : Limits) (frame : SendSerial) : Limits :=
  (revLimitValues frame fun _ => 0).foldl setValue l

end Limits

/-- The FPGA, apart from the clock. -/
structure FpgaLoad where
  mcmd : UCHAR
  incParams : BitVec 8
  download : ℕ → UCHAR
  limits : Limits

namespace FpgaLoad

/-- A byte is taken, and the limits are set if it is the mark. -/
def recvByte (m : FpgaLoad) (b : FpgaByte) : FpgaLoad :=
  if b.cmdParam then { m with mcmd := b.dataRx, incParams := 0 }
  else
    let download := Function.update m.download m.incParams.toNat b.dataRx
    { m with
      incParams := m.incParams + 1
      download := download
      limits := if b.dataRx = 0xFF then m.limits.set m.mcmd (download 0) else m.limits }

/-- After `k` parameters of a command: setting the limits gives `l`. -/
structure Carries (cmd param : UCHAR) (l : Limits) (k : ℕ) (m : FpgaLoad) : Prop where
  mcmd : m.mcmd = cmd
  incParams : m.incParams = BitVec.ofNat 8 k
  download : m.download 0 = param
  limits : m.limits.set cmd param = l

variable {cmd param : UCHAR} {l : Limits} {k : ℕ} {m : FpgaLoad}

theorem Carries.recvByte (h : m.Carries cmd param l k) (hk : 0 < k) (hlt : k < 256) (b : UCHAR) :
    (m.recvByte ⟨false, b⟩).Carries cmd param l (k + 1) := by
  have hinc : m.incParams.toNat = k := by
    rw [h.incParams, BitVec.toNat_ofNat, Nat.mod_eq_of_lt hlt]
  have hdownload : Function.update m.download m.incParams.toNat b 0 = param := by
    rw [Function.update_of_ne (by omega), h.download]
  refine ⟨h.mcmd, ?_, hdownload, ?_⟩
  · simp [FpgaLoad.recvByte, h.incParams, BitVec.ofNat_add]
  · simp only [FpgaLoad.recvByte, Bool.false_eq_true, if_false, hdownload, h.mcmd]
    split_ifs
    · rw [Limits.set_set, h.limits]
    · exact h.limits

/-- With the mark the limits are set. -/
theorem Carries.mark (h : m.Carries cmd param l k) (hk : 0 < k) (hlt : k < 256) :
    (m.recvByte ⟨false, 0xFF⟩).limits = l := by
  have hinc : m.incParams.toNat = k := by
    rw [h.incParams, BitVec.toNat_ofNat, Nat.mod_eq_of_lt hlt]
  have hdownload : Function.update m.download m.incParams.toNat 0xFF 0 = param := by
    rw [Function.update_of_ne (by omega), h.download]
  simp only [FpgaLoad.recvByte, Bool.false_eq_true, if_false, if_true, hdownload, h.mcmd]
  exact h.limits

theorem carries_first (m : FpgaLoad) (cmd param : UCHAR) :
    ((m.recvByte ⟨true, cmd⟩).recvByte ⟨false, param⟩).Carries cmd param
      (m.limits.set cmd param) 1 := by
  have hdownload : Function.update m.download 0 param 0 = param := Function.update_self ..
  refine ⟨rfl, rfl, hdownload, ?_⟩
  simp only [FpgaLoad.recvByte, Bool.false_eq_true, if_false, if_true, BitVec.toNat_zero,
    hdownload, BitVec.ofNat_eq_ofNat]
  split_ifs
  · exact Limits.set_set cmd param m.limits
  · rfl

/-- The bytes of a value set the limits by its command and its first parameter. -/
theorem recvBytes_startSendFPGA (m : FpgaLoad) (v : BitVec 64) :
    ((startSendFPGA v).foldl recvByte m).limits = m.limits.setValue v := by
  have h1 := carries_first m (v.setWidth 8) ((v >>> 8).setWidth 8)
  have h2 := h1.recvByte (by decide) (by decide) ((v >>> 8 >>> 8).setWidth 8)
  have h3 := h2.recvByte (by decide) (by decide) ((v >>> 8 >>> 8 >>> 8).setWidth 8)
  have h4 := h3.recvByte (by decide) (by decide) ((v >>> 8 >>> 8 >>> 8 >>> 8).setWidth 8)
  have h5 := h4.recvByte (by decide) (by decide) ((v >>> 8 >>> 8 >>> 8 >>> 8 >>> 8).setWidth 8)
  have h6 := h5.recvByte (by decide) (by decide)
    ((v >>> 8 >>> 8 >>> 8 >>> 8 >>> 8 >>> 8).setWidth 8)
  have h7 := h6.recvByte (by decide) (by decide)
    ((v >>> 8 >>> 8 >>> 8 >>> 8 >>> 8 >>> 8 >>> 8).setWidth 8)
  exact h7.mark (by decide) (by decide)

end FpgaLoad

/-! ## The clock edges -/

namespace CalcProc1

def AtRest (c : CalcProc1) : Prop := c.mainReg1 = .idle1a ∧ c.mainNext1 = .idle1a

instance (c : CalcProc1) : Decidable c.AtRest := inferInstanceAs (Decidable (_ ∧ _))

def limits (c : CalcProc1) : Limits := ⟨c.highRevLimit, c.lowRevLimit⟩

theorem AtRest.clk {c : CalcProc1} (h : c.AtRest) {u : RecvUart} (hstart : u.startCalc = false) :
    c.clk u = c := by
  obtain ⟨hreg, hnext⟩ := h
  cases c
  simp_all [CalcProc1.clk]

/-- The first edge at which `start_calc` is seen. The limits may be set by a parameter of an
earlier command, which the second edge makes up for. -/
theorem AtRest.clk_start {c : CalcProc1} (h : c.AtRest) {u : RecvUart}
    (hstart : u.startCalc = true) :
    (c.clk u).mainReg1 = .idle1a ∧ (c.clk u).mainNext1 ≠ .idle1a ∧
      ((c.clk u).limits.set u.mcmd (u.download 0) = c.limits.set u.mcmd (u.download 0)) ∧
      (u.mcmd = setHighRevLimit ∨ u.mcmd = setLowRevLimit →
        (c.clk u).dlParam = (u.download 0).extractLsb' 0 4) := by
  obtain ⟨hreg, hnext⟩ := h
  simp only [CalcProc1.clk, hreg, hstart, if_true, hnext, mcmdCase, limits, Limits.set]
  split_ifs <;> simp_all

/-- The second edge. -/
theorem clk_again {c : CalcProc1} {u : RecvUart} (hreg : c.mainReg1 = .idle1a)
    (hnext : c.mainNext1 ≠ .idle1a) (hstart : u.startCalc = true)
    (hparam : u.mcmd = setHighRevLimit ∨ u.mcmd = setLowRevLimit →
      c.dlParam = (u.download 0).extractLsb' 0 4) :
    (c.clk u).mainReg1 ≠ .idle1a ∧ (c.clk u).mainNext1 ≠ .idle1a ∧
      (c.clk u).limits = c.limits.set u.mcmd (u.download 0) := by
  simp only [CalcProc1.clk, hreg, hstart, if_true, mcmdCase, limits, Limits.set]
  split_ifs <;> simp_all

theorem clk_leaving {c : CalcProc1} (hreg : c.mainReg1 ≠ .idle1a) (u : RecvUart) :
    (c.clk u).mainReg1 = c.mainNext1 ∧ (c.clk u).mainNext1 = .idle1a ∧
      (c.clk u).limits = c.limits := by
  cases hmain : c.mainReg1 with
  | idle1a => exact absurd hmain hreg
  | doMcmd | otherCmd => simp [CalcProc1.clk, hmain, limits]

end CalcProc1

/-- How far the two processes are with a byte. -/
inductive InStep (u : RecvUart) (c : CalcProc1) : Prop where
  | waking (hreg : u.stateUartReg2 = .preIdle)
      (hnext : u.stateUartNext2 = .preIdle ∨ u.stateUartNext2 = .idle2)
      (hstart : u.startCalc = false) (hrest : c.AtRest)
  | quiet (hreg : u.stateUartReg2 = .idle2) (hnext : u.stateUartNext2 = .idle2)
      (hstart : u.startCalc = false) (hrest : c.AtRest)
  | listening (hreg : u.stateUartReg2 = .idle2 ∨ u.stateUartReg2 = .next1)
      (hnext : u.stateUartNext2 = .next1) (hflag : u.stlvFlag = 0)
      (hstart : u.startCalc = false) (hrest : c.AtRest)
  | received (hreg : u.stateUartReg2 = .next1) (hnext : u.stateUartNext2 = .start1)
      (hstart : u.startCalc = false) (hrest : c.AtRest)
  | checking (hreg : u.stateUartReg2 = .start1) (hnext : u.stateUartNext2 = .start1)
      (hstart : u.startCalc = false) (hrest : c.AtRest)
  | checked (hreg : u.stateUartReg2 = .start1) (hnext : u.stateUartNext2 = .done)
      (hstart : u.startCalc = decide (u.stlvFlag = 0xFF)) (hrest : c.AtRest)
  /-- The first edge of `calc_proc1` is over. -/
  | computing (hreg : u.stateUartReg2 = .done) (hnext : u.stateUartNext2 = .done)
      (hflag : u.stlvFlag = 0xFF) (hstart : u.startCalc = true)
      (hmain : c.mainReg1 = .idle1a) (hbusy : c.mainNext1 ≠ .idle1a)
      (hparam : u.mcmd = setHighRevLimit ∨ u.mcmd = setLowRevLimit →
        c.dlParam = (u.download 0).extractLsb' 0 4)
  /-- Nothing is to be computed. -/
  | passing (hreg : u.stateUartReg2 = .done)
      (hnext : u.stateUartNext2 = .done ∨ u.stateUartNext2 = .idle2)
      (hflag : u.stlvFlag ≠ 0xFF) (hstart : u.startCalc = false) (hrest : c.AtRest)
  | computed (hreg : u.stateUartReg2 = .done) (hnext : u.stateUartNext2 = .idle2)
      (hstart : u.startCalc = false)
      (hmain : c.mainReg1 ≠ .idle1a) (hbusy : c.mainNext1 ≠ .idle1a)
  | leaving (hreg : u.stateUartReg2 = .idle2) (hnext : u.stateUartNext2 = .idle2)
      (hstart : u.startCalc = false)
      (hmain : c.mainReg1 ≠ .idle1a) (hbusy : c.mainNext1 = .idle1a)

/-- A mark has been received, and its last edge of `calc_proc1` is still to come. -/
def Pending (u : RecvUart) : Prop :=
  u.stlvFlag = 0xFF ∧
    (u.stateUartReg2 = .next1 ∧ u.stateUartNext2 = .start1 ∨ u.stateUartReg2 = .start1 ∨
      u.stateUartReg2 = .done ∧ u.stateUartNext2 = .done)

instance (u : RecvUart) : Decidable (Pending u) := inferInstanceAs (Decidable (_ ∧ _))

/-- The FPGA apart from the clock: what is pending is done. -/
def fpgaLoad (u : RecvUart) (c : CalcProc1) : FpgaLoad where
  mcmd := u.mcmd
  incParams := u.incParams
  download := u.download
  limits := if Pending u then c.limits.set u.mcmd (u.download 0) else c.limits

/-- A clock edge without a byte. -/
theorem InStep.clk {u : RecvUart} {c : CalcProc1} (h : InStep u c) (dataReady : Bool) :
    InStep (u.clk dataReady none) (c.clk u) ∧
      fpgaLoad (u.clk dataReady none) (c.clk u) = fpgaLoad u c := by
  cases h with
  | waking hreg hnext hstart hrest =>
      rw [hrest.clk hstart]
      rcases hnext with hnext | hnext
      · refine ⟨.waking ?_ ?_ ?_ hrest, ?_⟩ <;>
          simp [RecvUart.clk, RecvUart.uartCase, fpgaLoad, Pending, hreg, hnext, hstart]
      · refine ⟨.quiet ?_ ?_ ?_ hrest, ?_⟩ <;>
          simp [RecvUart.clk, RecvUart.uartCase, fpgaLoad, Pending, hreg, hnext, hstart]
  | quiet hreg hnext hstart hrest =>
      rw [hrest.clk hstart]
      cases dataReady with
      | true =>
          refine ⟨.listening ?_ ?_ ?_ ?_ hrest, ?_⟩ <;>
            simp [RecvUart.clk, RecvUart.uartCase, fpgaLoad, Pending, hreg, hnext]
      | false =>
          refine ⟨.quiet ?_ ?_ ?_ hrest, ?_⟩ <;>
            simp [RecvUart.clk, RecvUart.uartCase, fpgaLoad, Pending, hreg, hnext]
  | listening hreg hnext hflag hstart hrest =>
      rw [hrest.clk hstart]
      rcases hreg with hreg | hreg
      · cases dataReady with
        | true | false =>
            refine ⟨.listening ?_ ?_ ?_ ?_ hrest, ?_⟩ <;>
              simp [RecvUart.clk, RecvUart.uartCase, fpgaLoad, Pending, hreg, hnext, hflag]
      · refine ⟨.listening ?_ ?_ ?_ ?_ hrest, ?_⟩ <;>
          simp [RecvUart.clk, RecvUart.uartCase, fpgaLoad, Pending, hreg, hnext, hstart, hflag]
  | received hreg hnext hstart hrest =>
      rw [hrest.clk hstart]
      refine ⟨.checking ?_ ?_ ?_ hrest, ?_⟩ <;>
        simp [RecvUart.clk, RecvUart.uartCase, fpgaLoad, Pending, hreg, hnext, hstart]
  | checking hreg hnext hstart hrest =>
      rw [hrest.clk hstart]
      refine ⟨.checked ?_ ?_ ?_ hrest, ?_⟩ <;>
        simp [RecvUart.clk, RecvUart.uartCase, fpgaLoad, Pending, hreg, hnext, hstart]
  | checked hreg hnext hstart hrest =>
      by_cases hflag : u.stlvFlag = 0xFF
      · rw [decide_eq_true hflag] at hstart
        obtain ⟨hmain, hbusy, hlimits, hparam⟩ := hrest.clk_start hstart
        refine ⟨.computing ?_ ?_ ?_ ?_ hmain hbusy ?_, ?_⟩ <;>
          simp_all [RecvUart.clk, RecvUart.uartCase, fpgaLoad, Pending]
      · rw [decide_eq_false hflag] at hstart
        rw [hrest.clk hstart]
        refine ⟨.passing ?_ ?_ ?_ ?_ hrest, ?_⟩ <;>
          simp_all [RecvUart.clk, RecvUart.uartCase, fpgaLoad, Pending]
  | computing hreg hnext hflag hstart hmain hbusy hparam =>
      obtain ⟨hmain', hbusy', hlimits⟩ := CalcProc1.clk_again hmain hbusy hstart hparam
      refine ⟨.computed ?_ ?_ ?_ hmain' hbusy', ?_⟩ <;>
        simp [RecvUart.clk, RecvUart.uartCase, fpgaLoad, Pending, hreg, hnext, hflag, hlimits]
  | passing hreg hnext hflag hstart hrest =>
      rw [hrest.clk hstart]
      rcases hnext with hnext | hnext
      · refine ⟨.passing ?_ ?_ ?_ ?_ hrest, ?_⟩ <;>
          simp_all [RecvUart.clk, RecvUart.uartCase, fpgaLoad, Pending]
      · refine ⟨.quiet ?_ ?_ ?_ hrest, ?_⟩ <;>
          simp [RecvUart.clk, RecvUart.uartCase, fpgaLoad, Pending, hreg, hnext]
  | computed hreg hnext hstart hmain hbusy =>
      obtain ⟨hmain', hbusy', hlimits⟩ := CalcProc1.clk_leaving hmain u
      rw [← hmain'] at hbusy
      refine ⟨.leaving ?_ ?_ ?_ hbusy hbusy', ?_⟩ <;>
        simp [RecvUart.clk, RecvUart.uartCase, fpgaLoad, Pending, hreg, hnext, hlimits]
  | leaving hreg hnext hstart hmain hbusy =>
      obtain ⟨hmain', hbusy', hlimits⟩ := CalcProc1.clk_leaving hmain u
      rw [hbusy] at hmain'
      cases dataReady with
      | true =>
          refine ⟨.listening ?_ ?_ ?_ ?_ ⟨hmain', hbusy'⟩, ?_⟩ <;>
            simp [RecvUart.clk, RecvUart.uartCase, fpgaLoad, Pending, hreg, hnext, hlimits]
      | false =>
          refine ⟨.quiet ?_ ?_ ?_ ⟨hmain', hbusy'⟩, ?_⟩ <;>
            simp [RecvUart.clk, RecvUart.uartCase, fpgaLoad, Pending, hreg, hnext, hlimits]

/-- The process waits for a byte in one of the phases only. -/
theorem InStep.of_listening {u : RecvUart} {c : CalcProc1} (h : InStep u c)
    (hlisten : RevLimits.Listening u) :
    u.stlvFlag = 0 ∧ u.startCalc = false ∧ c.AtRest := by
  obtain ⟨hreg, hnext⟩ := hlisten
  cases h with
  | listening _ _ hflag hstart hrest => exact ⟨hflag, hstart, hrest⟩
  | waking hreg' | quiet hreg' | checking hreg' | checked hreg' | computing hreg' | passing hreg'
  | computed hreg' | leaving hreg' =>
      rw [hreg] at hreg'
      cases hreg'
  | received _ hnext' =>
      rw [hnext] at hnext'
      cases hnext'

/-- The clock edge at which a byte is complete, and the process waits for it. -/
theorem InStep.recvByte {u : RecvUart} {c : CalcProc1} (h : InStep u c)
    (hlisten : RevLimits.Listening u) (dataReady : Bool) (b : FpgaByte) :
    InStep (u.clk dataReady (some b)) (c.clk u) ∧
      fpgaLoad (u.clk dataReady (some b)) (c.clk u) = (fpgaLoad u c).recvByte b := by
  obtain ⟨hflag, hstart, hrest⟩ := h.of_listening hlisten
  obtain ⟨hreg, hnext⟩ := hlisten
  rw [hrest.clk hstart]
  cases hparam : b.cmdParam with
  | true | false =>
      refine ⟨.received ?_ ?_ ?_ hrest, ?_⟩ <;>
        simp [RecvUart.clk, RecvUart.uartCase, fpgaLoad, Pending, FpgaLoad.recvByte, hreg,
          hnext, hflag, hstart, hparam]

/-! ## What a value and a frame set -/

theorem Limits.setValue_pack64 (l : Limits) (buff : ℕ → UCHAR) :
    l.setValue (pack64 buff) = l.set (buff 0) (buff 1) := by
  have h7 := belowBit_setWidth (buff 7)
  have h6 := h7.pushByte (buff 6)
  have h5 := h6.pushByte (buff 5)
  have h4 := h5.pushByte (buff 4)
  have h3 := h4.pushByte (buff 3)
  have h2 := h3.pushByte (buff 2)
  have h1 := h2.pushByte (buff 1)
  rw [Limits.setValue, pack64]
  simp only [setWidth_pushByte, pushByte_shift (by decide) h1]

/-- No other command sets a limit. -/
theorem Limits.setValue_otherCmd (l : Limits) (cmd : OtherFpgaCmd) (ucbuff : ℕ → UCHAR) :
    l.setValue (pack64 (cmd.buff ucbuff)) = l := by
  rw [Limits.setValue_pack64, OtherFpgaCmd.buff, Function.update_self]
  cases cmd <;> rfl

/-- What is in the rest of the buffer does not matter. -/
theorem Limits.setValues_frame (l : Limits) (frame : SendSerial) (ucbuff : ℕ → UCHAR) :
    (revLimitValues frame ucbuff).foldl Limits.setValue l = l.setFrame frame := by
  have hset (cmd : FpgaCmd) (param : UCHAR) (l : Limits) :
      l.setValue (pack64 (fpgaBuff cmd param ucbuff)) =
        l.setValue (pack64 (fpgaBuff cmd param fun _ => 0)) := by
    rw [Limits.setValue_pack64, Limits.setValue_pack64]
    rfl
  rw [Limits.setFrame, revLimitValues, revLimitValues]
  split_ifs
  · split <;> simp only [sendFpga, List.foldl_cons, List.foldl_nil, hset]
  · rfl

theorem Limits.setFrame_highRevLimit (l : Limits) (msgBuf : ℕ → UCHAR) (h : HostConfig) :
    l.setFrame (h.highRevLimit msgBuf).2 =
      { l with high := hrevLimit (((word msgBuf 2).setWidth 8).extractLsb' 0 4) } := by
  have haccept : Stm32.Accepts CmdType.highRevLimit.toByte := by decide
  rw [Limits.setFrame, HostConfig.highRevLimit, revLimitValues, if_pos haccept,
    CmdType.ofByte_toByte]
  simp only [List.foldl_cons, List.foldl_nil, Limits.setValue_pack64]
  rfl

theorem Limits.setFrame_lowRevLimit (l : Limits) (msgBuf : ℕ → UCHAR) (h : HostConfig) :
    l.setFrame (h.lowRevLimit msgBuf).2 =
      { l with low := lrevLimit (((word msgBuf 2).setWidth 8).extractLsb' 0 4) } := by
  have haccept : Stm32.Accepts CmdType.lowRevLimit.toByte := by decide
  rw [Limits.setFrame, HostConfig.lowRevLimit, revLimitValues, if_pos haccept,
    CmdType.ofByte_toByte]
  simp only [List.foldl_cons, List.foldl_nil, Limits.setValue_pack64]
  rfl

theorem Limits.setFrame_updateConfig (l : Limits) (msgBuf : ℕ → UCHAR) (h : HostConfig) :
    l.setFrame (h.updateConfig msgBuf).2 =
      { high := hrevLimit (((word msgBuf 6).setWidth 8).extractLsb' 0 4)
        low := lrevLimit (((word msgBuf 8).setWidth 8).extractLsb' 0 4) } := by
  have haccept : Stm32.Accepts CmdType.sendConfig2.toByte := by decide
  rw [Limits.setFrame, HostConfig.updateConfig, revLimitValues, if_pos haccept,
    CmdType.ofByte_toByte]
  simp only [sendFpga, List.foldl_cons, List.foldl_nil, Limits.setValue_pack64]
  rfl

end TruckControl
