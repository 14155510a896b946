import TruckControl.Library.Register
import TruckControl.Verification.SettingsDelivery

/-! # The gate of the ADCs, as the server, the STM32 and the FPGA see it -/

namespace TruckControl

namespace FpgaSettings

variable {s : FpgaSettings}

/-- What a frame makes of `send_adc`. -/
def sendAdcOf (frame : SendSerial) : Option ℕ :=
  if CmdType.ofByte frame.cmd = some .adcGate then some (if frame.buff 1 > 0#8 then 1 else 0)
  else none

theorem sendAdc_xQueueSend (cmd : UCHAR) (s : Stm32) : (s.xQueueSend cmd).sendAdc = s.sendAdc := by
  rw [Stm32.xQueueSend]
  split_ifs <;> rfl

theorem sendAdc_startRecv7200 (s : Stm32) (frame : SendSerial) :
    (s.startRecv7200 frame).sendAdc = (sendAdcOf frame).getD s.sendAdc := by
  rw [Stm32.startRecv7200, sendAdcOf]
  cases hcmd : CmdType.ofByte frame.cmd with
  | none => simp
  | some cmd =>
      have hbyte := CmdType.eq_toByte_of_ofByte hcmd
      by_cases hgate : cmd = .adcGate
      · rw [hgate] at hbyte
        rw [if_pos (by rw [hbyte]; decide), hgate]
        rfl
      · have hne : some cmd ≠ some .adcGate := fun h => hgate (Option.some.inj h)
        rw [if_neg hne, Option.getD_none]
        by_cases haccept : actuator frame.cmd ∨ frame.cmd ∈ Stm32.recvCommands.map CmdType.toByte
        · rw [if_pos haccept]
          cases cmd with
          | adcGate => exact absurd rfl hgate
          | getConfig2 => exact sendAdc_xQueueSend ..
          | _ => rfl
        · rw [if_neg haccept]

/-- No other task writes `send_adc`. -/
theorem sendAdc_run (s : Stm32) (task : Stm32Task) : (task.run s).sendAdc = s.sendAdc := by
  cases task with
  | startDefaultTask key =>
      cases key <;> simp [Stm32Task.run, Stm32.startDefaultTask, sendAdc_xQueueSend]
  | callback01 rawData =>
      simp only [Stm32Task.run, Stm32.callback01, Stm32.alarm, Stm32.switchFanOn,
        Stm32.switchFanOff]
      split_ifs <;> simp [sendAdc_xQueueSend]
  | startRecvFPGA =>
      simp only [Stm32Task.run, Stm32.startRecvFPGA]
      split_ifs <;> simp [sendAdc_xQueueSend]
  | startTask7200 =>
      rw [Stm32Task.run, Stm32.startTask7200]
      split <;> rfl

/-- `send_adc` once all frames have been processed. -/
def adcToCome (s : FpgaSettings) : ℕ := Register.run sendAdcOf s.stm32.sendAdc s.toStm32

/-- Whether `LCD_serial_queue` is the last that has stored `enable_adc_send_data`. -/
def clears (cleared : Bool) : SettingEvent → Bool
  | .lcdSerialQueue => true
  | .message .enableAdcSendData _ | .message .adcGate _ => false
  | _ => cleared

/-- `send_adc` comes to what has been chosen for the gate, and the server has it if it was not
cleared since. -/
def GateChosen (c : Choices) (cleared : Bool) (s : FpgaSettings) : Prop :=
  ∀ b, c.bit .adcGate = some b →
    s.host.gate = (b && !cleared) ∧ s.adcToCome = if b then 1 else 0

theorem adcToCome_queue (s : FpgaSettings) (v : BitVec 64) :
    (s.queue v).adcToCome = s.adcToCome := by
  rw [queue]
  split_ifs <;> rfl

theorem sendAdcOf_otherFrame {cmd : CmdType} (h : OtherFrame cmd) (buf : ℕ → UCHAR) :
    sendAdcOf ⟨cmd.toByte, buf⟩ = none := by
  rw [sendAdcOf, if_neg]
  rw [CmdType.ofByte_toByte]
  rintro heq
  rw [Option.some.inj heq] at h
  exact absurd h (by decide)

theorem sendAdcOf_sendGate (enable : UINT) (gate : UCHAR) (h : HostSettings) :
    sendAdcOf (h.sendGate enable gate).2 = some (if gate > 0#8 then 1 else 0) := by
  have hbuff : (h.sendGate enable gate).2.buff 1 = gate := by
    change Function.update h.config.writeSerialBuffer 0 gate 0 = gate
    exact Function.update_self ..
  rw [sendAdcOf, if_pos (by rfl), hbuff]

/-- A message that is about the gate tells the STM32 what the server has decided. -/
theorem sendAdcOf_handle (h : HostSettings) (msg : SettingMsg) (msgBuf : ℕ → UCHAR)
    (cleared : Bool) :
    let c := SettingEvent.choices h (.message msg msgBuf)
    let done := h.handle msgBuf msg
    let cleared' := clears cleared (.message msg msgBuf)
    c.bit .adcGate = some done.1.gate ∧ cleared' = false ∧
        sendAdcOf done.2 = some (if done.1.gate then 1 else 0) ∨
      c.bit .adcGate = none ∧ cleared' = cleared ∧ sendAdcOf done.2 = none ∧
        done.1.gate = h.gate := by
  cases msg with
  | enableAdcSendData =>
      refine .inl ⟨rfl, rfl, (sendAdcOf_sendGate ..).trans ?_⟩
      have hgate : (h.handle msgBuf .enableAdcSendData).1.gate = decide (word msgBuf 2 ≠ 0) := rfl
      rw [hgate]
      by_cases hzero : word msgBuf 2 = 0
      · rw [hzero]
        rfl
      · rw [if_neg hzero, decide_eq_true hzero]
        rfl
  | adcGate =>
      refine .inl ⟨rfl, rfl, ?_⟩
      by_cases hzero : h.enableAdcSendData = 0
      · have hhandle : h.handle msgBuf .adcGate = h.sendGate 1 0xFF := if_pos hzero
        rw [hhandle]
        exact sendAdcOf_sendGate ..
      · have hhandle : h.handle msgBuf .adcGate = h.sendGate 0 0 := if_neg hzero
        rw [hhandle]
        exact sendAdcOf_sendGate ..
  | _ => exact .inr ⟨rfl, rfl, rfl, rfl⟩

/-- A frame at the end of those to the STM32. -/
theorem adcToCome_send (s : FpgaSettings) (host : HostSettings) (frame : SendSerial) :
    { s with host := host, toStm32 := s.toStm32 ++ [frame] }.adcToCome =
      (sendAdcOf frame).getD s.adcToCome := by
  rw [adcToCome, Register.run_append]
  rfl

theorem GateChosen.none_of_same {c : Choices} {cleared : Bool} (h : s.GateChosen c cleared)
    {t : FpgaSettings} (hhost : t.host = s.host) (hcome : t.adcToCome = s.adcToCome) :
    t.GateChosen (c.andThen .none) cleared := by
  intro b hb
  have hbit : c.bit .adcGate = some b := hb
  rw [hhost, hcome]
  exact h b hbit

theorem GateChosen.step {c : Choices} {cleared : Bool} (h : s.GateChosen c cleared)
    (e : SettingEvent) :
    (s.step e).GateChosen (c.andThen (e.choices s.host)) (clears cleared e) := by
  cases e with
  | message msg msgBuf =>
      intro b hb
      have hcome := adcToCome_send s (s.host.handle msgBuf msg).1 (s.host.handle msgBuf msg).2
      change (s.host.handle msgBuf msg).1.gate = (b && !clears cleared (.message msg msgBuf)) ∧
        adcToCome _ = _
      rcases sendAdcOf_handle s.host msg msgBuf cleared with
        ⟨hbit, hclears, hsend⟩ | ⟨hbit, hclears, hsend, hgate⟩
      · simp only [Choices.andThen, hbit, Option.some_or, Option.some.injEq] at hb
        rw [hsend, Option.getD_some] at hcome
        rw [hclears, Bool.not_false, Bool.and_true]
        exact ⟨hb, hcome.trans (by rw [hb])⟩
      · simp only [Choices.andThen, hbit, Option.none_or] at hb
        rw [hsend, Option.getD_none] at hcome
        obtain ⟨hhost, hbefore⟩ := h b hb
        rw [hclears]
        exact ⟨hgate.trans hhost, hcome.trans hbefore⟩
  | lcdSerialQueue =>
      intro b hb
      have hbit : c.bit .adcGate = some b := hb
      exact ⟨(Bool.and_false b).symm, (h b hbit).2⟩
  | otherFrame cmd buf =>
      refine h.none_of_same rfl ?_
      have hcome := adcToCome_send s s.host ⟨cmd.val.toByte, buf⟩
      rw [sendAdcOf_otherFrame cmd.property, Option.getD_none] at hcome
      exact hcome
  | stm32Task task =>
      refine h.none_of_same rfl ?_
      rw [FpgaSettings.step, adcToCome, sendAdc_run]
      rfl
  | startRecv7200 ucbuff =>
      refine h.none_of_same (host_step s (.startRecv7200 ucbuff)) ?_
      simp only [FpgaSettings.step]
      split
      · rename_i frame rest hsend hframes
        rw [adcToCome, adcToCome, hframes, Register.run_cons, sendAdc_startRecv7200]
      · rfl
  | xQueueSend =>
      refine h.none_of_same (host_step s .xQueueSend) ?_
      simp only [FpgaSettings.step]
      split
      · rfl
      · exact adcToCome_queue ..
  | tone cmd param ucbuff =>
      exact h.none_of_same (host_step s (.tone cmd param ucbuff)) (adcToCome_queue ..)
  | startSendFPGA =>
      refine h.none_of_same (host_step s .startSendFPGA) ?_
      simp only [FpgaSettings.step]
      split <;> rfl
  | clk dataReady doneRx running =>
      refine h.none_of_same (host_step s (.clk dataReady doneRx running)) ?_
      simp only [FpgaSettings.step]
      split <;> rfl

theorem GateChosen.exec {c : Choices} {cleared : Bool} (h : s.GateChosen c cleared)
    (es : List SettingEvent) :
    (Transition.exec FpgaSettings.step s es).GateChosen (c.andThen (chosen s.host es))
      (es.foldl clears cleared) := by
  induction es generalizing s c cleared with
  | nil => exact h
  | cons e es ih =>
      have hrest := ih (h.step e)
      rw [Choices.andThen_assoc, host_step] at hrest
      exact hrest

/-- Once everything is delivered after a message about the gate, the STM32 and the FPGA agree
with what the server has decided on it, and so does the status byte that is reported. The
server still has it unless `LCD_serial_queue` has started since. -/
theorem gate_of_delivered (host : HostSettings) (stm32 : Stm32) (signals : CalcSignals)
    {es : List SettingEvent} {b : Bool} (hchosen : (chosen host es).bit .adcGate = some b)
    (h : (Transition.exec step (start host stm32 signals) es).Delivered) :
    let s := Transition.exec step (start host stm32 signals) es
    (s.host.enableAdcSendData ≠ 0 ↔ b = true ∧ es.foldl clears false = false) ∧
      (s.stm32.sendAdc = 1 ↔ b = true) ∧ s.calcProc1.adcGate = b ∧
      s.calcProc1.stlvStatus3.getLsbD 2 = b := by
  have hstart : (start host stm32 signals).GateChosen .none false := by
    intro b hb
    cases hb
  have hrun := GateChosen.exec hstart es
  rw [Choices.none_andThen] at hrun
  obtain ⟨hgate, hcome⟩ := hrun b hchosen
  have hsettings := h.settings_eq
  have hflag := congrArg (fun l => l.flag .adcGate) hsettings
  have hstatus := congrArg (fun l => l.statusFlag .adcGate) hsettings
  simp only [Settings.choose, hchosen, Option.getD_some] at hflag hstatus
  rw [adcToCome, h.toStm32, Register.run_nil] at hcome
  rw [HostSettings.gate, Bool.eq_iff_iff, decide_eq_true_eq] at hgate
  refine ⟨hgate.trans (by simp), ?_, hflag, hstatus⟩
  · rw [hcome]
    cases b <;> simp

/-- `LCD_serial_queue` starts when the gate is open already. -/
def startsLate : List SettingEvent := openGate ++ [.lcdSerialQueue]

theorem Delivered.lcdSerialQueue (h : s.Delivered) : (s.step .lcdSerialQueue).Delivered :=
  ⟨h.lost, h.toStm32, h.toSend, h.sendFpga, h.line, h.uart, h.uartNext⟩

theorem delivered_startsLate :
    (Transition.exec step (start someSettings .init CommandLink.powerUp)
      startsLate).Delivered := by
  rw [startsLate, Transition.exec_append, Transition.exec_cons, Transition.exec_nil]
  exact delivered_openGate.lcdSerialQueue

/-- The server has closed it for itself, and the others have not. -/
theorem gate_of_delivered_startsLate :
    let s := Transition.exec step (start someSettings .init CommandLink.powerUp) openGate
    let t := Transition.exec step (start someSettings .init CommandLink.powerUp) startsLate
    (s.host.enableAdcSendData ≠ 0 ∧ s.stm32.sendAdc = 1 ∧ s.calcProc1.adcGate = true ∧
      s.calcProc1.stlvStatus3.getLsbD 2 = true) ∧
    (t.host.enableAdcSendData = 0 ∧ t.stm32.sendAdc = 1 ∧ t.calcProc1.adcGate = true ∧
      t.calcProc1.stlvStatus3.getLsbD 2 = true) := by
  intro s t
  have hopen := gate_of_delivered someSettings .init CommandLink.powerUp (b := true)
    (by decide) delivered_openGate
  have hlate := gate_of_delivered someSettings .init CommandLink.powerUp (b := true)
    (by decide) delivered_startsLate
  refine ⟨⟨hopen.1.mpr (by decide), hopen.2.1.mpr rfl, hopen.2.2⟩, ?_, hlate.2.1.mpr rfl,
    hlate.2.2⟩
  by_contra hne
  exact absurd (hlate.1.mp hne).2 (by decide)

end FpgaSettings

end TruckControl
