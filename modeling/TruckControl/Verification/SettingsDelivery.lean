import TruckControl.Verification.FpgaSettings

/-!
# The settings that a client has chosen

The FPGA is seen as the settings to which everything under way will bring it. A message
adds what it chooses, and nothing else that happens changes them.
-/

namespace TruckControl

/-! ## What a value and a frame set -/

theorem pack64_bytes (buff : ℕ → UCHAR) :
    (pack64 buff).setWidth 8 = buff 0 ∧ ((pack64 buff) >>> 8).setWidth 8 = buff 1 := by
  have h7 := belowBit_setWidth (buff 7)
  have h6 := h7.pushByte (buff 6)
  have h5 := h6.pushByte (buff 5)
  have h4 := h5.pushByte (buff 4)
  have h3 := h4.pushByte (buff 3)
  have h2 := h3.pushByte (buff 2)
  have h1 := h2.pushByte (buff 1)
  rw [pack64]
  simp only [setWidth_pushByte, pushByte_shift (by decide) h1, and_self]

namespace Settings

theorem setValue_pack64 (l : Settings) (buff : ℕ → UCHAR) :
    l.setValue (pack64 buff) = l.set (buff 0) (buff 1) := by
  rw [setValue, (pack64_bytes buff).1, (pack64_bytes buff).2]

/-- A frame to the STM32, as the values it puts on the queue change the settings. -/
def setFrame (l : Settings) (frame : SendSerial) : Settings :=
  (fpgaValues frame fun _ => 0).foldl setValue l

/-- What is in the rest of the buffer does not matter. -/
theorem setValues_frame (l : Settings) (frame : SendSerial) (ucbuff : ℕ → UCHAR) :
    (fpgaValues frame ucbuff).foldl setValue l = l.setFrame frame := by
  rw [setFrame, fpgaValues, fpgaValues]
  split_ifs
  · dsimp only
    split <;> simp only [sendFpga, List.foldl_cons, List.foldl_nil, setValue_pack64] <;> rfl
  · rfl

/-- A tone is none of the settings. -/
theorem set_tone (cmd : ToneCmd) (param : UCHAR) (l : Settings) :
    l.set cmd.toMcmd.toByte param = l := by
  refine Settings.ext ?_ ?_ ?_ ?_ <;> funext r <;> cases cmd <;> cases r <;> rfl

/-- The other frames are none either. -/
theorem setFrame_otherFrame {cmd : CmdType} (h : OtherFrame cmd) (buf : ℕ → UCHAR)
    (l : Settings) : l.setFrame ⟨cmd.toByte, buf⟩ = l := by
  rw [setFrame, fpgaValues]
  split_ifs
  · rw [CmdType.ofByte_toByte]
    cases cmd <;> first | rfl | exact absurd h (by decide)
  · rfl

end Settings

/-! ## What the client chooses -/

/-- For each register its parameter, and for each signal its bit, if there is one. -/
@[ext] structure Choices where
  param : RateReg → Option UCHAR
  bit : FlagReg → Option Bool

namespace Choices

def none : Choices := ⟨fun _ => .none, fun _ => .none⟩

/-- Later choices replace earlier ones. -/
def andThen (c d : Choices) : Choices where
  param r := (d.param r).or (c.param r)
  bit f := (d.bit f).or (c.bit f)

def ofParam (r : RateReg) (p : UCHAR) : Choices where
  param r' := if r' = r then some p else .none
  bit _ := .none

def ofBit (f : FlagReg) (b : Bool) : Choices where
  param _ := .none
  bit f' := if f' = f then some b else .none

theorem none_andThen (c : Choices) : none.andThen c = c := by
  refine Choices.ext ?_ ?_ <;> funext r <;> simp [none, andThen]

theorem andThen_assoc (c d e : Choices) :
    (c.andThen d).andThen e = c.andThen (d.andThen e) := by
  refine Choices.ext ?_ ?_ <;> funext r <;> simp [andThen, Option.or_assoc]

end Choices

/-- The settings with what has been chosen. -/
def Settings.choose (l : Settings) (c : Choices) : Settings where
  rate r := (c.param r).elim (l.rate r) fun p => r.table (p.extractLsb' 0 4)
  nibble r := (c.param r).elim (l.nibble r) fun p => p.extractLsb' 0 4
  flag f := (c.bit f).getD (l.flag f)
  statusFlag f := (c.bit f).getD (l.statusFlag f)

theorem Settings.choose_choose (l : Settings) (c d : Choices) :
    (l.choose c).choose d = l.choose (c.andThen d) := by
  refine Settings.ext ?_ ?_ ?_ ?_ <;> funext r
  · simp only [choose, Choices.andThen]
    cases d.param r <;> rfl
  · simp only [choose, Choices.andThen]
    cases d.param r <;> rfl
  · simp only [choose, Choices.andThen]
    cases d.bit r <;> rfl
  · simp only [choose, Choices.andThen]
    cases d.bit r <;> rfl

/-- The parameter of a message, of which one byte is passed on. -/
def paramByte (msgBuf : ℕ → UCHAR) (i : ℕ) : UCHAR := (word msgBuf i).setWidth 8

/-- What a message chooses; `gate` tells whether it opens the gate. -/
def SettingMsg.choices (msgBuf : ℕ → UCHAR) (gate : Bool) : SettingMsg → Choices
  | .highRevLimit => .ofParam .highRevLimit (paramByte msgBuf 2)
  | .lowRevLimit => .ofParam .lowRevLimit (paramByte msgBuf 2)
  | .setAdcRate => .ofParam .adcDelay (paramByte msgBuf 2)
  | .setRpmMphRate => .ofParam .rpmMphDelay (paramByte msgBuf 2)
  | .setFpgaRate => .ofParam .sendDelay (paramByte msgBuf 2)
  | .updateConfig =>
      (((Choices.ofParam .rpmMphDelay (paramByte msgBuf 2)).andThen
        (.ofParam .sendDelay (paramByte msgBuf 4))).andThen
          (.ofParam .highRevLimit (paramByte msgBuf 6))).andThen
            (.ofParam .lowRevLimit (paramByte msgBuf 8))
  | .sendRevLimitOverride => .ofBit .revLimitOverride ((paramByte msgBuf 2).getLsbD 0)
  | .sendFpOverride => .ofBit .fuelPumpOverride ((paramByte msgBuf 2).getLsbD 0)
  | .enableAdcSendData | .adcGate => .ofBit .adcGate gate

/-- The server's own view of the gate. -/
def HostSettings.gate (h : HostSettings) : Bool := h.enableAdcSendData ≠ 0

/-- What an event chooses, when it happens with the server in state `h`. -/
def SettingEvent.choices (h : HostSettings) : SettingEvent → Choices
  | .message msg msgBuf => msg.choices msgBuf (h.handle msgBuf msg).1.gate
  | _ => .none

namespace Settings

/-- A frame with one command for the FPGA. -/
theorem setFrame_one (m : Mcmd) {cmd : UCHAR} (buf : ℕ → UCHAR) (l : Settings)
    (hvalues : fpgaValues ⟨cmd, buf⟩ (fun _ => 0) = [pack64 (mcmdBuff m (buf 0) fun _ => 0)]) :
    l.setFrame ⟨cmd, buf⟩ = l.set m.toByte (buf 0) := by
  rw [setFrame, hvalues, List.foldl_cons, List.foldl_nil, setValue_pack64]
  rfl

theorem set_rate (r : RateReg) (p : UCHAR) (l : Settings) :
    l.set r.toMcmd.toByte p = l.choose (Choices.ofParam r p) := by
  refine Settings.ext ?_ ?_ ?_ ?_ <;> funext r' <;> cases r <;> cases r' <;> rfl

theorem set_flag (f : FlagReg) (p : UCHAR) (l : Settings) :
    l.set f.toMcmd.toByte p = l.choose (Choices.ofBit f (p.getLsbD 0)) := by
  refine Settings.ext ?_ ?_ ?_ ?_ <;> funext f' <;> cases f <;> cases f' <;> rfl

/-- The byte that opens the gate has its lowest bit set, and the other has not. -/
theorem setFrame_sendGate {enable : UINT} {gate : UCHAR}
    (hgate : gate.getLsbD 0 = decide (enable ≠ 0)) (h : HostSettings) (l : Settings) :
    l.setFrame (h.sendGate enable gate).2 =
      l.choose (Choices.ofBit .adcGate (h.sendGate enable gate).1.gate) := by
  have hvalues : fpgaValues (h.sendGate enable gate).2 (fun _ => 0) =
      [pack64 (mcmdBuff .adcCtl ((h.sendGate enable gate).2.buf 0) fun _ => 0)] := rfl
  have hset := (setFrame_one .adcCtl _ l hvalues).trans (set_flag .adcGate _ l)
  rw [Function.update_self, hgate] at hset
  exact hset

theorem setFrame_updateConfig (l : Settings) (h : HostConfig) (msgBuf : ℕ → UCHAR) (gate : Bool) :
    l.setFrame (h.updateConfig msgBuf).2 =
      l.choose (SettingMsg.choices msgBuf gate .updateConfig) := by
  simp only [SettingMsg.choices, ← choose_choose, ← set_rate]
  have hvalues : fpgaValues (h.updateConfig msgBuf).2 (fun _ => 0) =
      TruckControl.sendFpga (h.updateConfig msgBuf).2 fun _ => 0 := rfl
  rw [setFrame, hvalues]
  simp only [TruckControl.sendFpga, List.foldl_cons, List.foldl_nil, setValue_pack64]
  rfl

/-- The frame of a message does what the message chooses. -/
theorem setFrame_handle (l : Settings) (h : HostSettings) (msg : SettingMsg)
    (msgBuf : ℕ → UCHAR) :
    l.setFrame (h.handle msgBuf msg).2 =
      l.choose (SettingEvent.choices h (.message msg msgBuf)) := by
  cases msg with
  | highRevLimit =>
      exact (setFrame_one .setHighRevLimit _ l rfl).trans (set_rate .highRevLimit _ l)
  | lowRevLimit =>
      exact (setFrame_one .setLowRevLimit _ l rfl).trans (set_rate .lowRevLimit _ l)
  | setAdcRate => exact (setFrame_one .setAdcRate2 _ l rfl).trans (set_rate .adcDelay _ l)
  | setRpmMphRate =>
      exact (setFrame_one .setRpmMphUpdateRate _ l rfl).trans (set_rate .rpmMphDelay _ l)
  | setFpgaRate =>
      exact (setFrame_one .setFpgaSendUpdateRate _ l rfl).trans (set_rate .sendDelay _ l)
  | updateConfig =>
      exact setFrame_updateConfig l h.config msgBuf (h.handle msgBuf .updateConfig).1.gate
  | sendRevLimitOverride =>
      exact (setFrame_one .revLimitOverride _ l rfl).trans (set_flag .revLimitOverride _ l)
  | sendFpOverride =>
      exact (setFrame_one .fuelPumpOverride _ l rfl).trans (set_flag .fuelPumpOverride _ l)
  | enableAdcSendData =>
      refine setFrame_sendGate ?_ h l
      by_cases hzero : word msgBuf 2 = 0
      · rw [if_pos hzero, hzero]
        rfl
      · rw [if_neg hzero, decide_eq_true hzero]
        rfl
  | adcGate =>
      by_cases hzero : h.enableAdcSendData = 0
      · have hhandle : h.handle msgBuf .adcGate = h.sendGate 1 0xFF := if_pos hzero
        rw [SettingEvent.choices, hhandle]
        exact setFrame_sendGate (by rfl) h l
      · have hhandle : h.handle msgBuf .adcGate = h.sendGate 0 0 := if_neg hzero
        rw [SettingEvent.choices, hhandle]
        exact setFrame_sendGate (by rfl) h l

end Settings

/-! ## Everything under way -/

namespace FpgaSettings

/-- The settings once everything under way has been processed. -/
def future (s : FpgaSettings) : Settings :=
  let bytes := s.line.foldl settingsByte (settingsLoad s.recvUart s.calcProc1)
  let values := (s.sendFpga ++ s.toSend).foldl Settings.setValue bytes.state
  s.toStm32.foldl Settings.setFrame values

/-- The processes of the FPGA are in step, and the settings to come are `l`. -/
structure Heading (l : Settings) (s : FpgaSettings) : Prop where
  inStep : InStep s.recvUart s.calcProc1.toCalcProc1
  primed : Primed s.recvUart s.calcProc1
  future : s.future = l

variable {l : Settings} {s : FpgaSettings}

theorem lost_queue (h : s.lost = true) (v : BitVec 64) : (s.queue v).lost = true := by
  rw [queue]
  split_ifs
  · exact h
  · rfl

theorem lost_step (h : s.lost = true) (e : SettingEvent) : (s.step e).lost = true := by
  cases e with
  | message | lcdSerialQueue | otherFrame | stm32Task => exact h
  | tone cmd param ucbuff => exact lost_queue h _
  | xQueueSend =>
      rw [step]
      split
      · exact h
      · exact lost_queue (by exact h) _
  | startRecv7200 ucbuff | startSendFPGA =>
      rw [step]
      split <;> exact h
  | clk dataReady doneRx running =>
      simp only [step]
      split
      · simp [clk, h]
      · exact h

/-- A frame is added at the end of what is under way. -/
theorem Heading.send (h : s.Heading l) (host : HostSettings) (frame : SendSerial) :
    { s with host := host, toStm32 := s.toStm32 ++ [frame] }.Heading (l.setFrame frame) := by
  refine ⟨h.inStep, h.primed, ?_⟩
  rw [← h.future]
  simp [FpgaSettings.future]

/-- The queue takes a value that is the next of those to come. -/
theorem Heading.queue {v : BitVec 64} (hinStep : InStep s.recvUart s.calcProc1.toCalcProc1)
    (hprimed : Primed s.recvUart s.calcProc1) (hroom : (s.queue v).lost = false)
    (hfuture : s.toStm32.foldl Settings.setFrame
      (s.toSend.foldl Settings.setValue
        ((s.sendFpga.foldl Settings.setValue (s.line.foldl settingsByte
          (settingsLoad s.recvUart s.calcProc1)).state).setValue v)) = l) :
    (s.queue v).Heading l := by
  rw [FpgaSettings.queue] at hroom ⊢
  split_ifs at hroom ⊢
  refine ⟨hinStep, hprimed, ?_⟩
  rw [← hfuture]
  simp [FpgaSettings.future]

theorem Heading.clk (h : s.Heading l) (dataReady doneRx running : Bool)
    (hnone : (s.step (.clk dataReady doneRx running)).lost = false) :
    (s.step (.clk dataReady doneRx running)).Heading l := by
  have hfuture := h.future
  simp only [FpgaSettings.step] at hnone ⊢
  split at hnone
  · rename_i b rest hline
    have hlisten : RevLimits.Listening s.recvUart := by
      simp only [FpgaSettings.clk, Bool.or_eq_false_iff, Bool.not_eq_false',
        decide_eq_true_eq] at hnone
      exact hnone.2
    have hload := h.inStep.settingsLoad_recvByte hlisten dataReady running b
    refine ⟨(h.inStep.recvByte hlisten dataReady b).1,
      h.inStep.primed_clk dataReady running (some b), ?_⟩
    simp only [FpgaSettings.future, hline, List.foldl_cons] at hfuture
    simp only [FpgaSettings.future, FpgaSettings.clk, hload]
    exact hfuture
  · have hload := h.inStep.settingsLoad_clk h.primed dataReady running
    refine ⟨(h.inStep.clk dataReady).1, h.inStep.primed_clk dataReady running none, ?_⟩
    simp only [FpgaSettings.future] at hfuture
    simp only [FpgaSettings.future, FpgaSettings.clk, hload]
    exact hfuture

/-- An event that loses nothing adds what it chooses. -/
theorem Heading.step (h : s.Heading l) (e : SettingEvent) (hnone : (s.step e).lost = false) :
    (s.step e).Heading (l.choose (e.choices s.host)) := by
  have hfuture := h.future
  cases e with
  | message msg msgBuf =>
      rw [← Settings.setFrame_handle]
      exact h.send ..
  | otherFrame cmd buf =>
      have hsend := h.send s.host ⟨cmd.val.toByte, buf⟩
      rw [Settings.setFrame_otherFrame cmd.property] at hsend
      exact hsend
  | lcdSerialQueue | stm32Task => exact ⟨h.inStep, h.primed, h.future⟩
  | startRecv7200 ucbuff =>
      simp only [FpgaSettings.step]
      split
      · rename_i frame rest hsend hframes
        refine ⟨h.inStep, h.primed, ?_⟩
        simp only [FpgaSettings.future, hsend, hframes, List.append_nil, List.foldl_cons]
          at hfuture
        simp only [FpgaSettings.future, List.foldl_append, Settings.setValues_frame]
        exact hfuture
      · exact h
  | xQueueSend =>
      simp only [FpgaSettings.step] at hnone ⊢
      split at hnone
      · exact h
      · rename_i v rest hsend
        simp only [FpgaSettings.future, hsend, List.foldl_append, List.foldl_cons] at hfuture
        exact Heading.queue h.inStep h.primed hnone hfuture
  | tone cmd param ucbuff =>
      simp only [FpgaSettings.step] at hnone ⊢
      simp only [FpgaSettings.future, List.foldl_append] at hfuture
      refine Heading.queue h.inStep h.primed hnone ?_
      rw [Settings.setValue_pack64, mcmdBuff, Settings.set_tone]
      exact hfuture
  | startSendFPGA =>
      simp only [FpgaSettings.step]
      split
      · rename_i v rest hline hqueue
        refine ⟨h.inStep, h.primed, ?_⟩
        simp only [FpgaSettings.future, hline, hqueue, List.foldl_nil, List.cons_append,
          List.foldl_cons] at hfuture
        simp only [FpgaSettings.future, settingsBytes_startSendFPGA]
        exact hfuture
      · exact h
  | clk dataReady doneRx running => exact h.clk dataReady doneRx running hnone

/-! ## Runs -/

end FpgaSettings

/-- The server after an event. -/
def SettingEvent.host (h : HostSettings) : SettingEvent → HostSettings
  | .message msg msgBuf => (h.handle msgBuf msg).1
  | .lcdSerialQueue => h.lcdSerialQueue
  | _ => h

namespace FpgaSettings

variable {l : Settings} {s : FpgaSettings}

/-- What is chosen in a run, from a state `h` of the server on. -/
def chosen (h : HostSettings) : List SettingEvent → Choices
  | [] => .none
  | e :: es => (e.choices h).andThen (chosen (e.host h) es)

theorem host_queue (s : FpgaSettings) (v : BitVec 64) : (s.queue v).host = s.host := by
  rw [queue]
  split_ifs <;> rfl

theorem host_step (s : FpgaSettings) (e : SettingEvent) : (s.step e).host = e.host s.host := by
  cases e with
  | message | lcdSerialQueue | otherFrame | stm32Task => rfl
  | tone cmd param ucbuff => exact host_queue ..
  | xQueueSend | startRecv7200 | startSendFPGA | clk =>
      simp only [step]
      split <;> first | rfl | exact host_queue ..

theorem heading_start (host : HostSettings) (stm32 : Stm32) (signals : CalcSignals) :
    (start host stm32 signals).Heading signals.reset.settings where
  inStep := .waking rfl (.inl rfl) rfl ⟨rfl, rfl⟩
  primed := by
    intro hreg
    cases hreg
  future := rfl

theorem heading_exec (h : s.lost = false → s.Heading l) (es : List SettingEvent)
    (hnone : (Transition.exec step s es).lost = false) :
    (Transition.exec step s es).Heading (l.choose (chosen s.host es)) := by
  induction es generalizing s l with
  | nil => exact h hnone
  | cons e es ih =>
      rw [chosen, ← Settings.choose_choose, ← host_step]
      refine ih ?_ hnone
      intro hstep
      refine Heading.step (h ?_) e hstep
      by_contra hlost
      have hstill := lost_step (Bool.eq_true_of_not_eq_false hlost) e
      rw [hstep] at hstill
      cases hstill

/-- Nothing is under way, and the FPGA waits for a byte. -/
structure Delivered (s : FpgaSettings) : Prop where
  lost : s.lost = false
  toStm32 : s.toStm32 = []
  toSend : s.toSend = []
  sendFpga : s.sendFpga = []
  line : s.line = []
  uart : s.recvUart.stateUartReg2 = .idle2 ∨ s.recvUart.stateUartReg2 = .next1
  uartNext : s.recvUart.stateUartNext2 = .idle2 ∨ s.recvUart.stateUartNext2 = .next1

theorem Delivered.settings (h : s.Delivered) : s.calcProc1.settings = s.future := by
  have hnot : ¬ Pending s.recvUart := by
    rintro ⟨_, hpending⟩
    rcases h.uart with huart | huart <;> rcases h.uartNext with hnext | hnext <;>
      simp [huart, hnext] at hpending
  simp only [future, h.toStm32, h.toSend, h.sendFpga, h.line, List.append_nil, List.foldl_nil,
    settingsLoad, if_neg hnot]

theorem Delivered.settings_eq {host : HostSettings} {stm32 : Stm32} {signals : CalcSignals}
    {es : List SettingEvent}
    (h : (Transition.exec step (start host stm32 signals) es).Delivered) :
    (Transition.exec step (start host stm32 signals) es).calcProc1.settings =
      signals.reset.settings.choose (chosen host es) :=
  h.settings.trans (heading_exec (fun _ => heading_start host stm32 signals) es h.lost).future

/-- Once everything is delivered, the FPGA has exactly what the client has chosen last, and
its status bytes tell the truth about it. -/
theorem settings_of_delivered (host : HostSettings) (stm32 : Stm32) (signals : CalcSignals)
    {es : List SettingEvent}
    (h : (Transition.exec step (start host stm32 signals) es).Delivered) :
    let c := (Transition.exec step (start host stm32 signals) es).calcProc1
    c.settings = signals.reset.settings.choose (chosen host es) ∧
      (∀ r p, (chosen host es).param r = some p →
        c.nibble r = p.extractLsb' 0 4 ∧ c.rate r = r.table (c.nibble r)) ∧
      ∀ f b, (chosen host es).bit f = some b →
        c.flag f = b ∧ c.stlvStatus3.getLsbD f.statusBit = b := by
  have hsettings := h.settings_eq
  refine ⟨hsettings, ?_, ?_⟩
  · intro r p hp
    have hnibble := congrArg (fun l => l.nibble r) hsettings
    have hrate := congrArg (fun l => l.rate r) hsettings
    simp only [Settings.choose, hp, Option.elim_some] at hnibble hrate
    exact ⟨hnibble, hrate.trans (congrArg r.table hnibble.symm)⟩
  · intro f b hb
    have hflag := congrArg (fun l => l.flag f) hsettings
    have hstatus := congrArg (fun l => l.statusFlag f) hsettings
    simp only [Settings.choose, hb, Option.getD_some] at hflag hstatus
    exact ⟨hflag, hstatus⟩

/-- The gate is opened, all the way to the FPGA. -/
def openGate : List SettingEvent :=
  [.message .adcGate fun _ => 0, .startRecv7200 fun _ => 0, .xQueueSend, .startSendFPGA] ++
    List.replicate 4 (.clk true false false) ++
    (List.replicate 9
      (.clk true true false :: List.replicate 7 (.clk true false false))).flatten

/-- The parameters of the server do not matter. -/
def someSettings : HostSettings where
  config :=
    { ps :=
        { rpmMphUpdateRate := 0, fpgaXmitRate := 0, highRevLimit := 0, lowRevLimit := 0,
          coolingFanOn := 0, coolingFanOff := 0, blowerEnabled := 0, blower1On := 0,
          blower2On := 0, blower3On := 0, lightsOnDelay := 0, engineTempLimit := 0,
          battBoxTemp := 0, testBank := 0, passwordTimeout := 0, passwordRetries := 0,
          baudrate3 := 0 }
      writeSerialBuffer := fun _ => 0
      actualHighRevLimit := 0
      actualLowRevLimit := 0
      actualLightsOnDelay := 0 }
  enableAdcSendData := 0

theorem delivered_openGate :
    (Transition.exec step (start someSettings .init CommandLink.powerUp) openGate).Delivered := by
  refine ⟨?_, ?_, ?_, ?_, ?_, ?_, ?_⟩ <;> decide +kernel

theorem settings_of_delivered_openGate :
    (Transition.exec step (start someSettings .init CommandLink.powerUp)
      openGate).calcProc1.settings =
        CommandLink.powerUp.reset.settings.choose (chosen someSettings openGate) :=
  (settings_of_delivered someSettings .init CommandLink.powerUp delivered_openGate).1

end FpgaSettings

end TruckControl
