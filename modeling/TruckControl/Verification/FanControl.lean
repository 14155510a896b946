import TruckControl.Library.Reports
import TruckControl.Model.Callback

/-!
# The cooling fan

`Callback01` switches the fan on at one temperature and off at a lower one, as long as it does
not take a reading below the freezing point for a hot one, and the queue takes its messages.
-/

namespace TruckControl

namespace Stm32

variable {s : Stm32} {on off : BitVec 16}

/-! ## What leaves the fan alone -/

/-- A frame that does not switch the fan, and brings no other temperatures for it. -/
structure LeavesFan (on off : BitVec 16) (frame : SendSerial) : Prop where
  onFan : frame.cmd ≠ CmdType.onFan.toByte
  offFan : frame.cmd ≠ CmdType.offFan.toByte
  serverUp : frame.cmd = CmdType.serverUp.toByte →
    frame.buff 4 ++ frame.buff 3 = on ∧ frame.buff 6 ++ frame.buff 5 = off
  sendConfig2 : frame.cmd = CmdType.sendConfig2.toByte →
    frame.buff 6 ++ frame.buff 5 = on ∧ frame.buff 8 ++ frame.buff 7 = off

instance (on off : BitVec 16) : DecidablePred (LeavesFan on off) := fun frame =>
  decidable_of_iff
    (frame.cmd ≠ CmdType.onFan.toByte ∧ frame.cmd ≠ CmdType.offFan.toByte ∧
      (frame.cmd = CmdType.serverUp.toByte →
        frame.buff 4 ++ frame.buff 3 = on ∧ frame.buff 6 ++ frame.buff 5 = off) ∧
      (frame.cmd = CmdType.sendConfig2.toByte →
        frame.buff 6 ++ frame.buff 5 = on ∧ frame.buff 8 ++ frame.buff 7 = off))
    ⟨fun ⟨hon, hoff, hup, hconfig⟩ => ⟨hon, hoff, hup, hconfig⟩,
      fun h => ⟨h.onFan, h.offFan, h.serverUp, h.sendConfig2⟩⟩

/-- The fan is controlled at these temperatures. -/
structure Controls (on off : BitVec 16) (s : Stm32) : Prop where
  fanOn : s.fanOn = 0 ∨ s.fanOn = 1
  override : s.coolingFanOverride = 0
  fanOnTemp : s.fanOnTemp = on
  fanOffTemp : s.fanOffTemp = off

/-- What the fan control looks at. -/
def fanView (s : Stm32) : ℕ × ℕ × BitVec 16 × BitVec 16 :=
  (s.fanOn, s.coolingFanOverride, s.fanOnTemp, s.fanOffTemp)

theorem fanOn_congr {t : Stm32} (h : t.fanView = s.fanView) : t.fanOn = s.fanOn :=
  congrArg Prod.fst h

theorem Controls.congr {on off : BitVec 16} {t : Stm32} (h : s.Controls on off)
    (hview : t.fanView = s.fanView) : t.Controls on off := by
  simp only [fanView, Prod.mk.injEq] at hview
  obtain ⟨h1, h2, h3, h4⟩ := hview
  exact ⟨h1 ▸ h.fanOn, h2.trans h.override, h3.trans h.fanOnTemp, h4.trans h.fanOffTemp⟩

@[simp] theorem fanView_xQueueSend (cmd : UCHAR) (s : Stm32) :
    (s.xQueueSend cmd).fanView = s.fanView := by
  rw [xQueueSend]
  split_ifs <;> rfl

@[simp] theorem fanView_startDefaultTask (key : KeyType) (s : Stm32) :
    (s.startDefaultTask key).fanView = s.fanView := by
  cases key <;> simp [startDefaultTask]

@[simp] theorem fanView_startRecvFPGA (s : Stm32) : s.startRecvFPGA.fanView = s.fanView := by
  simp only [startRecvFPGA]
  split_ifs <;> simp

@[simp] theorem fanView_startTask7200 (s : Stm32) : s.startTask7200.1.fanView = s.fanView := by
  rw [startTask7200]
  split <;> rfl

theorem Controls.startRecv7200 (h : s.Controls on off) {frame : SendSerial}
    (hframe : LeavesFan on off frame) :
    (s.startRecv7200 frame).Controls on off ∧ (s.startRecv7200 frame).fanOn = s.fanOn := by
  rw [Stm32.startRecv7200]
  by_cases hguard : actuator frame.cmd ∨ frame.cmd ∈ recvCommands.map CmdType.toByte
  · rw [if_pos hguard]
    cases hcmd : CmdType.ofByte frame.cmd with
    | none => exact ⟨h, rfl⟩
    | some cmd =>
        have hbyte := CmdType.eq_toByte_of_ofByte hcmd
        cases cmd with
        | onFan => exact absurd hbyte hframe.onFan
        | offFan => exact absurd hbyte hframe.offFan
        | serverUp =>
            obtain ⟨hon, hoff⟩ := hframe.serverUp hbyte
            exact ⟨⟨h.fanOn, h.override, hon, hoff⟩, rfl⟩
        | sendConfig2 =>
            obtain ⟨hon, hoff⟩ := hframe.sendConfig2 hbyte
            exact ⟨⟨h.fanOn, h.override, hon, hoff⟩, rfl⟩
        | getConfig2 =>
            have hview := fanView_xQueueSend CmdType.getConfig2.toByte s
            exact ⟨h.congr hview, fanOn_congr hview⟩
        | _ => exact ⟨⟨h.fanOn, h.override, h.fanOnTemp, h.fanOffTemp⟩, rfl⟩
  · rw [if_neg hguard]
    exact ⟨h, rfl⟩

/-! ## The two tests -/

/-- What the queue takes of a message. -/
theorem drop_send7200_xQueueSend (cmd : UCHAR) (s : Stm32) :
    (s.xQueueSend cmd).send7200.drop s.send7200.length =
      if s.send7200.length < 10 then [cmd] else [] := by
  rw [xQueueSend]
  split_ifs
  · exact List.drop_left
  · exact List.drop_length

/-- The fan is switched on, and the queue takes the message if it has room. -/
theorem Controls.switchFanOn (h : s.Controls on off) {rawData : ℤ}
    (htest : s.engineOn > 0 ∧ s.fanOn = 0 ∧ rawData ≥ on.toNat) (hroom : s.send7200.length < 10) :
    (s.switchFanOn rawData).Controls on off ∧ (s.switchFanOn rawData).fanOn = 1 ∧
      (s.switchFanOn rawData).send7200.drop s.send7200.length = [CmdType.onFan.toByte] := by
  have hview := fanView_xQueueSend CmdType.onFan.toByte { s with fanOn := 1 }
  have hset : ({ s with fanOn := 1 } : Stm32).Controls on off :=
    ⟨.inr rfl, h.override, h.fanOnTemp, h.fanOffTemp⟩
  have hnews := drop_send7200_xQueueSend CmdType.onFan.toByte { s with fanOn := 1 }
  rw [← h.fanOnTemp] at htest
  rw [Stm32.switchFanOn, if_pos htest]
  exact ⟨hset.congr hview, fanOn_congr hview, hnews.trans (if_pos hroom)⟩

theorem Controls.switchFanOn_of_not (h : s.Controls on off) {rawData : ℤ}
    (htest : ¬ (s.engineOn > 0 ∧ s.fanOn = 0 ∧ rawData ≥ on.toNat)) :
    s.switchFanOn rawData = s := by
  rw [Stm32.switchFanOn, h.fanOnTemp, if_neg htest]

theorem Controls.switchFanOff (h : s.Controls on off) {rawData : ℤ}
    (htest : s.fanOn = 1 ∧ rawData ≤ off.toNat) (hroom : s.send7200.length < 10) :
    (s.switchFanOff rawData).Controls on off ∧ (s.switchFanOff rawData).fanOn = 0 ∧
      (s.switchFanOff rawData).send7200.drop s.send7200.length = [CmdType.offFan.toByte] := by
  have hview := fanView_xQueueSend CmdType.offFan.toByte { s with fanOn := 0 }
  have hset : ({ s with fanOn := 0 } : Stm32).Controls on off :=
    ⟨.inl rfl, h.override, h.fanOnTemp, h.fanOffTemp⟩
  have hnews := drop_send7200_xQueueSend CmdType.offFan.toByte { s with fanOn := 0 }
  rw [← h.fanOffTemp] at htest
  rw [Stm32.switchFanOff, if_pos ⟨h.override, htest⟩]
  exact ⟨hset.congr hview, fanOn_congr hview, hnews.trans (if_pos hroom)⟩

theorem Controls.switchFanOff_of_not (h : s.Controls on off) {rawData : ℤ}
    (htest : ¬ (s.fanOn = 1 ∧ rawData ≤ off.toNat)) : s.switchFanOff rawData = s := by
  rw [Stm32.switchFanOff, h.fanOffTemp, if_neg fun hall => htest hall.2]

end Stm32

/-! ## Readings -/

/-- The reading is at or above the temperature. The code of the DS1620 is signed. -/
def AtOrAbove (temp : BitVec 16) (rawData : BitVec 9) : Prop := (temp.toNat : ℤ) ≤ rawData.toInt

def AtOrBelow (temp : BitVec 16) (rawData : BitVec 9) : Prop := rawData.toInt ≤ temp.toNat

instance (temp : BitVec 16) : DecidablePred (AtOrAbove temp) :=
  fun rawData => inferInstanceAs (Decidable ((temp.toNat : ℤ) ≤ rawData.toInt))

instance (temp : BitVec 16) : DecidablePred (AtOrBelow temp) :=
  fun rawData => inferInstanceAs (Decidable (rawData.toInt ≤ temp.toNat))

/-- A reading below the freezing point that is compared as a hot one. The sensor gives the
last of these codes at its lowest temperature. -/
def Misread (rawData : BitVec 9) : Prop := 256 ≤ rawData.toNat ∧ rawData.toNat ≤ 402

instance : DecidablePred Misread :=
  fun rawData => inferInstanceAs (Decidable (256 ≤ rawData.toNat ∧ rawData.toNat ≤ 402))

variable {on off : BitVec 16} {rawData : BitVec 9}

theorem freezing_ge_iff (h : ¬ Misread rawData) (temp : BitVec 16) :
    Stm32.freezing rawData.toNat ≥ temp.toNat ↔ AtOrAbove temp rawData := by
  have hraw := rawData.isLt
  rw [Stm32.freezing, AtOrAbove, BitVec.toInt_eq_toNat_cond]
  rw [Misread] at h
  split_ifs <;> omega

theorem freezing_le_iff (h : ¬ Misread rawData) (temp : BitVec 16) :
    Stm32.freezing rawData.toNat ≤ temp.toNat ↔ AtOrBelow temp rawData := by
  have hraw := rawData.isLt
  rw [Stm32.freezing, AtOrBelow, BitVec.toInt_eq_toNat_cond]
  rw [Misread] at h
  split_ifs <;> omega

theorem Misread.atOrBelow (h : Misread rawData) (temp : BitVec 16) : AtOrBelow temp rawData := by
  rw [AtOrBelow, BitVec.toInt_eq_toNat_cond]
  rw [Misread] at h
  split_ifs <;> omega

/-- The two temperatures are apart. -/
theorem not_above_below (hthr : off < on) (habove : AtOrAbove on rawData) :
    ¬ AtOrBelow off rawData := by
  rw [BitVec.lt_def] at hthr
  rw [AtOrAbove] at habove
  rw [AtOrBelow]
  omega

namespace Callback01

variable {s : Callback01}

/-! ## What a tick should do -/

/-- The messages of the fan that the queue took in a tick. -/
def fanMsgs (t : TempTick) : List UCHAR :=
  t.sent.filter fun cmd => cmd = CmdType.onFan.toByte ∨ cmd = CmdType.offFan.toByte

/-- On at the higher temperature with the engine on, off at the lower one. -/
structure TickOk (on off : BitVec 16) (t : TempTick) : Prop where
  notBoth : ¬ (CmdType.onFan.toByte ∈ fanMsgs t ∧ CmdType.offFan.toByte ∈ fanMsgs t)
  onFan : CmdType.onFan.toByte ∈ fanMsgs t → t.engineOn > 0 ∧ AtOrAbove on t.rawData
  offFan : CmdType.offFan.toByte ∈ fanMsgs t → AtOrBelow off t.rawData
  flagOn : t.engineOn > 0 → AtOrAbove on t.rawData → t.fanOn = 1
  flagOff : AtOrBelow off t.rawData → t.fanOn = 0

/-- The ticks are those of a fan that is switched on and off in turn, when it should be. -/
structure FanControlled (on off : BitVec 16) (ticks : List TempTick) : Prop where
  alternating : Transition.Alternating CmdType.onFan.toByte CmdType.offFan.toByte
    (ticks.flatMap fanMsgs)
  ticks : ∀ t ∈ ticks, TickOk on off t

/-- All frames that are received leave the fan to the ticks. -/
def LeavesFan (on off : BitVec 16) : CallbackEvent → Prop
  | .startRecv7200 frame => Stm32.LeavesFan on off frame
  | _ => True

/-- A reading that is taken for a hot one comes to an engine and a fan that are off, and the
queue has room for what is sent of the fan. -/
def SeesFan (on off : BitVec 16) (s : Callback01) : CallbackEvent → Prop
  | .callback01 =>
      (s.point = .fanOn →
        (Misread s.tick.rawData → s.stm32.engineOn = 0 ∧ s.stm32.fanOn = 0) ∧
          (s.stm32.engineOn > 0 → s.stm32.fanOn = 0 → AtOrAbove on s.tick.rawData →
            s.stm32.send7200.length < 10)) ∧
        (s.point = .fanOff → s.stm32.fanOn = 1 → AtOrBelow off s.tick.rawData →
          s.stm32.send7200.length < 10)
  | _ => True

instance (on off : BitVec 16) (s : Callback01) : DecidablePred (SeesFan on off s)
  | .callback01 => inferInstanceAs (Decidable (_ ∧ _))
  | .timer _ | .startRecv7200 _ | .startDefaultTask _ | .startRecvFPGA | .startTask7200
  | .otherTask _ | .startSendFPGA => .isTrue trivial

instance (on off : BitVec 16) : DecidablePred (LeavesFan on off)
  | .startRecv7200 frame => inferInstanceAs (Decidable (Stm32.LeavesFan on off frame))
  | .callback01 | .timer _ | .startDefaultTask _ | .startRecvFPGA | .startTask7200
  | .otherTask _ | .startSendFPGA => .isTrue trivial

/-! ## What it does -/

/-- How far the tick is with the fan. -/
inductive FanAt (on off : BitVec 16) (s : Callback01) : Prop where
  | untested (hpoint : s.point ≠ .fanOff) (hmsgs : s.point ≠ .idle → fanMsgs s.tick = [])
      (hlog : Transition.Switches CmdType.onFan.toByte CmdType.offFan.toByte
        (s.stm32.fanOn = 1) (s.ticks.flatMap fanMsgs))
  | turnedOn (hpoint : s.point = .fanOff) (hengine : s.tick.engineOn > 0)
      (habove : AtOrAbove on s.tick.rawData) (hflag : s.stm32.fanOn = 1)
      (hmsgs : fanMsgs s.tick = [CmdType.onFan.toByte])
      (hlog : Transition.Switches CmdType.onFan.toByte CmdType.offFan.toByte
        false (s.ticks.flatMap fanMsgs))
  | kept (hpoint : s.point = .fanOff)
      (hflag : s.tick.engineOn > 0 → AtOrAbove on s.tick.rawData → s.stm32.fanOn = 1)
      (hread : Misread s.tick.rawData → s.stm32.fanOn = 0) (hmsgs : fanMsgs s.tick = [])
      (hlog : Transition.Switches CmdType.onFan.toByte CmdType.offFan.toByte
        (s.stm32.fanOn = 1) (s.ticks.flatMap fanMsgs))

structure FanInv (on off : BitVec 16) (s : Callback01) : Prop where
  controls : s.stm32.Controls on off
  ticks : ∀ t ∈ s.ticks, TickOk on off t
  fanAt : FanAt on off s

/-- What other tasks change. -/
theorem FanInv.of_fanOn (h : FanInv on off s) {stm32 : Stm32} {sendFPGA : List UCHAR}
    (hcontrols : stm32.Controls on off) (hflag : stm32.fanOn = s.stm32.fanOn) :
    FanInv on off { s with stm32 := stm32, sendFPGA := sendFPGA } := by
  refine ⟨hcontrols, h.ticks, ?_⟩
  cases h.fanAt with
  | untested hpoint hmsgs hlog => exact .untested hpoint hmsgs (by simpa only [hflag] using hlog)
  | turnedOn hpoint hengine habove hon hmsgs hlog =>
      exact .turnedOn hpoint hengine habove (hflag.trans hon) hmsgs hlog
  | kept hpoint hon hread hmsgs hlog =>
      refine .kept hpoint ?_ ?_ hmsgs ?_ <;> simp only [hflag]
      · exact hon
      · exact hread
      · exact hlog

theorem FanInv.of_fanView (h : FanInv on off s) {stm32 : Stm32}
    (hview : stm32.fanView = s.stm32.fanView) : FanInv on off { s with stm32 := stm32 } :=
  h.of_fanOn (h.controls.congr hview) (Stm32.fanOn_congr hview)

/-- Messages of a tick that are none of the fan. -/
theorem fanMsgs_part_xQueueSend (cmd : UCHAR) (hon : cmd ≠ CmdType.onFan.toByte)
    (hoff : cmd ≠ CmdType.offFan.toByte) (s : Callback01) :
    fanMsgs (s.part (Stm32.xQueueSend cmd)).tick = fanMsgs s.tick := by
  rw [fanMsgs, fanMsgs, part, Stm32.drop_send7200_xQueueSend]
  split_ifs <;> simp [hon, hoff]

/-- A part of the tick before the tests. -/
theorem FanInv.next (h : FanInv on off s) (hpoint : s.point ≠ .fanOff) (hidle : s.point ≠ .idle)
    {t : Callback01} (hview : t.stm32.fanView = s.stm32.fanView) (hticks : t.ticks = s.ticks)
    (hmsgs : fanMsgs t.tick = fanMsgs s.tick) (hpoint' : t.point ≠ .fanOff) :
    FanInv on off t := by
  refine ⟨h.controls.congr hview, hticks ▸ h.ticks, ?_⟩
  cases h.fanAt with
  | untested _ hnone hlog =>
      refine .untested hpoint' (fun _ => hmsgs.trans (hnone hidle)) ?_
      rw [Stm32.fanOn_congr hview, hticks]
      exact hlog
  | turnedOn hat => exact absurd hat hpoint
  | kept hat => exact absurd hat hpoint

/-- A tone goes to the other queue. -/
theorem sendTone_eq (cmd : UCHAR) (s : Callback01) :
    (s.sendTone cmd).ticks = s.ticks ∧ fanMsgs (s.sendTone cmd).tick = fanMsgs s.tick := by
  rw [sendTone, xQueueSend]
  split_ifs <;> exact ⟨rfl, rfl⟩

theorem FanInv.alarm (h : FanInv on off s) (hpoint : s.point = .alarm) :
    FanInv on off s.alarm := by
  have hfanOff : s.point ≠ .fanOff := by rw [hpoint]; decide
  have hidle : s.point ≠ .idle := by rw [hpoint]; decide
  rw [Callback01.alarm]
  split_ifs
  · obtain ⟨hticks, hmsgs⟩ := sendTone_eq specialToneOn s
    exact h.next hfanOff hidle (by rw [stm32_sendTone]) hticks hmsgs (by simp)
  · obtain ⟨hticks, hmsgs⟩ := sendTone_eq dtmfToneOff s
    have hview : (s.sendTone dtmfToneOff).stm32.fanView = s.stm32.fanView := by
      rw [stm32_sendTone]
    exact h.next hfanOff hidle hview hticks hmsgs (by simp)
  · exact h.next hfanOff hidle rfl rfl rfl (by simp)

/-- The first test. -/
theorem FanInv.testOn (h : FanInv on off s) (hpoint : s.point = .fanOn)
    (hs : SeesFan on off s .callback01) : FanInv on off s.callback01 := by
  obtain ⟨hsees, -⟩ := hs
  obtain ⟨hread, hroom⟩ := hsees hpoint
  have hidle : s.point ≠ .idle := by rw [hpoint]; decide
  cases h.fanAt with
  | turnedOn hat | kept hat => rw [hpoint] at hat; cases hat
  | untested _ hmsgs hlog =>
      simp only [callback01, hpoint, part]
      by_cases htest : s.stm32.engineOn > 0 ∧ s.stm32.fanOn = 0 ∧ s.rawData ≥ on.toNat
      · obtain ⟨hengine, hwas, habove⟩ := htest
        have hright : ¬ Misread s.tick.rawData := fun h => absurd (hread h).1 (by omega)
        have habove' : AtOrAbove on s.tick.rawData := (freezing_ge_iff hright on).mp habove
        obtain ⟨hcontrols, hflag, hnews⟩ := h.controls.switchFanOn ⟨hengine, hwas, habove⟩
          (hroom hengine hwas habove')
        have hnone : fanMsgs s.tick = [] := hmsgs hidle
        refine ⟨hcontrols, h.ticks, .turnedOn rfl hengine habove' hflag ?_ ?_⟩
        · rw [fanMsgs, hnews, List.filter_append, ← fanMsgs, hnone]
          rfl
        · rw [hwas] at hlog
          exact hlog
      · rw [h.controls.switchFanOn_of_not htest, List.drop_length, List.append_nil]
        refine ⟨h.controls, h.ticks, .kept rfl ?_ ?_ (hmsgs hidle) hlog⟩
        · intro hengine habove
          by_contra hoff
          have hwas : s.stm32.fanOn = 0 := h.controls.fanOn.resolve_right hoff
          have hright : ¬ Misread s.tick.rawData := by
            intro h
            have hzero := (hread h).1
            change s.stm32.engineOn > 0 at hengine
            omega
          exact htest ⟨hengine, hwas, (freezing_ge_iff hright on).mpr habove⟩
        · exact fun h => (hread h).2

theorem onFan_ne_offFan : CmdType.onFan.toByte ≠ CmdType.offFan.toByte := by decide

theorem tickOk_of_onFan {t : TempTick} (hthr : off < on)
    (hmsgs : fanMsgs t = [CmdType.onFan.toByte]) (hengine : t.engineOn > 0)
    (habove : AtOrAbove on t.rawData) (hflag : t.fanOn = 1) : TickOk on off t := by
  have hbelow := not_above_below hthr habove
  constructor <;> simp [hmsgs, hengine, habove, hbelow, hflag, onFan_ne_offFan.symm]

theorem tickOk_of_offFan {t : TempTick} (hthr : off < on)
    (hmsgs : fanMsgs t = [CmdType.offFan.toByte]) (hbelow : AtOrBelow off t.rawData)
    (hflag : t.fanOn = 0) : TickOk on off t := by
  have habove : ¬ AtOrAbove on t.rawData := fun habove => not_above_below hthr habove hbelow
  constructor <;> simp [hmsgs, habove, hbelow, hflag, onFan_ne_offFan]

theorem tickOk_of_none {t : TempTick} (hmsgs : fanMsgs t = [])
    (hon : t.engineOn > 0 → AtOrAbove on t.rawData → t.fanOn = 1)
    (hoff : AtOrBelow off t.rawData → t.fanOn = 0) : TickOk on off t :=
  ⟨by simp [hmsgs], by simp [hmsgs], by simp [hmsgs], hon, hoff⟩

/-- The tick is over. -/
theorem FanInv.finish {t : Callback01} (hcontrols : t.stm32.Controls on off)
    (hticks : ∀ u ∈ t.ticks, TickOk on off u)
    (htick : TickOk on off { t.tick with fanOn := t.stm32.fanOn })
    (hlog : Transition.Switches CmdType.onFan.toByte CmdType.offFan.toByte
      (t.stm32.fanOn = 1) (t.ticks.flatMap fanMsgs ++ fanMsgs t.tick)) :
    FanInv on off
      { t with
        point := .idle, ticks := t.ticks ++ [{ t.tick with fanOn := t.stm32.fanOn }] } := by
  refine ⟨hcontrols, ?_, .untested (by simp) (fun h => absurd rfl h) ?_⟩
  · intro u hu
    rcases List.mem_append.mp hu with hu | hu
    · exact hticks u hu
    · rw [List.mem_singleton.mp hu]
      exact htick
  · rw [List.flatMap_append, List.flatMap_singleton]
    exact hlog

/-- The second test. -/
theorem FanInv.testOff (h : FanInv on off s) (hthr : off < on) (hpoint : s.point = .fanOff)
    (hs : SeesFan on off s .callback01) : FanInv on off s.callback01 := by
  obtain ⟨-, hroom⟩ := hs
  simp only [callback01, hpoint, part]
  cases h.fanAt with
  | untested hat => exact absurd hpoint hat
  | turnedOn _ hengine habove hflag hmsgs hlog =>
      have hbelow := not_above_below hthr habove
      have htest : ¬ (s.stm32.fanOn = 1 ∧ s.rawData ≤ off.toNat) := by
        intro h
        have hright : ¬ Misread s.tick.rawData := fun h => hbelow (h.atOrBelow off)
        exact hbelow ((freezing_le_iff hright off).mp h.2)
      rw [h.controls.switchFanOff_of_not htest, List.drop_length, List.append_nil]
      refine FanInv.finish (t := { s with }) h.controls h.ticks ?_ ?_
      · exact tickOk_of_onFan hthr hmsgs hengine habove hflag
      · rw [hmsgs, decide_eq_true hflag]
        exact hlog.turnsOn
  | kept _ hflag hread hmsgs hlog =>
      by_cases htest : s.stm32.fanOn = 1 ∧ s.rawData ≤ off.toNat
      · obtain ⟨hwas, hle⟩ := htest
        have hright : ¬ Misread s.tick.rawData := by
          intro h
          have hzero := hread h
          omega
        have hbelow : AtOrBelow off s.tick.rawData := (freezing_le_iff hright off).mp hle
        obtain ⟨hcontrols, hoff, hnews⟩ := h.controls.switchFanOff ⟨hwas, hle⟩
          (hroom hpoint hwas hbelow)
        have hmsgs' : fanMsgs { s.tick with
            sent := s.tick.sent ++ [CmdType.offFan.toByte] } = [CmdType.offFan.toByte] := by
          rw [fanMsgs, List.filter_append, ← fanMsgs, hmsgs]
          rfl
        rw [hnews]
        refine FanInv.finish (t := { s with
          stm32 := s.stm32.switchFanOff s.rawData
          tick.sent := s.tick.sent ++ [CmdType.offFan.toByte] }) hcontrols h.ticks ?_ ?_
        · exact tickOk_of_offFan hthr hmsgs' hbelow hoff
        · rw [hwas] at hlog
          rw [hmsgs', hoff]
          exact hlog.turnsOff
      · rw [h.controls.switchFanOff_of_not htest, List.drop_length, List.append_nil]
        refine FanInv.finish (t := { s with }) h.controls h.ticks ?_ ?_
        · refine tickOk_of_none hmsgs hflag fun hbelow => ?_
          by_contra hon
          have hwas : s.stm32.fanOn = 1 := h.controls.fanOn.resolve_left hon
          have hright : ¬ Misread s.tick.rawData := by
            intro h
            have hzero := hread h
            omega
          exact htest ⟨hwas, (freezing_le_iff hright off).mpr hbelow⟩
        · rw [hmsgs, List.append_nil]
          exact hlog

/-! ## Runs -/

theorem FanInv.callback01 (h : FanInv on off s) (hthr : off < on)
    (hs : SeesFan on off s .callback01) : FanInv on off s.callback01 := by
  cases hpoint : s.point with
  | idle =>
      rw [show s.callback01 = s from callback01_idle hpoint 1]
      exact h
  | engineTemp =>
      have hmsgs := fanMsgs_part_xQueueSend CmdType.engineTemp.toByte (by decide) (by decide) s
      simp only [Callback01.callback01, hpoint]
      exact h.next (by rw [hpoint]; decide) (by rw [hpoint]; decide)
        (Stm32.fanView_xQueueSend _ _) rfl hmsgs (by simp)
  | indoorTemp =>
      have hmsgs := fanMsgs_part_xQueueSend CmdType.indoorTemp.toByte (by decide) (by decide) s
      simp only [Callback01.callback01, hpoint]
      exact h.next (by rw [hpoint]; decide) (by rw [hpoint]; decide)
        (Stm32.fanView_xQueueSend _ _) rfl hmsgs (by simp)
  | alarm =>
      simp only [Callback01.callback01, hpoint]
      exact h.alarm hpoint
  | tempTooHigh =>
      have hmsgs := fanMsgs_part_xQueueSend CmdType.tempTooHigh.toByte (by decide) (by decide) s
      simp only [Callback01.callback01, hpoint]
      exact h.next (by rw [hpoint]; decide) (by rw [hpoint]; decide)
        (Stm32.fanView_xQueueSend CmdType.tempTooHigh.toByte s.stm32) rfl hmsgs (by simp)
  | fanOn => exact h.testOn hpoint hs
  | fanOff => exact h.testOff hthr hpoint hs

theorem FanInv.step (h : FanInv on off s) (hthr : off < on) {e : CallbackEvent}
    (hleaves : LeavesFan on off e) (hs : SeesFan on off s e) : FanInv on off (s.step e) := by
  cases e with
  | timer rawData =>
      rw [Callback01.step, timer]
      split_ifs with hup
      · refine ⟨h.controls, h.ticks, .untested (by simp) (fun _ => rfl) ?_⟩
        cases h.fanAt with
        | untested _ _ hlog => exact hlog
        | turnedOn hat | kept hat => rw [hup.1] at hat; cases hat
      · exact h
  | callback01 => exact h.callback01 hthr hs
  | startRecv7200 frame =>
      obtain ⟨hcontrols, hflag⟩ := h.controls.startRecv7200 hleaves
      exact h.of_fanOn hcontrols hflag
  | startDefaultTask key => exact h.of_fanView (Stm32.fanView_startDefaultTask key s.stm32)
  | startRecvFPGA => exact h.of_fanView (Stm32.fanView_startRecvFPGA s.stm32)
  | startTask7200 => exact h.of_fanView (Stm32.fanView_startTask7200 s.stm32)
  | otherTask cmd =>
      rw [Callback01.step, Callback01.xQueueSend]
      split_ifs
      · exact h.of_fanOn h.controls rfl
      · exact h
  | startSendFPGA => exact h.of_fanOn h.controls rfl

/-- As long as frames leave it alone, no cold reading is taken for a hot one and the queue
takes the messages, the fan is switched on and off in turn, and every tick does what the
temperatures ask for. -/
theorem fan_controlled (s : Stm32) (on off : BitVec 16) (hs : s.Controls on off)
    (hthr : off < on) (hoff : s.fanOn = 0) (es : List CallbackEvent)
    (hes : ∀ e ∈ es, LeavesFan on off e)
    (hsees : Transition.Meets step (SeesFan on off) (start s) es) :
    FanControlled on off (Transition.exec step (start s) es).ticks := by
  have hstart : FanInv on off (start s) := by
    refine ⟨hs, by simp [start], .untested (by simp [start]) (by simp [start]) ?_⟩
    rw [show (start s).stm32.fanOn = 0 from hoff]
    exact .none
  have hmeets : Transition.Meets step (fun s e => LeavesFan on off e ∧ SeesFan on off s e)
      (start s) es :=
    (Transition.meets_of_forall_mem hes (start s)).and hsees
  have hend : FanInv on off (Transition.exec step (start s) es) :=
    Transition.inv_exec_of_meets (fun _ _ h he => h.step hthr he.1 he.2) hstart hmeets
  refine ⟨?_, hend.ticks⟩
  cases hend.fanAt with
  | untested _ _ hlog | turnedOn _ _ _ _ _ hlog | kept _ _ _ _ hlog => exact hlog.alternating

/-- The server comes up and starts the engine. -/
def startsUp : List CallbackEvent :=
  [.startRecv7200 ⟨CmdType.serverUp.toByte, fun i => [190#8, 0, 175, 0, 150, 0].getD i 0⟩,
    .startRecv7200 ⟨CmdType.startSeq.toByte, fun _ => 0⟩]

/-- A tick that no other task comes into. -/
def tickOf (rawData : BitVec 9) : List CallbackEvent := .timer rawData :: .replicate 6 .callback01

/-- The engine gets hot and cools down, while the frames are sent and a key is pressed. -/
def warmUp : List CallbackEvent :=
  startsUp ++ tickOf 180 ++ [.startTask7200, .startDefaultTask .kp1, .startTask7200] ++ tickOf 140

theorem fan_controlled_warmUp :
    let ticks := (Transition.exec step (start .init) warmUp).ticks
    ticks.flatMap fanMsgs = [CmdType.onFan.toByte, CmdType.offFan.toByte] ∧
      FanControlled 175 150 ticks := by
  refine ⟨by decide +kernel, ?_⟩
  exact fan_controlled .init 175 150 ⟨.inl rfl, rfl, rfl, rfl⟩ (by decide) rfl warmUp
    (by decide +kernel) (by decide +kernel)

/-- The coldest reading of the sensor, -55 °C, switches the fan on. -/
theorem not_fan_controlled_coldest :
    let ticks := (Transition.exec step (start .init) (startsUp ++ tickOf 402)).ticks
    ticks.flatMap fanMsgs = [CmdType.onFan.toByte] ∧ ¬ FanControlled 175 150 ticks := by
  intro ticks
  have hticks : ticks = [{
      rawData := 402
      engineOn := 1
      sent := [.engineTemp, .indoorTemp, .tempTooHigh, .onFan].map CmdType.toByte
      tones := [specialToneOn]
      fanOn := 1 }] := by
    decide +kernel
  rw [hticks]
  refine ⟨by decide, fun h => ?_⟩
  have hflag := (h.ticks _ List.mem_cons_self).flagOff (by decide)
  exact absurd hflag (by decide)

/-- Eight keys and the two temperatures fill the queue: ON_FAN is dropped, OFF_FAN comes first. -/
example :
    (Transition.exec step (start .init) (startsUp ++ .replicate 8 (.startDefaultTask .kp1) ++
      tickOf 180 ++ .replicate 10 .startTask7200 ++ tickOf 140)).ticks.flatMap fanMsgs =
      [CmdType.offFan.toByte] := by
  decide +kernel

end Callback01

end TruckControl
