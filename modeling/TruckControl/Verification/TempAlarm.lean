import Mathlib.Data.List.Chain
import TruckControl.Library.Toggle
import TruckControl.Verification.FanControl

/-!
# The temperature alarm

The flag that tells of an alarm is taken back by the next tick, and the tone with it, however
hot the engine is. A reading below the freezing point may be taken for a hot one.
-/

namespace TruckControl

variable {limit : BitVec 16} {rawData : BitVec 9}

/-- The reading is above the limit. The code of the DS1620 is signed. -/
def TooHigh (limit : BitVec 16) (rawData : BitVec 9) : Prop := rawData.toInt > limit.toNat

/-- A reading below the freezing point that is compared as one above the limit. -/
def FalselyHigh (limit : BitVec 16) (rawData : BitVec 9) : Prop :=
  Misread rawData ∧ rawData.toNat > limit.toNat

/-- What the comparison says. -/
def SeenHigh (limit : BitVec 16) (rawData : BitVec 9) : Prop :=
  Stm32.freezing rawData.toNat > limit.toNat

instance (limit : BitVec 16) : DecidablePred (TooHigh limit) :=
  fun rawData => inferInstanceAs (Decidable (rawData.toInt > limit.toNat))

instance (limit : BitVec 16) : DecidablePred (FalselyHigh limit) :=
  fun rawData => inferInstanceAs (Decidable (Misread rawData ∧ rawData.toNat > limit.toNat))

instance (limit : BitVec 16) : DecidablePred (SeenHigh limit) :=
  fun rawData => inferInstanceAs (Decidable (Stm32.freezing rawData.toNat > limit.toNat))

theorem FalselyHigh.not_tooHigh (h : FalselyHigh limit rawData) : ¬ TooHigh limit rawData := by
  have hbelow := h.1.atOrBelow limit
  rw [AtOrBelow] at hbelow
  rw [TooHigh]
  omega

theorem seenHigh_iff :
    SeenHigh limit rawData ↔ TooHigh limit rawData ∨ FalselyHigh limit rawData := by
  have hraw := rawData.isLt
  rw [SeenHigh, TooHigh, FalselyHigh, Misread, Stm32.freezing, BitVec.toInt_eq_toNat_cond]
  split_ifs <;> omega

/-- The readings that the alarm can follow: none that is falsely high starts an alarm, and
none takes back an alarm that is high. -/
def Heard (limit : BitVec 16) (readings : List (BitVec 9)) : Prop :=
  (∀ x ∈ readings.head?, ¬ FalselyHigh limit x) ∧
    readings.IsChain fun x y =>
      if TooHigh limit x then ¬ TooHigh limit y else ¬ FalselyHigh limit y

instance (limit : BitVec 16) : DecidablePred (Heard limit) :=
  fun readings => inferInstanceAs (Decidable ((∀ x ∈ readings.head?, ¬ FalselyHigh limit x) ∧
    readings.IsChain fun x y =>
      if TooHigh limit x then ¬ TooHigh limit y else ¬ FalselyHigh limit y))

theorem agrees_iff (on : Bool) :
    Toggle.Agrees (SeenHigh limit) (TooHigh limit) on rawData ↔
      if on then ¬ TooHigh limit rawData else ¬ FalselyHigh limit rawData := by
  have hfalse : FalselyHigh limit rawData → ¬ TooHigh limit rawData := FalselyHigh.not_tooHigh
  cases on with
  | true => simp [Toggle.Agrees]
  | false =>
      simp only [Toggle.Agrees, seenHigh_iff, Bool.false_eq_true, if_false]
      tauto

/-- These are the readings by which the flag tells what is high. -/
theorem follows_iff_heard (readings : List (BitVec 9)) :
    Toggle.Follows (SeenHigh limit) (TooHigh limit) false readings ↔ Heard limit readings := by
  rw [Toggle.follows_iff_isChain, Heard]
  simp only [agrees_iff, Bool.false_eq_true, if_false, decide_eq_true_eq]

namespace Stm32

/-! ## What leaves the flag alone -/

@[simp] theorem tooHighFlag_xQueueSend (cmd : UCHAR) (s : Stm32) :
    (s.xQueueSend cmd).tooHighFlag = s.tooHighFlag := by
  rw [xQueueSend]
  split_ifs <;> rfl

@[simp] theorem tooHighFlag_switchFanOn (rawData : ℤ) (s : Stm32) :
    (s.switchFanOn rawData).tooHighFlag = s.tooHighFlag := by
  rw [switchFanOn]
  split_ifs <;> simp

@[simp] theorem tooHighFlag_switchFanOff (rawData : ℤ) (s : Stm32) :
    (s.switchFanOff rawData).tooHighFlag = s.tooHighFlag := by
  rw [switchFanOff]
  split_ifs <;> simp

@[simp] theorem tooHighFlag_startRecv7200 (frame : SendSerial) (s : Stm32) :
    (s.startRecv7200 frame).tooHighFlag = s.tooHighFlag := by
  by_cases haccept : actuator frame.cmd ∨ frame.cmd ∈ recvCommands.map CmdType.toByte
  · rw [startRecv7200, if_pos haccept]
    cases CmdType.ofByte frame.cmd with
    | none => rfl
    | some cmd => cases cmd <;> simp
  · rw [startRecv7200, if_neg haccept]

@[simp] theorem tooHighFlag_startRecvFPGA (s : Stm32) :
    s.startRecvFPGA.tooHighFlag = s.tooHighFlag := by
  simp only [startRecvFPGA]
  split_ifs <;> simp

@[simp] theorem tooHighFlag_startDefaultTask (key : KeyType) (s : Stm32) :
    (s.startDefaultTask key).tooHighFlag = s.tooHighFlag := by
  cases key <;> simp [startDefaultTask]

@[simp] theorem tooHighFlag_startTask7200 (s : Stm32) :
    s.startTask7200.1.tooHighFlag = s.tooHighFlag := by
  rw [startTask7200]
  split <;> rfl

end Stm32

namespace Callback01

variable {s : Callback01} {ts : List TempTick}

/-! ## What the alarm should do -/

/-- How often the server is told of the alarm in a tick. -/
def told (t : TempTick) : ℕ := t.sent.count CmdType.tempTooHigh.toByte

/-- After every tick the last tone is the alarm's exactly if the reading is above the limit. -/
def Sounds (limit : BitVec 16) (ts : List TempTick) : Prop :=
  ∀ front t back, ts = front ++ t :: back →
    (((front ++ [t]).flatMap TempTick.tones).getLast? = some specialToneOn ↔
      TooHigh limit t.rawData)

/-- A run of ticks above the limit that is not a part of a longer one. -/
structure MaximalRun (limit : BitVec 16) (ts front run back : List TempTick) : Prop where
  split : ts = front ++ run ++ back
  ne_nil : run ≠ []
  high : ∀ t ∈ run, TooHigh limit t.rawData
  front : ∀ t ∈ front.getLast?, ¬ TooHigh limit t.rawData
  back : ∀ t ∈ back.head?, ¬ TooHigh limit t.rawData

/-- The server is told once of each such run, and at no other tick. -/
def TellsOnce (limit : BitVec 16) (ts : List TempTick) : Prop :=
  (∀ front run back, MaximalRun limit ts front run back →
    (run.flatMap TempTick.sent).count CmdType.tempTooHigh.toByte = 1) ∧
    ∀ t ∈ ts, ¬ TooHigh limit t.rawData → told t = 0

/-- The queues have room for what is sent of the alarm. -/
def RoomForAlarm (limit : BitVec 16) (s : Callback01) : CallbackEvent → Prop
  | .callback01 =>
      (s.point = .alarm → s.stm32.tooHighFlag = 1 ∨ TooHigh limit s.tick.rawData ∨
          FalselyHigh limit s.tick.rawData → s.sendFPGA.length < 10) ∧
        (s.point = .tempTooHigh → s.stm32.send7200.length < 10)
  | _ => True

instance (limit : BitVec 16) (s : Callback01) : DecidablePred (RoomForAlarm limit s)
  | .callback01 => inferInstanceAs (Decidable (_ ∧ _))
  | .timer _ | .startRecv7200 _ | .startDefaultTask _ | .startRecvFPGA | .startTask7200
  | .otherTask _ | .startSendFPGA => .isTrue trivial

/-! ## What it does -/

/-- The tones of a tick and how often it tells, by the flag and the reading. -/
def tickSends (on seen : Bool) : List UCHAR × ℕ :=
  match on, seen with
  | false, true => ([specialToneOn], 1)
  | true, _ => ([dtmfToneOff], 0)
  | false, false => ([], 0)

/-- The flag after these ticks. -/
def flagAfter (limit : BitVec 16) (on : Bool) (ts : List TempTick) : Bool :=
  (ts.map TempTick.rawData).foldl (Toggle.toggle (SeenHigh limit)) on

/-- The ticks are those of an alarm whose flag is this at first. -/
def Toggled (limit : BitVec 16) : Bool → List TempTick → Prop
  | _, [] => True
  | on, t :: ts =>
      (t.tones, told t) = tickSends on (SeenHigh limit t.rawData) ∧
        Toggled limit (Toggle.toggle (SeenHigh limit) on t.rawData) ts

theorem flagAfter_concat (on : Bool) (ts : List TempTick) (t : TempTick) :
    flagAfter limit on (ts ++ [t]) =
      Toggle.toggle (SeenHigh limit) (flagAfter limit on ts) t.rawData := by
  rw [flagAfter, List.map_append, List.foldl_append]
  rfl

theorem toggled_append {on : Bool} {front back : List TempTick} :
    Toggled limit on (front ++ back) ↔
      Toggled limit on front ∧ Toggled limit (flagAfter limit on front) back := by
  induction front generalizing on with
  | nil => simp [Toggled, flagAfter]
  | cons t front ih =>
      rw [List.cons_append, Toggled, ih, Toggled, and_assoc]
      rfl

theorem toggled_concat {on : Bool} {ts : List TempTick} {t : TempTick} :
    Toggled limit on (ts ++ [t]) ↔ Toggled limit on ts ∧
      (t.tones, told t) = tickSends (flagAfter limit on ts) (SeenHigh limit t.rawData) := by
  rw [toggled_append, Toggled, Toggled, and_true]

/-- The tone is on exactly while the flag is set. -/
theorem lastTone_iff (h : Toggled limit false ts) :
    (ts.flatMap TempTick.tones).getLast? = some specialToneOn ↔
      flagAfter limit false ts = true := by
  induction ts using List.reverseRecOn with
  | nil => simp [flagAfter]
  | append_singleton ts t ih =>
      obtain ⟨hrest, hsends⟩ := toggled_concat.mp h
      have htones := congrArg Prod.fst hsends
      have hdiff : dtmfToneOff ≠ specialToneOn := by decide
      rw [flagAfter_concat, List.flatMap_append, List.flatMap_singleton, List.getLast?_append]
      change t.tones = _ at htones
      rw [htones]
      cases hon : flagAfter limit false ts with
      | true => simp [tickSends, Toggle.toggle, hdiff]
      | false =>
          rw [hon] at ih
          by_cases hseen : SeenHigh limit t.rawData
          · simp [tickSends, Toggle.toggle, hseen]
          · simpa [tickSends, Toggle.toggle, hseen] using ih hrest

theorem sounds_iff (h : Toggled limit false ts) :
    Sounds limit ts ↔ Heard limit (ts.map TempTick.rawData) := by
  rw [← follows_iff_heard, Toggle.follows_iff_forall]
  have hafter {front back : List TempTick} {t : TempTick} (hts : ts = front ++ t :: back) :
      ((front ++ [t]).flatMap TempTick.tones).getLast? = some specialToneOn ↔
        flagAfter limit false (front ++ [t]) = true := by
    rw [hts, List.append_cons] at h
    exact lastTone_iff (toggled_append.mp h).1
  constructor
  · intro hsounds front x back hmap
    obtain ⟨front, rest, rfl, rfl, hrest⟩ := List.map_eq_append_iff.mp hmap
    obtain ⟨t, back, rfl, rfl, rfl⟩ := List.map_eq_cons_iff.mp hrest
    have hlast := hafter rfl
    rw [hsounds front t back rfl, flagAfter, List.map_append, List.map_cons, List.map_nil] at hlast
    rw [eq_comm, Bool.eq_iff_iff, decide_eq_true_eq]
    exact hlast
  · intro hfollow front t back hts
    have hvalue := hfollow (front.map TempTick.rawData) t.rawData (back.map TempTick.rawData)
      (by rw [hts, List.map_append, List.map_cons])
    rw [hafter hts, flagAfter, List.map_append, List.map_cons, List.map_nil, hvalue,
      decide_eq_true_eq]

/-- What a tick sends, among others. -/
theorem Toggled.sends_eq {on : Bool} {front back : List TempTick} {t : TempTick}
    (h : Toggled limit on (front ++ t :: back)) :
    (t.tones, told t) = tickSends (flagAfter limit on front) (SeenHigh limit t.rawData) :=
  (toggled_append.mp h).2.1

/-- While the alarm can follow, its flag does, and the server is told of what is high. -/
theorem told_eq {front back : List TempTick} {t : TempTick}
    (h : Toggled limit false (front ++ t :: back))
    (hheard : Heard limit ((front ++ t :: back).map TempTick.rawData)) :
    flagAfter limit false (front ++ [t]) = decide (TooHigh limit t.rawData) ∧
      told t = if TooHigh limit t.rawData then 1 else 0 := by
  rw [← follows_iff_heard, List.map_append, List.map_cons] at hheard
  have hvalue : flagAfter limit false (front ++ [t]) = decide (TooHigh limit t.rawData) := by
    rw [flagAfter, List.map_append]
    exact hheard.foldl_concat
  have htold := congrArg Prod.snd h.sends_eq
  change told t = _ at htold
  refine ⟨hvalue, htold.trans ?_⟩
  rw [flagAfter_concat] at hvalue
  -- the server is told exactly if the flag is set
  cases hon : flagAfter limit false front <;> rw [hon] at hvalue <;>
    simp only [Toggle.toggle, Bool.not_true, Bool.not_false, Bool.true_and, Bool.false_and]
      at hvalue
  · rw [hvalue]
    by_cases hhigh : TooHigh limit t.rawData <;> simp [tickSends, hhigh]
  · rw [eq_comm, decide_eq_false_iff_not] at hvalue
    simp [tickSends, hvalue]

/-- While the alarm can follow, the server is told of each run. -/
theorem tellsOnce_of_heard (h : Toggled limit false ts)
    (hheard : Heard limit (ts.map TempTick.rawData)) : TellsOnce limit ts := by
  constructor
  · intro front run back hrun
    obtain ⟨rfl, hne, hhigh, -, -⟩ := hrun
    rw [List.append_assoc] at h hheard
    cases run with
    | nil => exact absurd rfl hne
    | cons t run =>
        have hhigh_t : TooHigh limit t.rawData := hhigh t List.mem_cons_self
        have htold := (told_eq h hheard).2
        rw [if_pos hhigh_t] at htold
        cases run with
        | nil =>
            rw [List.flatMap_singleton]
            exact htold
        | cons u run =>
            have hhigh_u : TooHigh limit u.rawData :=
              hhigh u (List.mem_cons_of_mem t List.mem_cons_self)
            simp only [List.map_append, List.cons_append, List.map_cons] at hheard
            have hnext := (List.isChain_append_cons_cons.mp hheard.2).2.1
            rw [if_pos hhigh_t] at hnext
            exact absurd hhigh_u hnext
  · intro t ht hlow
    obtain ⟨front, back, rfl⟩ := List.append_of_mem ht
    rw [(told_eq h hheard).2, if_neg hlow]

/-! ## Ticks -/

/-- How far the tick is with the alarm. -/
inductive AlarmAt (limit : BitVec 16) (s : Callback01) : Prop where
  | before (hpoint : s.point = .idle ∨ s.point = .engineTemp ∨ s.point = .indoorTemp ∨
      s.point = .alarm)
      (hflag : s.stm32.tooHighFlag = if flagAfter limit false s.ticks then 1 else 0)
      (hsends : s.point ≠ .idle → (s.tick.tones, told s.tick) = ([], 0))
  | sounding (hpoint : s.point = .tempTooHigh) (hon : flagAfter limit false s.ticks = false)
      (hseen : SeenHigh limit s.tick.rawData)
      (hsends : (s.tick.tones, told s.tick) = ([specialToneOn], 0))
  | after (hpoint : s.point = .fanOn ∨ s.point = .fanOff)
      (hflag : s.stm32.tooHighFlag = if Toggle.toggle (SeenHigh limit)
        (flagAfter limit false s.ticks) s.tick.rawData then 1 else 0)
      (hsends : (s.tick.tones, told s.tick) =
        tickSends (flagAfter limit false s.ticks) (SeenHigh limit s.tick.rawData))

structure AlarmInv (limit : BitVec 16) (s : Callback01) : Prop where
  toggled : Toggled limit false s.ticks
  alarmAt : AlarmAt limit s

/-- What other tasks change. -/
theorem AlarmInv.of_tooHighFlag (h : AlarmInv limit s) {stm32 : Stm32} {sendFPGA : List UCHAR}
    (hflag : stm32.tooHighFlag = s.stm32.tooHighFlag) :
    AlarmInv limit { s with stm32 := stm32, sendFPGA := sendFPGA } := by
  refine ⟨h.toggled, ?_⟩
  cases h.alarmAt with
  | before hpoint hwas hsends => exact .before hpoint (hflag.trans hwas) hsends
  | sounding hpoint hon hseen hsends => exact .sounding hpoint hon hseen hsends
  | after hpoint hwas hsends => exact .after hpoint (hflag.trans hwas) hsends

/-- A message that is none of the alarm. -/
theorem told_part {f : Stm32 → Stm32}
    (hnews : CmdType.tempTooHigh.toByte ∉ (f s.stm32).send7200.drop s.stm32.send7200.length) :
    told (s.part f).tick = told s.tick := by
  rw [told, told, part, List.count_append, List.count_eq_zero.mpr hnews, Nat.add_zero]

theorem not_mem_news_xQueueSend {cmd : UCHAR} (hcmd : cmd ≠ CmdType.tempTooHigh.toByte)
    (stm32 : Stm32) :
    CmdType.tempTooHigh.toByte ∉
      (stm32.xQueueSend cmd).send7200.drop stm32.send7200.length := by
  rw [Stm32.drop_send7200_xQueueSend]
  split_ifs <;> simp [hcmd.symm]

theorem not_mem_news_switchFanOn (rawData : ℤ) (stm32 : Stm32) :
    CmdType.tempTooHigh.toByte ∉
      (stm32.switchFanOn rawData).send7200.drop stm32.send7200.length := by
  rw [Stm32.switchFanOn]
  split_ifs
  · exact not_mem_news_xQueueSend (by decide) { stm32 with fanOn := 1 }
  · simp

theorem not_mem_news_switchFanOff (rawData : ℤ) (stm32 : Stm32) :
    CmdType.tempTooHigh.toByte ∉
      (stm32.switchFanOff rawData).send7200.drop stm32.send7200.length := by
  rw [Stm32.switchFanOff]
  split_ifs
  · exact not_mem_news_xQueueSend (by decide) { stm32 with fanOn := 0 }
  · simp

/-- A tone that the queue takes. -/
theorem tones_sendTone {cmd : UCHAR} (hroom : s.sendFPGA.length < 10) :
    (s.sendTone cmd).tick.tones = s.tick.tones ++ [cmd] := by
  simp [sendTone, Callback01.xQueueSend, hroom]

theorem told_sendTone (cmd : UCHAR) (s : Callback01) :
    told (s.sendTone cmd).tick = told s.tick := by
  rw [sendTone, Callback01.xQueueSend]
  split_ifs <;> rfl

theorem ticks_sendTone (cmd : UCHAR) (s : Callback01) : (s.sendTone cmd).ticks = s.ticks := by
  rw [sendTone, Callback01.xQueueSend]
  split_ifs <;> rfl

/-- Before the alarm. -/
theorem AlarmInv.before (h : AlarmInv limit s)
    (hpoint : s.point = .idle ∨ s.point = .engineTemp ∨ s.point = .indoorTemp ∨
      s.point = .alarm) :
    s.stm32.tooHighFlag = (if flagAfter limit false s.ticks then 1 else 0) ∧
      (s.point ≠ .idle → (s.tick.tones, told s.tick) = ([], 0)) := by
  cases h.alarmAt with
  | before _ hflag hsends => exact ⟨hflag, hsends⟩
  | sounding hat =>
      rcases hpoint with hp | hp | hp | hp <;> rw [hat] at hp <;> cases hp
  | after hat =>
      rcases hat with hat | hat <;> rcases hpoint with hp | hp | hp | hp <;> rw [hat] at hp <;>
        cases hp

/-- The alarm goes on, and sends the tone first. -/
theorem AlarmInv.alarm (h : AlarmInv limit s) (hpoint : s.point = .alarm)
    (hlimit : s.stm32.engineTempLimit = limit) (hroom : RoomForAlarm limit s .callback01) :
    AlarmInv limit s.alarm := by
  obtain ⟨hflag, hsends⟩ := h.before (by simp [hpoint])
  have hsends := hsends (by rw [hpoint]; decide)
  rw [Prod.mk.injEq] at hsends
  obtain ⟨htones, htold⟩ := hsends
  have hroom := hroom.1 hpoint
  rw [← seenHigh_iff] at hroom
  have hseen : s.rawData > s.stm32.engineTempLimit.toNat ↔ SeenHigh limit s.tick.rawData := by
    rw [hlimit, rawData, SeenHigh]
  rw [Callback01.alarm]
  cases hon : flagAfter limit false s.ticks with
  | false =>
      rw [hon] at hflag
      have hzero : s.stm32.tooHighFlag = 0 := hflag
      by_cases hhigh : SeenHigh limit s.tick.rawData
      · rw [if_pos ⟨hzero, hseen.mpr hhigh⟩]
        refine ⟨?_, .sounding rfl ?_ ?_ ?_⟩
        · exact (ticks_sendTone _ s).symm ▸ h.toggled
        · exact (ticks_sendTone _ s).symm ▸ hon
        · exact (tick_rawData_sendTone specialToneOn s).symm ▸ hhigh
        · rw [Prod.mk.injEq]
          exact ⟨by rw [tones_sendTone (hroom (.inr hhigh)), htones]; rfl,
            (told_sendTone specialToneOn s).trans htold⟩
      · have hoff : ¬ s.stm32.tooHighFlag = 1 := by omega
        rw [if_neg fun h => hhigh (hseen.mp h.2), if_neg hoff]
        refine ⟨h.toggled, .after (.inl rfl) ?_ ?_⟩
        · simp [hon, hhigh, Toggle.toggle, hzero]
        · simp [hon, hhigh, tickSends, htones, htold]
  | true =>
      rw [hon] at hflag
      have hone : s.stm32.tooHighFlag = 1 := hflag
      rw [if_neg fun h => absurd (hone.symm.trans h.1) (by decide), if_pos hone]
      refine ⟨?_, .after (.inl rfl) ?_ ?_⟩
      · exact (ticks_sendTone _ s).symm ▸ h.toggled
      · simp [ticks_sendTone, hon, Toggle.toggle]
      · simp [ticks_sendTone, hon, tickSends, tones_sendTone (hroom (.inl hone)), htones,
          told_sendTone, htold]

/-- The alarm tells the server. -/
theorem AlarmInv.tell (h : AlarmInv limit s) (hpoint : s.point = .tempTooHigh)
    (hroom : RoomForAlarm limit s .callback01) : AlarmInv limit s.callback01 := by
  have hroom := hroom.2 hpoint
  cases h.alarmAt with
  | before hat => rcases hat with hat | hat | hat | hat <;> rw [hpoint] at hat <;> cases hat
  | after hat => rcases hat with hat | hat <;> rw [hpoint] at hat <;> cases hat
  | sounding _ hon hseen hsends =>
      rw [Prod.mk.injEq] at hsends
      obtain ⟨htones, htold⟩ := hsends
      have hnews := Stm32.drop_send7200_xQueueSend CmdType.tempTooHigh.toByte s.stm32
      rw [if_pos hroom] at hnews
      simp only [callback01, hpoint]
      refine ⟨h.toggled, .after (.inl rfl) ?_ ?_⟩
      · simp [part, hon, hseen, Toggle.toggle]
      · rw [told] at htold
        simp [part, hon, hseen, tickSends, htones, told, hnews, htold]

/-- A part that does not concern the alarm. -/
theorem AlarmInv.part (h : AlarmInv limit s) {f : Stm32 → Stm32}
    (hflag : (f s.stm32).tooHighFlag = s.stm32.tooHighFlag)
    (hnews : CmdType.tempTooHigh.toByte ∉ (f s.stm32).send7200.drop s.stm32.send7200.length) :
    AlarmInv limit (s.part f) := by
  have htold := told_part hnews
  refine ⟨h.toggled, ?_⟩
  cases h.alarmAt with
  | before hpoint hwas hsends =>
      refine .before hpoint (hflag.trans hwas) ?_
      rw [htold]
      exact hsends
  | sounding hpoint hon hseen hsends =>
      refine .sounding hpoint hon hseen ?_
      rw [htold]
      exact hsends
  | after hpoint hwas hsends =>
      refine .after hpoint (hflag.trans hwas) ?_
      rw [htold]
      exact hsends

/-- The tick goes on before its alarm. -/
theorem AlarmInv.toBefore (h : AlarmInv limit s)
    (hpoint : s.point = .engineTemp ∨ s.point = .indoorTemp) {point : CallbackPoint}
    (hpoint' : point = .indoorTemp ∨ point = .alarm) :
    AlarmInv limit { s with point := point } := by
  obtain ⟨hflag, hsends⟩ := h.before (by tauto)
  refine ⟨h.toggled, .before ?_ hflag fun _ => hsends ?_⟩
  · rcases hpoint' with rfl | rfl <;> simp
  · rcases hpoint with hp | hp <;> rw [hp] <;> decide

/-- Behind the alarm. -/
theorem AlarmInv.after (h : AlarmInv limit s) (hpoint : s.point = .fanOn ∨ s.point = .fanOff) :
    s.stm32.tooHighFlag = (if Toggle.toggle (SeenHigh limit)
        (flagAfter limit false s.ticks) s.tick.rawData then 1 else 0) ∧
      (s.tick.tones, told s.tick) =
        tickSends (flagAfter limit false s.ticks) (SeenHigh limit s.tick.rawData) := by
  cases h.alarmAt with
  | after _ hflag hsends => exact ⟨hflag, hsends⟩
  | before hat =>
      rcases hat with hat | hat | hat | hat <;> rcases hpoint with hp | hp <;> rw [hat] at hp <;>
        cases hp
  | sounding hat => rcases hpoint with hp | hp <;> rw [hat] at hp <;> cases hp

/-- The tick is over. -/
theorem AlarmInv.finish (h : AlarmInv limit s) (hpoint : s.point = .fanOff) :
    AlarmInv limit
      { s with
        point := .idle, ticks := s.ticks ++ [{ s.tick with fanOn := s.stm32.fanOn }] } := by
  obtain ⟨hflag, hsends⟩ := h.after (.inr hpoint)
  refine ⟨toggled_concat.mpr ⟨h.toggled, hsends⟩, .before (.inl rfl) ?_ fun h => absurd rfl h⟩
  rw [flagAfter_concat]
  exact hflag

theorem AlarmInv.callback01 (h : AlarmInv limit s) (hlimit : s.stm32.engineTempLimit = limit)
    (hroom : RoomForAlarm limit s .callback01) : AlarmInv limit s.callback01 := by
  cases hpoint : s.point with
  | idle =>
      rw [show s.callback01 = s from callback01_idle hpoint 1]
      exact h
  | engineTemp =>
      have hpart := h.part (f := Stm32.xQueueSend CmdType.engineTemp.toByte)
        (Stm32.tooHighFlag_xQueueSend _ _) (not_mem_news_xQueueSend (by decide) s.stm32)
      simp only [Callback01.callback01, hpoint]
      exact hpart.toBefore (.inl hpoint) (.inl rfl)
  | indoorTemp =>
      have hpart := h.part (f := Stm32.xQueueSend CmdType.indoorTemp.toByte)
        (Stm32.tooHighFlag_xQueueSend _ _) (not_mem_news_xQueueSend (by decide) s.stm32)
      simp only [Callback01.callback01, hpoint]
      exact hpart.toBefore (.inr hpoint) (.inr rfl)
  | alarm =>
      simp only [Callback01.callback01, hpoint]
      exact h.alarm hpoint hlimit hroom
  | tempTooHigh => exact h.tell hpoint hroom
  | fanOn =>
      have hpart := h.part (f := Stm32.switchFanOn s.rawData)
        (Stm32.tooHighFlag_switchFanOn _ _) (not_mem_news_switchFanOn _ _)
      obtain ⟨hflag, hsends⟩ := hpart.after (.inl hpoint)
      simp only [Callback01.callback01, hpoint]
      exact ⟨hpart.toggled, .after (.inr rfl) hflag hsends⟩
  | fanOff =>
      have hpart := h.part (f := Stm32.switchFanOff s.rawData)
        (Stm32.tooHighFlag_switchFanOff _ _) (not_mem_news_switchFanOff _ _)
      simp only [Callback01.callback01, hpoint]
      exact hpart.finish hpoint

theorem AlarmInv.step (h : AlarmInv limit s) {e : CallbackEvent}
    (hlimit : s.stm32.engineTempLimit = limit) (hroom : RoomForAlarm limit s e) :
    AlarmInv limit (s.step e) := by
  cases e with
  | timer rawData =>
      rw [Callback01.step, timer]
      split_ifs with hup
      · obtain ⟨hflag, -⟩ := h.before (.inl hup.1)
        exact ⟨h.toggled, .before (.inr (.inl rfl)) hflag fun _ => rfl⟩
      · exact h
  | callback01 => exact h.callback01 hlimit hroom
  | startRecv7200 frame =>
      exact h.of_tooHighFlag (Stm32.tooHighFlag_startRecv7200 frame s.stm32)
  | startDefaultTask key =>
      exact h.of_tooHighFlag (Stm32.tooHighFlag_startDefaultTask key s.stm32)
  | startRecvFPGA => exact h.of_tooHighFlag (Stm32.tooHighFlag_startRecvFPGA s.stm32)
  | startTask7200 => exact h.of_tooHighFlag (Stm32.tooHighFlag_startTask7200 s.stm32)
  | otherTask cmd =>
      rw [Callback01.step, Callback01.xQueueSend]
      split_ifs
      · exact h.of_tooHighFlag rfl
      · exact h
  | startSendFPGA => exact h.of_tooHighFlag rfl

/-- From a flag that is not set, with a constant limit and room for its messages, the alarm
sounds with the readings and tells of each run above the limit exactly if no two readings in a
row are above it, the second of which takes the alarm back, and no cold reading is taken for a
hot one where that starts an alarm. -/
theorem alarm_iff (s : Stm32) (es : List CallbackEvent) (limit : BitVec 16)
    (hflag : s.tooHighFlag = 0)
    (hlimit : Transition.Meets step (fun s _ => s.stm32.engineTempLimit = limit) (start s) es)
    (hroom : Transition.Meets step (RoomForAlarm limit) (start s) es) :
    let ts := (Transition.exec step (start s) es).ticks
    (Sounds limit ts ∧ TellsOnce limit ts) ↔ Heard limit (ts.map TempTick.rawData) := by
  intro ts
  have hstart : AlarmInv limit (start s) :=
    ⟨trivial, .before (.inl rfl) hflag fun h => absurd rfl h⟩
  have hend : AlarmInv limit (Transition.exec step (start s) es) :=
    Transition.inv_exec_of_meets (fun _ _ h he => h.step he.1 he.2) hstart (hlimit.and hroom)
  constructor
  · intro h
    exact (sounds_iff hend.toggled).mp h.1
  · intro hheard
    exact ⟨(sounds_iff hend.toggled).mpr hheard, tellsOnce_of_heard hend.toggled hheard⟩

/-- The server comes up with a limit of 190; the messages of a tick are sent before the next. -/
def alarmUp (readings : List (BitVec 9)) : List CallbackEvent :=
  startsUp ++ readings.flatMap fun rawData =>
    tickOf rawData ++ .replicate 4 .startTask7200 ++ [.startSendFPGA]

/-- The readings cross the limit twice, and go back below it at once; the coldest reading
takes the second alarm back. -/
theorem alarm_iff_crossings :
    let ts := (Transition.exec step (start .init) (alarmUp [180, 191, 403, 192, 402])).ticks
    ts.map told = [0, 1, 0, 1, 0] ∧ Sounds 190 ts ∧ TellsOnce 190 ts := by
  intro ts
  have hiff := alarm_iff .init (alarmUp [180, 191, 403, 192, 402]) 190 rfl (by decide +kernel)
    (by decide +kernel)
  exact ⟨by decide +kernel, hiff.mpr (by decide +kernel)⟩

/-- A tick of a hot engine, with what it sends besides its temperatures. -/
def hotTick (tones : List UCHAR) (cmds : List CmdType) : TempTick where
  rawData := 191
  engineOn := 1
  sent := (CmdType.engineTemp :: .indoorTemp :: cmds).map CmdType.toByte
  tones := tones
  fanOn := 1

/-- The engine stays above the limit for two readings: the second switches the tone off. -/
theorem not_alarm_staysHigh :
    let ts := (Transition.exec step (start .init) (alarmUp [191, 191, 191])).ticks
    ts = [hotTick [specialToneOn] [.tempTooHigh, .onFan], hotTick [dtmfToneOff] [],
        hotTick [specialToneOn] [.tempTooHigh]] ∧
      ¬ Sounds 190 ts ∧ ¬ TellsOnce 190 ts := by
  intro ts
  have hts : ts = [hotTick [specialToneOn] [.tempTooHigh, .onFan], hotTick [dtmfToneOff] [],
      hotTick [specialToneOn] [.tempTooHigh]] := by
    decide +kernel
  rw [hts]
  refine ⟨rfl, fun hsounds => ?_, fun htells => ?_⟩
  · have hsecond := hsounds [hotTick [specialToneOn] [.tempTooHigh, .onFan]]
      (hotTick [dtmfToneOff] []) [hotTick [specialToneOn] [.tempTooHigh]] rfl
    exact absurd (hsecond.mpr (by decide)) (by decide)
  · have honce := htells.1 [] _ [] ⟨(List.append_nil _).symm, by simp, by decide, by simp, by simp⟩
    exact absurd honce (by decide)

/-- The coldest reading of the sensor, -55 °C, sounds the alarm. -/
example :
    let ts := (Transition.exec step (start .init) (alarmUp [402])).ticks
    ts.map told = [1] ∧ ts.map TempTick.tones = [[specialToneOn]] ∧ ¬ TooHigh 190 402 := by
  decide +kernel

end Callback01

end TruckControl
