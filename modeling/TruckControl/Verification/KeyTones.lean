import TruckControl.Library.Transition
import TruckControl.Model.Tones

/-!
# The tones of the keys

The tasks that switch a tone on switch it off again; the queue between them and the FPGA may
be full just then.
-/

namespace TruckControl

/-- The turns that are still to come, with those of the messages and of the key it sends. -/
def KeyStatePoint.left : KeyStatePoint → ℕ
  | .waitForPress => 0
  | .waitForRelease _ => 13
  | .toneOff => 3

def DefaultPoint.left : DefaultPoint → ℕ
  | .receive => 0
  | .secondTone => 6
  | .toneOff => 3

namespace ToneTasks

variable {s : ToneTasks}

/-- The last message about tones. -/
def lastTone (ms : List FpgaMsg) : Option FpgaMsg :=
  (ms.filter fun m => m ≠ .other).getLast?

/-- What the queue has accepted since the start. -/
def accepted (s : ToneTasks) : List FpgaMsg := s.delivered ++ s.sending.toList ++ s.sendFPGA

/-- The last tone that was accepted is one that ends tones. -/
def Quiet (s : ToneTasks) : Prop := ∀ m ∈ lastTone s.accepted, m = .dtmfToneOff

instance (s : ToneTasks) : Decidable s.Quiet :=
  inferInstanceAs (Decidable (∀ m ∈ lastTone s.accepted, m = .dtmfToneOff))

/-- No key is held down and the tasks have nothing left to do. -/
structure AtRest (s : ToneTasks) : Prop where
  held : s.held = []
  keyState : s.keyState = .waitForPress
  defaultTask : s.defaultTask = .receive
  keypressed : s.keypressed = []
  sendFPGA : s.sendFPGA = []
  sending : s.sending = none

/-- The event sends the end of a tone. -/
def EndsTone (s : ToneTasks) : ToneEvent → Prop
  | .startKeyStateTask => s.keyState = .toneOff
  | .startDefaultTask => s.defaultTask = .toneOff
  | .keys _ | .startSendFPGA | .otherTask => False

/-- The end of a tone finds room in the queue, or no tone to end. -/
def EndHeard (s : ToneTasks) (e : ToneEvent) : Prop :=
  s.EndsTone e → s.sendFPGA.length < 10 ∨ s.Quiet

instance (s : ToneTasks) : DecidablePred s.EndsTone
  | .startKeyStateTask | .startDefaultTask => inferInstanceAs (Decidable (_ = _))
  | .keys _ | .startSendFPGA | .otherTask => .isFalse id

instance (s : ToneTasks) (e : ToneEvent) : Decidable (s.EndHeard e) :=
  inferInstanceAs (Decidable (_ → _ ∨ _))

/-! ## What the queue accepts -/

theorem quiet_congr {t : ToneTasks} (h : t.accepted = s.accepted) : t.Quiet ↔ s.Quiet := by
  rw [Quiet, Quiet, h]

theorem accepted_xQueueSend (m : FpgaMsg) (s : ToneTasks) :
    (s.xQueueSend m).accepted =
      if s.sendFPGA.length < 10 then s.accepted ++ [m] else s.accepted := by
  rw [xQueueSend]
  split_ifs
  · simp only [accepted, List.append_assoc]
  · rfl

@[simp] theorem accepted_sendKey (key : KeyType) (s : ToneTasks) :
    (s.sendKey key).accepted = s.accepted := by
  rw [sendKey]
  split_ifs <;> rfl

theorem accepted_startSendFPGA (s : ToneTasks) : s.startSendFPGA.accepted = s.accepted := by
  rw [startSendFPGA]
  split
  next m hsending => simp [accepted, hsending]
  next m rest hsending hqueue => simp [accepted, hsending, hqueue]
  next => rfl

/-- After the end of a tone that is heard, all is quiet. -/
theorem quiet_end (h : s.sendFPGA.length < 10 ∨ s.Quiet) :
    (s.xQueueSend .dtmfToneOff).Quiet := by
  rw [Quiet, accepted_xQueueSend]
  split_ifs with hroom
  · intro m hm
    simpa [lastTone, eq_comm] using hm
  · exact h.resolve_left hroom

theorem quiet_other (h : s.Quiet) : (s.xQueueSend .other).Quiet := by
  rw [Quiet, accepted_xQueueSend]
  split_ifs with hroom
  · simpa [lastTone, Quiet] using h
  · exact h

@[simp] theorem keyState_xQueueSend (m : FpgaMsg) (s : ToneTasks) :
    (s.xQueueSend m).keyState = s.keyState := by
  rw [xQueueSend]
  split_ifs <;> rfl

@[simp] theorem defaultTask_xQueueSend (m : FpgaMsg) (s : ToneTasks) :
    (s.xQueueSend m).defaultTask = s.defaultTask := by
  rw [xQueueSend]
  split_ifs <;> rfl

@[simp] theorem keyState_sendKey (key : KeyType) (s : ToneTasks) :
    (s.sendKey key).keyState = s.keyState := by
  rw [sendKey]
  split_ifs <;> rfl

/-! ## Between the tones -/

/-- While no task is between the tones of a key, all is quiet. -/
def Settled (s : ToneTasks) : Prop :=
  s.keyState = .waitForPress → s.defaultTask = .receive → s.Quiet

theorem Settled.congr {t : ToneTasks} (h : s.Settled) (hkey : t.keyState = s.keyState)
    (hdefault : t.defaultTask = s.defaultTask) (haccepted : t.accepted = s.accepted) :
    t.Settled := by
  intro hwait hreceive
  rw [quiet_congr haccepted]
  exact h (hkey ▸ hwait) (hdefault ▸ hreceive)

theorem Settled.startKeyStateTask (h : s.Settled) (hend : s.EndHeard .startKeyStateTask) :
    s.startKeyStateTask.Settled := by
  cases hpoint : s.keyState with
  | waitForPress =>
      cases hkey : doKeyscan s.held with
      | none =>
          have hsame : s.startKeyStateTask = s := by
            simp only [ToneTasks.startKeyStateTask, hpoint, hkey]
          rw [hsame]
          exact h
      | some key =>
          intro hwait
          simp [ToneTasks.startKeyStateTask, hpoint, hkey] at hwait
  | waitForRelease key =>
      by_cases hreleased : keyIsReleased key s.held = true
      · intro hwait
        simp [ToneTasks.startKeyStateTask, hpoint, hreleased] at hwait
      · have hsame : s.startKeyStateTask = s := by
          simp only [ToneTasks.startKeyStateTask, hpoint, if_neg hreleased]
        rw [hsame]
        exact h
  | toneOff =>
      intro _ _
      simp only [ToneTasks.startKeyStateTask, hpoint]
      exact quiet_end (hend hpoint)

theorem Settled.startDefaultTask (h : s.Settled) (hend : s.EndHeard .startDefaultTask) :
    s.startDefaultTask.Settled := by
  cases hpoint : s.defaultTask with
  | receive =>
      cases hkeys : s.keypressed with
      | nil =>
          have hsame : s.startDefaultTask = s := by
            simp only [ToneTasks.startDefaultTask, hpoint, hkeys]
          rw [hsame]
          exact h
      | cons key rest =>
          have hnext : s.startDefaultTask = { s with keypressed := rest } ∨
              s.startDefaultTask.defaultTask = .secondTone := by
            cases key <;> simp [ToneTasks.startDefaultTask, hpoint, hkeys]
          rcases hnext with hsilent | htone
          · rw [hsilent]
            exact h.congr rfl rfl rfl
          · intro _ hreceive
            rw [htone] at hreceive
            cases hreceive
  | secondTone =>
      intro _ hreceive
      simp [ToneTasks.startDefaultTask, hpoint] at hreceive
  | toneOff =>
      intro _ _
      simp only [ToneTasks.startDefaultTask, hpoint]
      exact quiet_end (hend hpoint)

theorem Settled.step (h : s.Settled) {e : ToneEvent} (hend : s.EndHeard e) :
    (s.step e).Settled := by
  cases e with
  | keys held => exact h.congr rfl rfl rfl
  | startKeyStateTask => exact h.startKeyStateTask hend
  | startDefaultTask => exact h.startDefaultTask hend
  | startSendFPGA =>
      refine h.congr ?_ ?_ (accepted_startSendFPGA s)
      · rw [ToneTasks.step, startSendFPGA]
        split <;> rfl
      · rw [ToneTasks.step, startSendFPGA]
        split <;> rfl
  | otherTask =>
      intro hwait hreceive
      rw [ToneTasks.step, keyState_xQueueSend] at hwait
      rw [ToneTasks.step, defaultTask_xQueueSend] at hreceive
      exact quiet_other (h hwait hreceive)

theorem Settled.quiet_delivered (h : s.Settled) (hrest : s.AtRest) :
    ∀ m ∈ lastTone s.delivered, m = .dtmfToneOff := by
  have hquiet := h hrest.keyState hrest.defaultTask
  rw [Quiet, accepted, hrest.sending, hrest.sendFPGA] at hquiet
  simpa using hquiet

/-! ## Coming to rest -/

/-- A task has something to do, while no key is held down. -/
def Turns (s : ToneTasks) : ToneEvent → Prop
  | .startKeyStateTask => s.keyState ≠ .waitForPress
  | .startDefaultTask => s.defaultTask ≠ .receive ∨ s.keypressed ≠ []
  | .startSendFPGA => s.sending ≠ none ∨ s.sendFPGA ≠ []
  | .keys _ | .otherTask => False

/-- No more turns than these are left until all tasks are at rest. -/
def left (s : ToneTasks) : ℕ :=
  s.keyState.left + s.defaultTask.left + 9 * s.keypressed.length + 2 * s.sendFPGA.length +
    s.sending.toList.length

theorem left_xQueueSend (m : FpgaMsg) (s : ToneTasks) : (s.xQueueSend m).left ≤ s.left + 2 := by
  rw [xQueueSend]
  split_ifs
  · simp only [left, List.length_append, List.length_singleton]
    omega
  · omega

theorem left_sendKey (key : KeyType) (s : ToneTasks) : (s.sendKey key).left ≤ s.left + 9 := by
  rw [sendKey]
  split_ifs
  · simp only [left, List.length_append, List.length_singleton]
    omega
  · omega

theorem keyIsReleased_nil (key : KeyType) : keyIsReleased key [] = true := by
  simp [keyIsReleased]

theorem left_startKeyStateTask (hheld : s.held = []) (h : s.keyState ≠ .waitForPress) :
    s.startKeyStateTask.left < s.left := by
  cases hpoint : s.keyState with
  | waitForPress => exact absurd hpoint h
  | waitForRelease key =>
      have hkey := left_sendKey key { s with keyState := .toneOff }
      have hless : ({ s with keyState := .toneOff } : ToneTasks).left + 10 = s.left := by
        simp only [left, hpoint, KeyStatePoint.left]
        omega
      have hreleased : keyIsReleased key s.held = true := by
        rw [hheld]
        exact keyIsReleased_nil key
      simp only [startKeyStateTask, hpoint, if_pos hreleased]
      omega
  | toneOff =>
      have hend := left_xQueueSend .dtmfToneOff { s with keyState := .waitForPress }
      have hless : ({ s with keyState := .waitForPress } : ToneTasks).left + 3 = s.left := by
        simp only [left, hpoint, KeyStatePoint.left]
        omega
      simp only [startKeyStateTask, hpoint]
      omega

theorem left_startDefaultTask (h : s.defaultTask ≠ .receive ∨ s.keypressed ≠ []) :
    s.startDefaultTask.left < s.left := by
  cases hpoint : s.defaultTask with
  | receive =>
      obtain ⟨key, rest, hkeys⟩ := List.exists_cons_of_ne_nil (h.resolve_left (· hpoint))
      have htone := left_xQueueSend (.dtmfToneOn 10)
        { s with keypressed := rest, defaultTask := .secondTone }
      have hless : ({ s with keypressed := rest, defaultTask := .receive } : ToneTasks).left + 9 =
          s.left := by
        simp only [left, hpoint, hkeys, List.length_cons]
        omega
      have hsecond : ({ s with keypressed := rest, defaultTask := .secondTone } : ToneTasks).left +
          3 = s.left := by
        simp only [left, hpoint, hkeys, DefaultPoint.left, List.length_cons]
        omega
      cases key <;> simp only [startDefaultTask, hpoint, hkeys] <;> omega
  | secondTone =>
      have htone := left_xQueueSend (.dtmfToneOn 9) { s with defaultTask := .toneOff }
      have hless : ({ s with defaultTask := .toneOff } : ToneTasks).left + 3 = s.left := by
        simp only [left, hpoint, DefaultPoint.left]
        omega
      simp only [startDefaultTask, hpoint]
      omega
  | toneOff =>
      have hend := left_xQueueSend .dtmfToneOff { s with defaultTask := .receive }
      have hless : ({ s with defaultTask := .receive } : ToneTasks).left + 3 = s.left := by
        simp only [left, hpoint, DefaultPoint.left]
        omega
      simp only [startDefaultTask, hpoint]
      omega

theorem left_startSendFPGA (h : s.sending ≠ none ∨ s.sendFPGA ≠ []) :
    s.startSendFPGA.left < s.left := by
  rw [startSendFPGA]
  split
  next m hsending =>
    simp only [left, hsending, Option.toList_some, Option.toList_none, List.length_singleton,
      List.length_nil]
    omega
  next m rest hsending hqueue =>
    simp only [left, hsending, hqueue, Option.toList_some, Option.toList_none, List.length_cons,
      List.length_nil]
    omega
  next hsending hqueue => exact absurd hqueue (h.resolve_left (· hsending))

@[simp] theorem held_xQueueSend (m : FpgaMsg) (s : ToneTasks) :
    (s.xQueueSend m).held = s.held := by
  rw [xQueueSend]
  split_ifs <;> rfl

@[simp] theorem held_sendKey (key : KeyType) (s : ToneTasks) : (s.sendKey key).held = s.held := by
  rw [sendKey]
  split_ifs <;> rfl

/-- Only the keypad changes what is held down. -/
theorem held_step {e : ToneEvent} (h : s.Turns e) : (s.step e).held = s.held := by
  cases e with
  | keys held => exact h.elim
  | startKeyStateTask =>
      rw [step, startKeyStateTask]
      split
      · split <;> simp
      · split_ifs <;> simp
      · simp
  | startDefaultTask =>
      rw [step, startDefaultTask]
      split
      · split
        · rfl
        · dsimp only
          split <;> simp
      · simp
      · simp
  | startSendFPGA =>
      rw [step, startSendFPGA]
      split <;> rfl
  | otherTask => exact h.elim

theorem left_step (hheld : s.held = []) {e : ToneEvent} (h : s.Turns e) :
    (s.step e).left < s.left := by
  cases e with
  | keys held => exact h.elim
  | startKeyStateTask => exact left_startKeyStateTask hheld h
  | startDefaultTask => exact left_startDefaultTask h
  | startSendFPGA => exact left_startSendFPGA h
  | otherTask => exact h.elim

theorem left_exec (hheld : s.held = []) {es : List ToneEvent}
    (hes : Transition.Meets step Turns s es) :
    (Transition.exec step s es).held = [] ∧
      (Transition.exec step s es).left + es.length ≤ s.left := by
  induction es generalizing s with
  | nil => exact ⟨hheld, Nat.le_refl _⟩
  | cons e es ih =>
      have hlt := left_step hheld hes.1
      obtain ⟨hend, hle⟩ := ih ((held_step hes.1).trans hheld) hes.2
      refine ⟨hend, ?_⟩
      rw [Transition.exec_cons, List.length_cons]
      omega

/-- While the tasks are not at rest, one of them has something to do. -/
theorem exists_turn (hheld : s.held = []) (h : ¬ s.AtRest) : ∃ e, s.Turns e := by
  by_contra hnone
  have hno (e : ToneEvent) : ¬ s.Turns e := fun he => hnone ⟨e, he⟩
  have hkey : s.keyState = .waitForPress := not_not.mp (hno .startKeyStateTask)
  have hdefault := not_or.mp (hno .startDefaultTask)
  have hsend := not_or.mp (hno .startSendFPGA)
  exact h ⟨hheld, hkey, not_not.mp hdefault.1, not_not.mp hdefault.2, not_not.mp hsend.2,
    not_not.mp hsend.1⟩

/-- As long as every end of a tone finds room in the queue, or no tone to end, the last tone
command that the FPGA has when all is at rest is the end of a tone. From every state in which
no key is held down the tasks come to rest, in any order of their turns. -/
theorem no_stuck_tone (es : List ToneEvent) (hes : Transition.Meets step EndHeard start es) :
    ∀ fs, fs <+: es →
      let s := Transition.exec step start fs
      (s.AtRest → ∀ m ∈ lastTone s.delivered, m = .dtmfToneOff) ∧
      (s.held = [] → ∀ gs, Transition.Meets step Turns s gs →
        gs.length ≤ s.left ∧
        (¬ (Transition.exec step s gs).AtRest → ∃ e, (Transition.exec step s gs).Turns e) ∧
        (Transition.Meets step EndHeard s gs → (Transition.exec step s gs).AtRest →
          ∀ m ∈ lastTone (Transition.exec step s gs).delivered, m = .dtmfToneOff)) := by
  intro fs hfs s
  obtain ⟨rest, rfl⟩ := hfs
  have hfirst := ((Transition.meets_append start fs rest).mp hes).1
  have hstart : start.Settled := fun _ _ m hm => by cases hm
  have hsettled : s.Settled :=
    Transition.inv_exec_of_meets (fun s e hs he => hs.step he) hstart hfirst
  refine ⟨hsettled.quiet_delivered, fun hheld gs hgs => ?_⟩
  obtain ⟨hend, hleft⟩ := left_exec hheld hgs
  refine ⟨by omega, exists_turn hend, fun hheard => ?_⟩
  have hlater : (Transition.exec step s gs).Settled :=
    Transition.inv_exec_of_meets (fun s e hs he => hs.step he) hsettled hheard
  exact hlater.quiet_delivered

/-! ## A full queue -/

/-- A key is held down and let go, and its tones are sent. -/
def keystroke (key : KeyType) : List ToneEvent :=
  [.keys [key], .startKeyStateTask, .keys [], .startKeyStateTask, .startKeyStateTask,
    .startDefaultTask, .startDefaultTask, .startDefaultTask]

theorem no_stuck_tone_keystroke :
    let s := Transition.exec step start (keystroke .kp1 ++ List.replicate 10 .startSendFPGA)
    s.AtRest ∧ s.delivered.length = 5 ∧ ∀ m ∈ lastTone s.delivered, m = .dtmfToneOff := by
  have hmeets : Transition.Meets step EndHeard start
      (keystroke .kp1 ++ List.replicate 10 .startSendFPGA) := by
    decide +kernel
  intro s
  have hrest : s.AtRest := by
    constructor <;> decide +kernel
  exact ⟨hrest, by decide +kernel,
    (no_stuck_tone _ hmeets _ (List.prefix_refl _)).1 hrest⟩

/-- Four keystrokes before anything is delivered: the tenth message switches a tone on, and the
eleventh, its end, is dropped. -/
def fastKeys : List ToneEvent :=
  keystroke .kp1 ++ keystroke .kpA ++ keystroke .kpB ++ keystroke .kpC ++
    List.replicate 20 .startSendFPGA

theorem stuck_tone_fastKeys :
    let s := Transition.exec step start fastKeys
    s.AtRest ∧ lastTone s.delivered = some (.dtmfToneOn 12) := by
  intro s
  refine ⟨?_, by decide +kernel⟩
  constructor <;> decide +kernel

end ToneTasks

end TruckControl
