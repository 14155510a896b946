import TruckControl.Model.Clocks
import TruckControl.Model.Odata
import TruckControl.Verification.EnginePower
import TruckControl.Verification.Side

/-!
# The uptime of the server and the run time of the engine

Three one-byte counters carry into one another. They show a number of seconds as long as
the hours fit into theirs: 256 hours, or 921600 seconds.
-/

namespace TruckControl

/-! ## The texts -/

theorem clockText_inj {h m s h' m' s' : ℕ} :
    clockText h m s = clockText h' m' s' ↔ h = h' ∧ m = m' ∧ s = s' := by
  rw [clockText, clockText, Decimal.decimal_append_inj (by decide) (by decide) (by decide),
    List.cons.injEq, List.cons.injEq,
    Decimal.decimal_append_inj (by decide) (by decide) (by decide),
    List.cons.injEq, List.cons.injEq,
    Decimal.decimal_append_inj (by decide) (by decide) (by decide)]
  simp

/-! ## Three counters -/

/-- The counters hold a number of seconds, up to whole rounds of the hours. -/
def Shows (n : ℕ) (clock : UCHAR × UCHAR × UCHAR) : Prop :=
  clock.1.toNat = n / 3600 % 256 ∧ clock.2.1.toNat = n / 60 % 60 ∧ clock.2.2.toNat = n % 60

theorem shows_zero : Shows 0 (0#8, 0#8, 0#8) := ⟨rfl, rfl, rfl⟩

/-- One more second: each counter carries exactly when the one below starts again. -/
theorem Shows.tick {n : ℕ} {clock : UCHAR × UCHAR × UCHAR} (h : Shows n clock) :
    Shows (n + 1) (tickClock clock.1 clock.2.1 clock.2.2) := by
  obtain ⟨hours, minutes, seconds⟩ := clock
  obtain ⟨hh, hm, hs⟩ := h
  simp only at hh hm hs
  have hseconds : seconds + 1#8 > 59#8 ↔ n % 60 = 59 := by
    rw [gt_iff_lt, BitVec.lt_def, BitVec.toNat_add, hs]
    simp
    omega
  have hminutes : minutes + 1#8 > 59#8 ↔ n / 60 % 60 = 59 := by
    rw [gt_iff_lt, BitVec.lt_def, BitVec.toNat_add, hm]
    simp
    omega
  have hone (b : UCHAR) : (b + 1#8).toNat = (b.toNat + 1) % 256 := by
    rw [BitVec.toNat_add]
    rfl
  simp only [tickClock, hseconds, hminutes]
  split_ifs with h1 h2
  · refine ⟨?_, ?_, ?_⟩
    · simp only [hone, hh]
      omega
    · simp
      omega
    · simp
      omega
  · refine ⟨?_, ?_, ?_⟩
    · simp only [hh]
      omega
    · simp only [hone, hm]
      omega
    · simp
      omega
  · refine ⟨?_, ?_, ?_⟩
    · simp only [hh]
      omega
    · simp only [hm]
      omega
    · simp only [hone, hs]
      omega

theorem Shows.le {n : ℕ} {clock : UCHAR × UCHAR × UCHAR} (h : Shows n clock) :
    clock.2.1.toNat ≤ 59 ∧ clock.2.2.toNat ≤ 59 := by
  obtain ⟨-, hm, hs⟩ := h
  omega

/-- The text starts again after 256 hours. -/
theorem Shows.text {n : ℕ} {clock : UCHAR × UCHAR × UCHAR} (h : Shows n clock) :
    countersText clock = durationText (n % 921600) := by
  obtain ⟨hh, hm, hs⟩ := h
  rw [countersText, durationText, clockText_inj, hh, hm, hs]
  omega

theorem durationText_inj {m n : ℕ} : durationText m = durationText n ↔ m = n := by
  rw [durationText, durationText, clockText_inj]
  omega

/-- The text is that of another number of seconds, not smaller, only if the hours fit and
the numbers are equal. -/
theorem Shows.text_eq_iff {n k : ℕ} {clock : UCHAR × UCHAR × UCHAR} (h : Shows n clock)
    (hle : n ≤ k) : countersText clock = durationText k ↔ n = k ∧ k < 921600 := by
  rw [h.text, durationText_inj]
  omega

/-! ## What writes the counters -/

namespace IoState

variable (s : IoState)

theorem running_addMsgQueue (cmd : UCHAR) : (s.addMsgQueue cmd).running = s.running := rfl

theorem trunning_addMsgQueue (cmd : UCHAR) : (s.addMsgQueue cmd).trunning = s.trunning := rfl

theorem running_timerEngine :
    s.timerEngine.running =
      if s.engineRunning = 1 then tickClock s.running.1 s.running.2.1 s.running.2.2
      else (0#8, 0#8, 0#8) := by
  simp only [timerEngine]
  split_ifs
  · simp only [running_addMsgQueue]
    rfl
  · rfl
  · simp only [running_addMsgQueue]
    rfl
  · rfl
  · rfl

theorem trunning_timerEngine : s.timerEngine.trunning = s.trunning := by
  simp only [timerEngine]
  split_ifs
  · simp only [trunning_addMsgQueue]
    rfl
  · rfl
  · simp only [trunning_addMsgQueue]
    rfl
  · rfl
  · rfl

theorem trunning_timerUptime :
    s.timerUptime.trunning =
      tickClock s.trunning.1 s.trunning.2.1 s.trunning.2.2 := rfl

theorem running_eq_of_side {s t : IoState} (h : s.side = t.side) : s.running = t.running := by
  have hside := congrArg IoState.running h
  exact hside

theorem trunning_eq_of_side {s t : IoState} (h : s.side = t.side) : s.trunning = t.trunning := by
  have hside := congrArg IoState.trunning h
  exact hside

/-- Behind the two clocks a tick touches the blinker tests and the outputs only. -/
theorem timerTask_clocks :
    s.timerTask.running = s.timerEngine.running ∧
      s.timerTask.trunning = s.timerEngine.timerUptime.trunning := by
  have hblinkers (t : IoState) : t.timerLblinkers.timerRblinkers.running = t.running ∧
      t.timerLblinkers.timerRblinkers.trunning = t.trunning := by
    simp only [timerRblinkers, timerLblinkers]
    split_ifs <;> exact ⟨rfl, rfl⟩
  rw [timerTask, running_eq_of_side (side_timerScan _), trunning_eq_of_side (side_timerScan _),
    (hblinkers _).1, (hblinkers _).2]
  exact ⟨rfl, rfl⟩

theorem trunning_execBlock (block : Block) : (s.execBlock block).trunning = s.trunning := by
  rw [trunning_eq_of_side (s.side_execBlock block)]
  cases block <;> rfl

/-- Of all commands only `SHUTDOWN` writes the engine's clock. -/
theorem running_execBlock {block : Block} (hblock : block ≠ .shutdownAcc) :
    (s.execBlock block).running = s.running := by
  rw [running_eq_of_side (s.side_execBlock block)]
  cases block with
  | shutdownAcc => exact absurd rfl hblock
  | _ => rfl

theorem running_shutdownAcc : (s.execBlock .shutdownAcc).running = (0#8, 0#8, 0#8) := by
  rw [running_eq_of_side (s.side_execBlock .shutdownAcc)]
  rfl

end IoState

/-! ## Runs -/

namespace Controller

variable {c : Controller} {e : Event}

/-- What an event between two ticks can do to the engine's clock. -/
inductive Between (c : Controller) (e : Event) : Prop where
  /-- It keeps the clock, and may switch the engine on. -/
  | kept (hrunning : (c.step e).io.running = c.io.running)
      (hengine : (c.step e).io.engineRunning = 1 ∨
        (c.step e).io.engineRunning = c.io.engineRunning)
  | stopped (hrunning : (c.step e).io.running = (0#8, 0#8, 0#8))
      (hengine : (c.step e).io.engineRunning = 0)

theorem between (he : e ≠ .timerTask) : Between c e := by
  by_cases hcontrols : e = .basicControlsTask
  · subst hcontrols
    cases htodo : c.todo with
    | nil =>
        have hstep : c.step .basicControlsTask = c := by rw [step, htodo]
        refine .kept ?_ (.inr ?_)
        · rw [hstep]
        · rw [hstep]
    | cons block todo =>
        have hex : Executes block c .basicControlsTask := ⟨rfl, by rw [htodo, List.head?_cons]⟩
        have hengine := engineRunning_executes hex
        have hio : (c.step .basicControlsTask).io = c.io.execBlock block := by rw [step, htodo]
        by_cases hstop : block = .shutdownAcc
        · subst hstop
          exact .stopped (by rw [hio, IoState.running_shutdownAcc]) hengine
        · refine .kept (by rw [hio, IoState.running_execBlock _ hstop]) ?_
          rw [hengine]
          cases block with
          | startSeqEnable => exact .inl rfl
          | shutdownAcc => exact absurd rfl hstop
          | _ => exact .inr rfl
  · refine .kept ?_ (.inr (engineRunning_step hcontrols))
    cases stepCases c e with
    | idle hstep => rw [hstep]
    | added cmd hstep | got htodo hstep | delayed delay hstep =>
        rw [hstep]
        rfl
    | executed block todo htodo hstep => exact absurd rfl hcontrols
    | switched bank result hb hstep =>
        rw [hstep]
        exact IoState.running_eq_of_side (c.io.side_monitorInputTask bank result)
    | polled bank hb hstep =>
        rw [hstep]
        exact IoState.running_eq_of_side (c.io.side_monitorFakeInputTask bank)
    | ticked hstep => exact absurd rfl he

/-- Only ticks write the uptime. -/
theorem trunning_step (he : e ≠ .timerTask) : (c.step e).io.trunning = c.io.trunning := by
  cases stepCases c e with
  | idle hstep => rw [hstep]
  | added cmd hstep | got htodo hstep | delayed delay hstep =>
      rw [hstep]
      rfl
  | executed block todo htodo hstep =>
      rw [hstep]
      exact c.io.trunning_execBlock block
  | switched bank result hb hstep =>
      rw [hstep]
      exact IoState.trunning_eq_of_side (c.io.side_monitorInputTask bank result)
  | polled bank hb hstep =>
      rw [hstep]
      exact IoState.trunning_eq_of_side (c.io.side_monitorFakeInputTask bank)
  | ticked hstep => exact absurd rfl he

end Controller

namespace Timed

variable {db : Database} {t : Timed}

/-- The counters show what has been counted. -/
structure Consistent (t : Timed) : Prop where
  uptime : Shows t.ticks t.server.io.trunning
  runtime : Shows t.period t.server.io.running
  period_le : t.period ≤ t.inRow
  off : t.server.io.engineRunning ≠ 1 → t.period = 0

theorem Consistent.tick (h : t.Consistent) : (t.step .timerTask).Consistent := by
  have hengine : (t.server.step .timerTask).io.engineRunning = t.server.io.engineRunning :=
    Controller.engineRunning_step (by simp)
  have hio : (t.server.step .timerTask).io = t.server.io.timerTask := by rw [Controller.step]
  obtain ⟨hrunning, htrunning⟩ := t.server.io.timerTask_clocks
  rw [IoState.running_timerEngine] at hrunning
  rw [IoState.trunning_timerUptime, IoState.trunning_timerEngine] at htrunning
  refine ⟨?_, ?_, ?_, ?_⟩
  · simp only [step, if_true, hio, htrunning]
    exact h.uptime.tick
  · simp only [step, if_true, hengine]
    rw [hio, hrunning]
    split_ifs with hon
    · exact h.runtime.tick
    · exact shows_zero
  · simp only [step, if_true, hengine]
    split_ifs
    · exact Nat.succ_le_succ h.period_le
    · exact Nat.zero_le _
  · intro hoff
    simp only [step] at hoff ⊢
    rw [if_neg hoff]

theorem Consistent.between (h : t.Consistent) {e : Event} (he : e ≠ .timerTask) :
    (t.step e).Consistent := by
  have hticks : (t.step e).ticks = t.ticks := if_neg he
  have hinRow : (t.step e).inRow = t.inRow := if_neg he
  have hperiod : (t.step e).period =
      if (t.server.step e).io.engineRunning = 1 then t.period else 0 := by
    simp only [step, if_neg he]
  refine ⟨?_, ?_, ?_, ?_⟩
  · rw [hticks]
    change Shows t.ticks (t.server.step e).io.trunning
    rw [Controller.trunning_step he]
    exact h.uptime
  · rw [hperiod]
    change Shows _ (t.server.step e).io.running
    cases Controller.between (c := t.server) he with
    | kept hrunning hengine =>
        rw [hrunning]
        split_ifs with hon
        · exact h.runtime
        · have hoff : t.server.io.engineRunning ≠ 1 := by
            intro hwas
            exact hon (hengine.elim id fun hsame => hsame.trans hwas)
          rw [← h.off hoff]
          exact h.runtime
    | stopped hrunning hengine =>
        rw [hrunning, hengine]
        exact shows_zero
  · rw [hperiod, hinRow]
    split_ifs
    · exact h.period_le
    · exact Nat.zero_le _
  · intro hoff
    rw [hperiod]
    exact if_neg hoff

theorem Reachable.consistent (h : Reachable db t) : t.Consistent := by
  refine Transition.Reachable.invariant (I := Consistent) ?_ ?_ h
  · rintro _ ⟨inports, lightsOnDelay, rfl⟩
    exact ⟨shows_zero, shows_zero, Nat.le_refl 0, fun _ => rfl⟩
  · intro t e _ ht
    by_cases he : e = .timerTask
    · subst he
      exact ht.tick
    · exact ht.between he

/-! ## The texts of a tick -/

theorem Consistent.serverUptime (h : t.Consistent) :
    t.server.io.serverUptime = durationText (t.ticks + 1) ↔ t.ticks + 1 < 921600 := by
  rw [IoState.serverUptime, IoState.trunning_timerUptime, IoState.trunning_timerEngine,
    h.uptime.tick.text_eq_iff (Nat.le_refl _)]
  simp

theorem Consistent.engineRuntime (h : t.Consistent) (hon : t.server.io.engineRunning = 1) {k : ℕ}
    (hk : t.period + 1 ≤ k) :
    t.server.io.engineRuntime = some (durationText k) ↔ t.period + 1 = k ∧ k < 921600 := by
  rw [IoState.engineRuntime, if_pos hon, Option.some.injEq, IoState.running_timerEngine,
    if_pos hon, h.runtime.tick.text_eq_iff hk]

/-- Whatever the hours show, minutes and seconds stay below sixty. -/
def Sexagesimal (text : List UCHAR) : Prop :=
  ∃ hours minutes seconds, text = clockText hours minutes seconds ∧ minutes ≤ 59 ∧ seconds ≤ 59

theorem sexagesimal_of_shows {n : ℕ} {clock : UCHAR × UCHAR × UCHAR} (h : Shows n clock) :
    Sexagesimal (countersText clock) :=
  ⟨_, _, _, rfl, h.le⟩

theorem Consistent.sexagesimal (h : t.Consistent) :
    Sexagesimal t.server.io.serverUptime ∧
      ∀ text ∈ t.server.io.engineRuntime, Sexagesimal text := by
  constructor
  · rw [IoState.serverUptime, IoState.trunning_timerUptime, IoState.trunning_timerEngine]
    exact sexagesimal_of_shows h.uptime.tick
  · intro text htext
    rw [IoState.engineRuntime] at htext
    split_ifs at htext with hon
    · rw [Option.mem_some_iff] at htext
      rw [← htext, IoState.running_timerEngine, if_pos hon]
      exact sexagesimal_of_shows h.runtime.tick
    · cases htext

/-- At every tick, after any history: the uptime is right exactly for the first 256 hours.
The run time is that of the ticks since the engine was last off exactly for as long, and
that of all ticks in a row that found it running if moreover it was not off between two. -/
theorem clockTexts_iff (h : Reachable db t) :
    let ticked := t.step .timerTask
    (t.server.io.serverUptime = durationText ticked.ticks ↔ ticked.ticks < 921600) ∧
      (t.server.io.engineRunning = 1 →
        (t.server.io.engineRuntime = some (durationText ticked.period) ↔
          ticked.period < 921600) ∧
        (t.server.io.engineRuntime = some (durationText ticked.inRow) ↔
          ticked.period = ticked.inRow ∧ ticked.inRow < 921600)) ∧
      (t.server.io.engineRunning ≠ 1 → t.server.io.engineRuntime = none) ∧
      Sexagesimal t.server.io.serverUptime ∧
      ∀ text ∈ t.server.io.engineRuntime, Sexagesimal text := by
  have hc := h.consistent
  have hengine : (t.server.step .timerTask).io.engineRunning = t.server.io.engineRunning :=
    Controller.engineRunning_step (by simp)
  refine ⟨hc.serverUptime, ?_, fun hoff => if_neg hoff, hc.sexagesimal⟩
  intro hon
  have hperiod : (t.step .timerTask).period = t.period + 1 := by
    simp only [step, hengine, if_pos hon, if_true]
  have hinRow : (t.step .timerTask).inRow = t.inRow + 1 := by
    simp only [step, if_pos hon, if_true]
  rw [hperiod, hinRow]
  refine ⟨?_, hc.engineRuntime hon (Nat.succ_le_succ hc.period_le)⟩
  rw [hc.engineRuntime hon (Nat.le_refl _)]
  simp

/-- `START_SEQ` is sent to the server and carried out, and the engine has run for eight ticks. -/
def started : Timed :=
  Transition.exec step (boot odata (fun _ => 0) 0)
    ([.addMsgQueue CmdType.startSeq.toByte, .getMsgQueue, .basicControlsTask, .timerTask,
      .basicControlsTask, .basicControlsTask] ++ List.replicate 8 .timerTask)

theorem clockTexts_started :
    started.server.io.serverUptime = durationText 10 ∧
      started.server.io.engineRunning = 1 ∧
        started.server.io.engineRuntime = some (durationText (started.step .timerTask).inRow) := by
  have hreach : Reachable odata started := ⟨_, _, ⟨_, _, rfl⟩, rfl⟩
  have hon : started.server.io.engineRunning = 1 := by decide +kernel
  have hticks : (started.step .timerTask).ticks = 10 := by decide +kernel
  have hinRow : (started.step .timerTask).inRow = 9 := by decide +kernel
  have hperiod : (started.step .timerTask).period = 9 := by decide +kernel
  obtain ⟨huptime, hruntime, -⟩ := clockTexts_iff hreach
  rw [hticks] at huptime
  refine ⟨huptime.mpr (by omega), hon, (hruntime hon).2.mpr ⟨?_, ?_⟩⟩
  · rw [hperiod, hinRow]
  · omega

/-! ## A server that is left running -/

/-- The server with nothing but ticks since its start. -/
def up (n : ℕ) : Timed :=
  Transition.exec step (boot odata (fun _ => 0) 0) (List.replicate n .timerTask)

theorem ticks_exec_replicate (t : Timed) (n : ℕ) :
    (Transition.exec step t (List.replicate n .timerTask)).ticks = t.ticks + n := by
  induction n generalizing t with
  | zero => rfl
  | succ n ih =>
      rw [List.replicate_succ, Transition.exec_cons, ih]
      change t.ticks + 1 + n = t.ticks + (n + 1)
      omega

/-- The texts of such a server. -/
theorem serverUptime_up (n : ℕ) :
    (up n).server.io.serverUptime = durationText ((n + 1) % 921600) := by
  have hreach : Reachable odata (up n) := ⟨_, _, ⟨_, _, rfl⟩, rfl⟩
  have hticks : (up n).ticks = n := by
    rw [up, ticks_exec_replicate]
    exact Nat.zero_add n
  have h := hreach.consistent.uptime.tick.text
  rw [hticks] at h
  rw [IoState.serverUptime, IoState.trunning_timerUptime, IoState.trunning_timerEngine, h]

/-- After 256 hours the uptime starts again. -/
theorem serverUptime_wraps :
    (up 921599).server.io.serverUptime = durationText 0 ∧
      (up 921599).server.io.serverUptime ≠ durationText 921600 := by
  have hround : (921599 + 1) % 921600 = 0 := by omega
  have htext : (up 921599).server.io.serverUptime = durationText 0 := by
    rw [serverUptime_up, hround]
  refine ⟨htext, ?_⟩
  rw [htext, Ne, durationText_inj]
  omega

end Timed

end TruckControl
