import TruckControl.Verification.EnginePower
import TruckControl.Verification.Side

/-!
# The lights-off countdown

`SHUTDOWN` starts `lights_on_countdown`, and only `timer_task` counts it down, while the
engine is off. The tick that ends it puts five commands on the queue.
-/

namespace TruckControl

open OutputType

namespace IoState

variable {db : Database} {s : IoState}

/-! ## What leaves the countdown alone -/

/-- Switching is beside the countdown. -/
theorem lightsOnCountdown_of_side {t : IoState} (h : t.side = s.side) :
    t.lightsOnCountdown = s.lightsOnCountdown := by
  have hside := congrArg IoState.lightsOnCountdown h
  exact hside

/-- Of all blocks only the end of `SHUTDOWN` writes the countdown. -/
theorem lightsOnCountdown_execBlock (s : IoState) {block : Block}
    (hblock : block ≠ .shutdownFuelPump) :
    (s.execBlock block).lightsOnCountdown = s.lightsOnCountdown := by
  have hside := congrArg IoState.lightsOnCountdown (s.side_execBlock block)
  cases block with
  | shutdownFuelPump => exact absurd rfl hblock
  | _ => exact hside

theorem lightsOnCountdown_shutdownFuelPump (s : IoState) :
    (s.execBlock .shutdownFuelPump).lightsOnCountdown = s.actualLightsOnDelay := by
  have hside := congrArg IoState.lightsOnCountdown (s.side_execBlock .shutdownFuelPump)
  exact hside

/-! ## A tick -/

/-- The countdown and the queue are done with before the rest of a tick. -/
theorem timerTask_countdown (s : IoState) :
    s.timerTask.lightsOnCountdown = s.timerEngine.lightsOnCountdown ∧
      s.timerTask.msgQueue = s.timerEngine.msgQueue := by
  have hqueue (s : IoState) (i : ℕ) : (s.timerPort i).msgQueue = s.msgQueue := by
    simp only [timerPort]
    split_ifs <;> simp
  have hleft (s : IoState) : s.timerLblinkers.lightsOnCountdown = s.lightsOnCountdown ∧
      s.timerLblinkers.msgQueue = s.msgQueue := by
    simp only [timerLblinkers]
    split_ifs <;> exact ⟨rfl, rfl⟩
  have hright (s : IoState) : s.timerRblinkers.lightsOnCountdown = s.lightsOnCountdown ∧
      s.timerRblinkers.msgQueue = s.msgQueue := by
    simp only [timerRblinkers]
    split_ifs <;> exact ⟨rfl, rfl⟩
  refine ⟨?_, ?_⟩
  · rw [timerTask, lightsOnCountdown_of_side (side_timerScan _), (hright _).1, (hleft _).1]
    rfl
  · rw [timerTask, timerScan, foldl_keeps IoState.msgQueue hqueue, (hright _).2, (hleft _).2]
    rfl

/-- What the tick that ends the countdown puts on the queue. -/
def lightsOffCommands : List CmdType :=
  [.offLlights, .offRlights, .offLights, .offRunningLights, .offFan]

/-- Commands that find room are added in order. -/
theorem waiting_foldl_addMsgQueue (cmds : List CmdType) (q : MsgQueue)
    (hroom : q.ptr + cmds.length ≤ msgQueueSize) :
    (cmds.foldl (fun q cmd => q.addMsgQueue cmd.toByte) q).waiting =
      q.waiting ++ cmds.map CmdType.toByte := by
  induction cmds generalizing q with
  | nil => simp
  | cons cmd cmds ih =>
      rw [List.length_cons] at hroom
      have hlt : q.ptr < msgQueueSize := by omega
      have hptr : (q.addMsgQueue cmd.toByte).ptr = q.ptr + 1 := by
        rw [MsgQueue.addMsgQueue, if_pos hlt]
      rw [List.foldl_cons, ih _ (by omega), q.waiting_addMsgQueue _ hlt, List.map_cons,
        List.append_assoc, List.singleton_append]

/-- With the engine off a tick counts down. -/
theorem lightsOnCountdown_timerTask (hoff : s.engineRunning = 0) :
    s.timerTask.lightsOnCountdown = s.lightsOnCountdown - 1 := by
  have hne : ¬ s.engineRunning = 1 := by omega
  rw [s.timerTask_countdown.1]
  simp only [timerEngine, if_neg hne]
  split_ifs with hpos hlast
  · rfl
  · rfl
  · change s.lightsOnCountdown = s.lightsOnCountdown - 1
    change ¬ s.lightsOnCountdown > 0 at hpos
    omega

/-- The last tick puts its commands on the queue, as far as they find room. -/
theorem msgQueue_timerTask_last (hoff : s.engineRunning = 0) (hlast : s.lightsOnCountdown = 1) :
    s.timerTask.msgQueue =
      lightsOffCommands.foldl (fun q cmd => q.addMsgQueue cmd.toByte) s.msgQueue := by
  rw [s.timerTask_countdown.2]
  simp only [timerEngine, hoff, hlast]
  rfl

/-- While the engine runs a tick puts at most two commands on the queue, and both switch
lights on. -/
theorem msgQueue_timerTask_running (hon : s.engineRunning = 1) :
    s.timerTask.msgQueue = s.msgQueue ∨ s.timerTask.msgQueue =
      [CmdType.onLights, .onRunningLights].foldl
        (fun q cmd => q.addMsgQueue cmd.toByte) s.msgQueue := by
  rw [s.timerTask_countdown.2]
  simp only [timerEngine, if_pos hon]
  split_ifs
  · exact .inr rfl
  · exact .inl rfl

end IoState

namespace Controller

variable {db : Database} {c : Controller} {e : Event}

/-! ## Runs -/

theorem io_timerTask (c : Controller) : (c.step .timerTask).io = c.io.timerTask := by rw [step]

theorem Reachable.halfShut (h : Reachable db c) : HalfShut c := by
  refine h.invariant (I := HalfShut) ?_ fun c e hc hI => hI.step hc.wellFormed e
  intro inports lightsOnDelay hhead
  cases hhead

/-- Neither `START_SEQ` nor `SHUTDOWN` comes to its end. -/
def NotRestarted (c : Controller) (e : Event) : Prop :=
  ¬ Executes .startSeqEnable c e ∧ ¬ Executes .shutdownFuelPump c e

instance (c : Controller) (e : Event) : Decidable (NotRestarted c e) :=
  inferInstanceAs (Decidable (_ ∧ _))

/-- The end of `SHUTDOWN` starts the countdown, with the engine off. -/
theorem lightsOnCountdown_shutdown (hhalf : HalfShut c)
    (hhead : c.todo.head? = some .shutdownFuelPump) :
    (c.step .basicControlsTask).io.lightsOnCountdown = c.io.actualLightsOnDelay ∧
      (c.step .basicControlsTask).io.engineRunning = 0 := by
  have hex : Executes .shutdownFuelPump c .basicControlsTask := ⟨rfl, hhead⟩
  refine ⟨?_, ?_⟩
  · obtain ⟨todo, htodo⟩ := List.head?_eq_some_iff.mp hhead
    rw [step, htodo]
    exact c.io.lightsOnCountdown_shutdownFuelPump
  · rw [engineRunning_executes hex]
    exact hhalf hhead

theorem engineRunning_notRestarted (hok : NotRestarted c e) (hoff : c.io.engineRunning = 0) :
    (c.step e).io.engineRunning = 0 := by
  by_cases he : e = .basicControlsTask
  · cases hhead : c.todo.head? with
    | none =>
        rw [he, step, List.head?_eq_none_iff.mp hhead]
        exact hoff
    | some block =>
        rw [engineRunning_executes ⟨he, hhead⟩]
        cases block with
        | startSeqEnable => exact absurd ⟨he, hhead⟩ hok.1
        | shutdownAcc => rfl
        | _ => exact hoff
  · rw [engineRunning_step he]
    exact hoff

/-- Between ticks nothing else writes the countdown. -/
theorem lightsOnCountdown_step (hok : NotRestarted c e) (he : e ≠ .timerTask) :
    (c.step e).io.lightsOnCountdown = c.io.lightsOnCountdown := by
  cases stepCases c e with
  | idle hstep => rw [hstep]
  | executed block todo htodo hstep =>
      have hne : block ≠ .shutdownFuelPump := by
        intro heq
        exact hok.2 ⟨rfl, by rw [htodo, heq, List.head?_cons]⟩
      rw [hstep, c.io.lightsOnCountdown_execBlock hne]
  | switched bank result hb hstep =>
      rw [hstep]
      exact IoState.lightsOnCountdown_of_side (c.io.side_monitorInputTask bank result)
  | polled bank hb hstep =>
      rw [hstep]
      exact IoState.lightsOnCountdown_of_side (c.io.side_monitorFakeInputTask bank)
  | ticked hstep => exact absurd rfl he
  | added cmd hstep =>
      rw [hstep]
      exact IoState.lightsOnCountdown_of_side (c.io.side_addMsgQueue cmd)
  | got htodo hstep | delayed delay hstep => rw [hstep]

/-- `SHUTDOWN` comes to its end, and then a run. -/
def afterShutdown (c : Controller) (es : List Event) : Controller :=
  Transition.exec step (c.step .basicControlsTask) es

/-- The ticks of a run are taken off the countdown. -/
theorem countdown_exec {es : List Event} (hes : Transition.Meets step NotRestarted c es)
    (hoff : c.io.engineRunning = 0) :
    (Transition.exec step c es).io.engineRunning = 0 ∧
      (Transition.exec step c es).io.lightsOnCountdown =
        c.io.lightsOnCountdown - es.count .timerTask := by
  induction es generalizing c with
  | nil => exact ⟨hoff, by simp⟩
  | cons e es ih =>
      obtain ⟨hok, hes⟩ := hes
      obtain ⟨hrun, hcount⟩ := ih hes (engineRunning_notRestarted hok hoff)
      refine ⟨hrun, ?_⟩
      rw [Transition.exec_cons, hcount]
      by_cases he : e = .timerTask
      · subst he
        have htick : (c.step .timerTask).io.lightsOnCountdown = c.io.lightsOnCountdown - 1 := by
          rw [io_timerTask, IoState.lightsOnCountdown_timerTask hoff]
        rw [htick, List.count_cons_self]
        omega
      · rw [lightsOnCountdown_step hok he, List.count_cons_of_ne he]

/-- The countdown after `SHUTDOWN` is the delay less the ticks. -/
theorem countdown_afterShutdown (hc : Reachable db c)
    (hhead : c.todo.head? = some .shutdownFuelPump) {es : List Event}
    (hes : Transition.Meets step NotRestarted (c.step .basicControlsTask) es) :
    (afterShutdown c es).io.engineRunning = 0 ∧
      (afterShutdown c es).io.lightsOnCountdown =
        c.io.actualLightsOnDelay - es.count .timerTask := by
  obtain ⟨hstart, hoff⟩ := lightsOnCountdown_shutdown hc.halfShut hhead
  obtain ⟨hoff', hcount⟩ := countdown_exec hes hoff
  exact ⟨hoff', by rw [afterShutdown, hcount, hstart]⟩

end Controller

end TruckControl
