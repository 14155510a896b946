import TruckControl.Verification.Relay.Refinement

/-!
# What the server puts on its own queue

Most of what the controller does leaves `engine_running` alone, and brings no command on
the queue but those of `timer_task` and of the emergency stop.
-/

namespace TruckControl

open OutputType

/-- The commands of `timer_task`, and the one of `set_output`. -/
def ownCommands : List CmdType :=
  [.onLights, .onRunningLights, .offLlights, .offRlights, .offLights, .offRunningLights,
    .offFan, .estopSignal]

/-- What a block assigns to `engine_running`. -/
def Block.engine : Block → Option ℕ
  | .startSeqEnable => some 1
  | .shutdownAcc => some 0
  | _ => none

namespace IoState

variable {s t u : IoState}

/-- From `s` to `t` the engine flag is kept, and own commands are added to the queue. -/
structure AddsOwn (s t : IoState) : Prop where
  engineRunning : t.engineRunning = s.engineRunning
  waiting : ∃ cmds : List CmdType, (∀ cmd ∈ cmds, cmd ∈ ownCommands) ∧
    t.msgQueue.waiting = s.msgQueue.waiting ++ cmds.map CmdType.toByte

theorem AddsOwn.of_eq (hengine : t.engineRunning = s.engineRunning)
    (hqueue : t.msgQueue = s.msgQueue) : AddsOwn s t :=
  ⟨hengine, [], by simp, by simp [hqueue]⟩

theorem AddsOwn.refl (s : IoState) : AddsOwn s s := .of_eq rfl rfl

theorem AddsOwn.trans (hst : AddsOwn s t) (htu : AddsOwn t u) : AddsOwn s u := by
  obtain ⟨cmds, hown, hwaiting⟩ := hst.waiting
  obtain ⟨cmds', hown', hwaiting'⟩ := htu.waiting
  refine ⟨htu.engineRunning.trans hst.engineRunning, cmds ++ cmds', ?_, ?_⟩
  · intro cmd hcmd
    rcases List.mem_append.mp hcmd with hcmd | hcmd
    · exact hown cmd hcmd
    · exact hown' cmd hcmd
  · rw [hwaiting', hwaiting, List.map_append, List.append_assoc]

theorem AddsOwn.addMsgQueue (h : AddsOwn s t) {cmd : CmdType} (hcmd : cmd ∈ ownCommands) :
    AddsOwn s (t.addMsgQueue cmd.toByte) := by
  refine h.trans ⟨rfl, ?_⟩
  by_cases hroom : t.msgQueue.ptr < msgQueueSize
  · refine ⟨[cmd], ?_, t.msgQueue.waiting_addMsgQueue cmd.toByte hroom⟩
    intro c hc
    rwa [List.mem_singleton.mp hc]
  · refine ⟨[], by simp, ?_⟩
    change (t.msgQueue.addMsgQueue cmd.toByte).waiting = _
    rw [t.msgQueue.addMsgQueue_of_full cmd.toByte hroom]
    simp

/-- What every round of a loop keeps, the loop keeps. -/
theorem foldl_keeps {β γ : Type*} {f : IoState → β → IoState} (view : IoState → γ)
    (hf : ∀ s b, view (f s b) = view s) (bs : List β) (s : IoState) :
    view (bs.foldl f s) = view s := by
  induction bs generalizing s with
  | nil => rfl
  | cons b bs ih => rw [List.foldl_cons, ih, hf]

theorem AddsOwn.foldl {β : Type*} {f : IoState → β → IoState} (hf : ∀ s b, AddsOwn s (f s b))
    (bs : List β) (s : IoState) : AddsOwn s (bs.foldl f s) := by
  induction bs generalizing s with
  | nil => exact .refl s
  | cons b bs ih => exact (hf s b).trans (ih (f s b))

/-! ## Outputs and inputs -/

@[simp] theorem msgQueue_changeOutput (s : IoState) (i : ℕ) (onoff : Bool) :
    (s.changeOutput i onoff).msgQueue = s.msgQueue := by
  rw [changeOutput]
  split <;> rfl

@[simp] theorem engineRunning_changeOutput (s : IoState) (i : ℕ) (onoff : Bool) :
    (s.changeOutput i onoff).engineRunning = s.engineRunning := by
  rw [changeOutput]
  split <;> rfl

@[simp] theorem msgQueue_write (s : IoState) (i : ℕ) (d : OData) :
    (s.write i d).msgQueue = s.msgQueue := rfl

@[simp] theorem engineRunning_write (s : IoState) (i : ℕ) (d : OData) :
    (s.write i d).engineRunning = s.engineRunning := rfl

@[simp] theorem msgQueue_insertData (s : IoState) (i otp : ℕ) :
    (s.insertData i otp).msgQueue = s.msgQueue := rfl

@[simp] theorem engineRunning_insertData (s : IoState) (i otp : ℕ) :
    (s.insertData i otp).engineRunning = s.engineRunning := rfl

theorem addsOwn_setOutput (s : IoState) (otp : ℕ) (onoff : Bool) :
    AddsOwn s (s.setOutput otp onoff) := by
  simp only [setOutput]
  split_ifs
  any_goals (refine .of_eq ?_ ?_ <;> simp)
  -- the emergency stop
  have hestop : CmdType.estopSignal ∈ ownCommands := by decide
  refine AddsOwn.addMsgQueue (.of_eq ?_ ?_) hestop
  · simp
  · simp

theorem addsOwn_dispatch (s : IoState) (index : ℕ) (onoff : Bool) :
    AddsOwn s (s.dispatch index onoff) := by
  apply AddsOwn.foldl
  intro s row
  split_ifs
  · exact addsOwn_setOutput s row.port onoff
  · exact .refl s

theorem addsOwn_monitorInputTask (s : IoState) (bank : ℕ) (result : UCHAR) :
    AddsOwn s (s.monitorInputTask bank result) := by
  rw [monitorInputTask]
  cases decodeChange bank result (s.inportstatus bank) with
  | none => exact .refl s
  | some edge => exact (addsOwn_dispatch s edge.1 edge.2).trans (.of_eq rfl rfl)

theorem addsOwn_monitorFakeInputTask (s : IoState) (bank : ℕ) :
    AddsOwn s (s.monitorFakeInputTask bank) := by
  simp only [monitorFakeInputTask]
  cases decodeChange bank (s.fakeInportstatus2 bank) (s.fakeInportstatus1 bank) with
  | none => exact .refl s
  | some edge =>
      obtain ⟨index, onoff⟩ := edge
      exact ⟨(addsOwn_dispatch _ index onoff).engineRunning,
        (addsOwn_dispatch _ index onoff).waiting⟩

/-! ## The timer -/

theorem addsOwn_timerEngine (s : IoState) : AddsOwn s s.timerEngine := by
  simp only [timerEngine]
  split_ifs
  · refine AddsOwn.addMsgQueue (AddsOwn.addMsgQueue ?_ ?_) ?_
    · exact .of_eq rfl rfl
    · decide
    · decide
  · exact .of_eq rfl rfl
  · iterate 5 refine AddsOwn.addMsgQueue ?_ (by decide)
    exact .of_eq rfl rfl
  · exact .of_eq rfl rfl
  · exact .of_eq rfl rfl

theorem addsOwn_timerLblinkers (s : IoState) : AddsOwn s s.timerLblinkers := by
  simp only [timerLblinkers]
  split_ifs <;> exact .of_eq rfl rfl

theorem addsOwn_timerRblinkers (s : IoState) : AddsOwn s s.timerRblinkers := by
  simp only [timerRblinkers]
  split_ifs <;> exact .of_eq rfl rfl

theorem addsOwn_timerPort (s : IoState) (i : ℕ) : AddsOwn s (s.timerPort i) := by
  simp only [timerPort]
  split_ifs <;> exact .of_eq (by simp) (by simp)

theorem addsOwn_timerTask (s : IoState) : AddsOwn s s.timerTask := by
  have huptime (s : IoState) : AddsOwn s s.timerUptime := .of_eq rfl rfl
  rw [timerTask, timerScan]
  exact ((((addsOwn_timerEngine s).trans (huptime _)).trans (addsOwn_timerLblinkers _)).trans
    (addsOwn_timerRblinkers _)).trans (AddsOwn.foldl addsOwn_timerPort _ _)

/-! ## Commands -/

theorem addsOwn_markOutput (onoff : Bool) (s : IoState) (index : ℕ) :
    AddsOwn s (s.markOutput onoff index) := .of_eq rfl rfl

theorem addsOwn_startOutput (s : IoState) (index : ℕ) : AddsOwn s (s.startOutput index) :=
  .of_eq (by simp [startOutput]) (by simp [startOutput])

theorem addsOwn_stopOutput (s : IoState) (index : ℕ) : AddsOwn s (s.stopOutput index) :=
  .of_eq (by simp [stopOutput]) (by simp [stopOutput])

theorem addsOwn_execBlock (s : IoState) {block : Block} (h : block.engine = none) :
    AddsOwn s (s.execBlock block) := by
  cases block with
  | changeInput index onoff => exact .of_eq rfl rfl
  | acc onoff =>
      simp only [execBlock, execAcc]
      split_ifs <;> exact .of_eq (by simp) (by simp)
  | fuelPump onoff =>
      simp only [execBlock, execFuelPump]
      split_ifs <;> exact .of_eq (by simp) (by simp)
  | requestInput index onoff outputs =>
      have hinput : AddsOwn s (s.changeInput index onoff) := .of_eq rfl rfl
      exact hinput.trans (AddsOwn.foldl (addsOwn_markOutput onoff) outputs _)
  | setOutput index onoff => exact addsOwn_setOutput s index onoff
  | testLeftBlinker => exact .of_eq rfl rfl
  | testRightBlinker => exact .of_eq rfl rfl
  | startSeqPower => exact (addsOwn_startOutput s accon).trans (addsOwn_startOutput _ fuelpump)
  | startSeqEnable => cases h
  | shutdownAcc => cases h
  | shutdownFuelPump => exact (addsOwn_stopOutput s fuelpump).trans (.of_eq rfl rfl)

/-- The two blocks that set the engine flag put nothing on the queue. -/
theorem execBlock_engine (s : IoState) {block : Block} {n : ℕ} (h : block.engine = some n) :
    (s.execBlock block).engineRunning = n ∧ (s.execBlock block).msgQueue = s.msgQueue := by
  cases block with
  | startSeqEnable => exact ⟨Option.some.inj h, rfl⟩
  | shutdownAcc =>
      refine ⟨?_, ?_⟩
      · rw [← Option.some.inj h, execBlock, (addsOwn_stopOutput _ accon).engineRunning]
      · simp [execBlock, stopOutput]
  | _ => cases h

end IoState

/-! ## Events -/

namespace Controller

/-- What every event of the server's own does to the engine flag and to the queue. -/
inductive QueueStep (c : Controller) (e : Event) : Prop where
  | own (htodo : (c.step e).todo = c.todo) (hadds : c.io.AddsOwn (c.step e).io)
  | got (cmd : UCHAR) (htodo : c.todo = [])
      (hwaiting : c.io.msgQueue.waiting = (c.step e).io.msgQueue.waiting ++ [cmd])
      (hstep : (c.step e).todo = basicControls cmd)
      (hengine : (c.step e).io.engineRunning = c.io.engineRunning)
  | executed (block : Block) (hexec : Executes block c e)
      (hhead : c.todo = block :: (c.step e).todo)
      (hengine : (c.step e).io.engineRunning = block.engine.getD c.io.engineRunning)
      (hwaiting : ∃ cmds : List CmdType, (∀ cmd ∈ cmds, cmd ∈ ownCommands) ∧
        (c.step e).io.msgQueue.waiting =
          c.io.msgQueue.waiting ++ cmds.map CmdType.toByte)

theorem queueStep (c : Controller) {e : Event} (he : ∀ cmd, e ≠ .addMsgQueue cmd) :
    QueueStep c e := by
  have hown {t : IoState} {e : Event} (hstep : c.step e = { c with io := t })
      (hadds : c.io.AddsOwn t) : QueueStep c e := .own (by rw [hstep]) (by rw [hstep]; exact hadds)
  cases stepCases c e with
  | idle hstep => exact hown hstep (.refl c.io)
  | added cmd hstep => exact absurd rfl (he cmd)
  | got htodo hstep =>
      by_cases hempty : c.io.msgQueue.waiting = []
      · rw [c.io.msgQueue.getMsgQueue_of_empty hempty] at hstep
        have hnone : basicControls 0 = [] := by decide
        refine .own ?_ ?_
        · rw [hstep, htodo]
          exact hnone
        · rw [hstep]
          exact .of_eq rfl rfl
      · refine .got c.io.msgQueue.getMsgQueue.1 htodo ?_ ?_ ?_
        · rw [hstep]
          exact c.io.msgQueue.waiting_getMsgQueue hempty
        · rw [hstep]
        · rw [hstep]
  | executed block todo htodo hstep =>
      have hex : Executes block c .basicControlsTask := ⟨rfl, by rw [htodo, List.head?_cons]⟩
      refine .executed block hex (by rw [hstep, htodo]) ?_ ?_
      · rw [hstep]
        cases hengine : block.engine with
        | none => exact (c.io.addsOwn_execBlock hengine).engineRunning
        | some n => exact (c.io.execBlock_engine hengine).1
      · rw [hstep]
        cases hengine : block.engine with
        | none => exact (c.io.addsOwn_execBlock hengine).waiting
        | some n => exact ⟨[], by simp, by simp [(c.io.execBlock_engine hengine).2]⟩
  | switched bank result hb hstep =>
      exact hown hstep (c.io.addsOwn_monitorInputTask bank result)
  | polled bank hb hstep => exact hown hstep (c.io.addsOwn_monitorFakeInputTask bank)
  | ticked hstep => exact hown hstep c.io.addsOwn_timerTask
  | delayed delay hstep => exact hown hstep (.of_eq rfl rfl)

end Controller

end TruckControl
