import TruckControl.Library.Register
import TruckControl.Model.Odata
import TruckControl.Model.Truck
import TruckControl.Verification.OwnCommands

/-!
# The two engine flags

A command of the client reaches `engine_on` over the line and `engine_running` through the
control queue; a key reaches `engine_running` alone. The flags are compared by what they
will be once the line and the queue are empty.
-/

namespace TruckControl

/-! ## The writers of the two flags -/

/-- What a command assigns to `engine_running`. -/
def engineValue (cmd : UCHAR) : Option ℕ :=
  match CmdType.ofByte cmd with
  | some .startSeq => some 1
  | some .shutdown => some 0
  | _ => none

/-- What a frame assigns to `engine_on`. -/
def frameEngine (frame : SendSerial) : Option ℕ :=
  match CmdType.ofByte frame.cmd with
  | some .startSeq => some 1
  | some .shutdown | some .estopSignal => some 0
  | _ => none

/-- The engine command of a key. -/
def keyEngine (cmd : UCHAR) : Option ℕ :=
  match KeyType.ofByte cmd with
  | some .kp1 => some 1
  | some .kp2 => some 0
  | _ => none

theorem engineValue_own : ∀ cmd ∈ ownCommands, engineValue cmd.toByte = none := by decide

/-- The blocks of a command write what the command is for. -/
theorem run_basicControls (cmd : UCHAR) (r : ℕ) :
    Register.run Block.engine r (basicControls cmd) = (engineValue cmd).getD r := by
  have hall : ∀ cmd, (engineValue cmd = none ∧ ∀ block ∈ basicControls cmd, block.engine = none) ∨
      cmd = CmdType.startSeq.toByte ∨ cmd = CmdType.shutdown.toByte := by decide +kernel
  rcases hall cmd with h | h | h
  · rw [Register.run_of_none h.2, h.1, Option.getD_none]
  · rw [h]
    rfl
  · rw [h]
    rfl

theorem serialRecvTask_engine (cmd : UCHAR) (k : Keypad) :
    (∃ v add, keyEngine cmd = some v ∧ engineValue add = some v ∧
      (k.serialRecvTask cmd).2 = [add]) ∨
    keyEngine cmd = none ∧ ∀ add ∈ (k.serialRecvTask cmd).2, engineValue add = none := by
  by_cases h1 : KeyType.ofByte cmd = some .kp1
  · exact .inl ⟨1, CmdType.startSeq.toByte, by rw [keyEngine, h1], by decide,
      by rw [Keypad.serialRecvTask, h1]⟩
  by_cases h2 : KeyType.ofByte cmd = some .kp2
  · exact .inl ⟨0, CmdType.shutdown.toByte, by rw [keyEngine, h2], by decide,
      by rw [Keypad.serialRecvTask, h2]⟩
  have hother (key : KeyType) (hk1 : key ≠ .kp1) (hk2 : key ≠ .kp2) :
      ∀ c ∈ Keypad.keyCommands key, engineValue c.toByte = none := by
    cases key <;> simp [Keypad.keyCommands, engineValue] at hk1 hk2 ⊢
  refine .inr ⟨?_, ?_⟩
  · rw [keyEngine]
    split
    · contradiction
    · contradiction
    · rfl
  · intro add hadd
    obtain ⟨key, hkey, c, hc, rfl⟩ := Keypad.mem_serialRecvTask hadd
    exact hother key (fun h => h1 (h ▸ hkey)) (fun h => h2 (h ▸ hkey)) c hc

theorem frameEngine_of_not_actuator {frame : SendSerial} (h : actuator frame.cmd = false) :
    frameEngine frame = none := by
  have hactuator : ∀ cmd : UCHAR, actuator cmd = false →
      CmdType.ofByte cmd ≠ some .startSeq ∧ CmdType.ofByte cmd ≠ some .shutdown ∧
        CmdType.ofByte cmd ≠ some .estopSignal := by decide +kernel
  obtain ⟨hstart, hshutdown, hestop⟩ := hactuator frame.cmd h
  rw [frameEngine]
  cases hcmd : CmdType.ofByte frame.cmd with
  | none => rfl
  | some cmd =>
      cases cmd with
      | startSeq => exact absurd hcmd hstart
      | shutdown => exact absurd hcmd hshutdown
      | estopSignal => exact absurd hcmd hestop
      | _ => rfl

namespace Stm32

theorem engineOn_startRecv7200 (frame : SendSerial) (s : Stm32) :
    (s.startRecv7200 frame).engineOn = (frameEngine frame).getD s.engineOn := by
  rw [startRecv7200]
  by_cases hguard : actuator frame.cmd ∨ frame.cmd ∈ recvCommands.map CmdType.toByte
  · rw [if_pos hguard, frameEngine]
    cases hcmd : CmdType.ofByte frame.cmd with
    | none => rfl
    | some cmd => cases cmd <;> simp
  · rw [if_neg hguard]
    rw [not_or, Bool.not_eq_true] at hguard
    rw [frameEngine_of_not_actuator hguard.1, Option.getD_none]

end Stm32

/-! ## The flags to come -/

/-- `engine_running` once all that waits has been executed, the last command first. -/
def finalEngineRunning (c : Controller) : ℕ :=
  Register.runBack engineValue (Register.run Block.engine c.io.engineRunning c.todo)
    c.io.msgQueue.waiting

/-- The engine command that waits longest. -/
def oldestEngine (c : Controller) : Option ℕ :=
  (c.io.msgQueue.waiting.filterMap engineValue).head?

/-- `engine_on` once all frames on the line have arrived. -/
def finalEngineOn (t : Truck) : ℕ :=
  Register.run frameEngine t.stm32.engineOn t.toStm32

theorem finalEngineRunning_eq (c : Controller) : finalEngineRunning c =
    (oldestEngine c).getD (Register.run Block.engine c.io.engineRunning c.todo) :=
  Register.runBack_eq_head? _ _

/-- What the server does by itself does not change what the engine flag comes to. -/
theorem finalEngineRunning_step (c : Controller) {e : Event} (he : ∀ cmd, e ≠ .addMsgQueue cmd) :
    finalEngineRunning (c.step e) = finalEngineRunning c := by
  have hown (cmds : List CmdType) (h : ∀ cmd ∈ cmds, cmd ∈ ownCommands) (r : ℕ) :
      Register.runBack engineValue r (cmds.map CmdType.toByte) = r := by
    apply Register.runBack_of_none
    intro b hb
    obtain ⟨cmd, hcmd, rfl⟩ := List.mem_map.mp hb
    exact engineValue_own cmd (h cmd hcmd)
  rw [finalEngineRunning, finalEngineRunning]
  cases c.queueStep he with
  | own htodo hadds =>
      obtain ⟨cmds, hcmds, hwaiting⟩ := hadds.waiting
      rw [htodo, hadds.engineRunning, hwaiting, Register.runBack_append, hown cmds hcmds]
  | got cmd htodo hwaiting hstep hengine =>
      rw [htodo, hwaiting, hstep, hengine, run_basicControls, Register.runBack_append]
      rfl
  | executed block hexec hhead hengine hwaiting =>
      obtain ⟨cmds, hcmds, hwaiting⟩ := hwaiting
      rw [hengine, hwaiting, Register.runBack_append, hown cmds hcmds]
      conv_rhs => rw [hhead, Register.run_cons]

/-- A command that is added has the last word only when no engine command waits. -/
theorem finalEngineRunning_add (c : Controller) (cmd : UCHAR)
    (hroom : c.io.msgQueue.ptr < msgQueueSize) :
    finalEngineRunning (c.step (.addMsgQueue cmd)) =
      (oldestEngine c).getD ((engineValue cmd).getD
        (Register.run Block.engine c.io.engineRunning c.todo)) := by
  have hwaiting : (c.step (.addMsgQueue cmd)).io.msgQueue.waiting =
      c.io.msgQueue.waiting ++ [cmd] := c.io.msgQueue.waiting_addMsgQueue cmd hroom
  rw [finalEngineRunning, hwaiting, Register.runBack_append, Register.runBack_eq_head?]
  rfl

/-- A full queue does not take the command. -/
theorem finalEngineRunning_add_of_full (c : Controller) (cmd : UCHAR)
    (hfull : ¬ c.io.msgQueue.ptr < msgQueueSize) :
    finalEngineRunning (c.step (.addMsgQueue cmd)) = finalEngineRunning c := by
  have hsame : (c.step (.addMsgQueue cmd)).io.msgQueue = c.io.msgQueue :=
    c.io.msgQueue.addMsgQueue_of_full cmd hfull
  rw [finalEngineRunning, hsame]
  rfl

theorem finalEngineRunning_add_keep (c : Controller) {cmd : UCHAR}
    (h : engineValue cmd = none ∨ oldestEngine c ≠ none) :
    finalEngineRunning (c.step (.addMsgQueue cmd)) = finalEngineRunning c := by
  by_cases hroom : c.io.msgQueue.ptr < msgQueueSize
  · rw [finalEngineRunning_add c cmd hroom, finalEngineRunning_eq]
    rcases h with h | h
    · rw [h, Option.getD_none]
    · obtain ⟨v, hv⟩ := Option.ne_none_iff_exists'.mp h
      rw [hv, Option.getD_some, Option.getD_some]
  · exact finalEngineRunning_add_of_full c cmd hroom

theorem finalEngineRunning_add_or (c : Controller) {cmd : UCHAR} {v : ℕ}
    (h : engineValue cmd = some v) :
    finalEngineRunning (c.step (.addMsgQueue cmd)) = finalEngineRunning c ∨
      finalEngineRunning (c.step (.addMsgQueue cmd)) = v := by
  by_cases hroom : c.io.msgQueue.ptr < msgQueueSize
  · cases hold : oldestEngine c with
    | none =>
        right
        rw [finalEngineRunning_add c cmd hroom, hold, h, Option.getD_none, Option.getD_some]
    | some w => exact .inl (finalEngineRunning_add_keep c (.inr (by simp [hold])))
  · exact .inl (finalEngineRunning_add_of_full c cmd hroom)

theorem finalEngineRunning_addMsgQueues (c : Controller) (cmds : List UCHAR)
    (h : ∀ cmd ∈ cmds, engineValue cmd = none) :
    finalEngineRunning (Truck.addMsgQueues cmds c) = finalEngineRunning c := by
  induction cmds generalizing c with
  | nil => rfl
  | cons cmd cmds ih =>
      obtain ⟨hcmd, hrest⟩ := List.forall_mem_cons.mp h
      exact (ih _ hrest).trans (finalEngineRunning_add_keep c (.inl hcmd))

namespace Truck

/-! ## The invariant -/

/-- The engine command that `get_host_cmd_task` has sent on and is about to add. -/
def hostEngine (t : Truck) : Option ℕ := t.host.bind engineValue

/-- A key must not change what `engine_running` comes to, or change it to what `engine_on`
comes to; a command of the client must be the one that `engine_running` comes to. -/
def KeepsAgreement (t : Truck) : TruckEvent → Prop
  | .serialRecvTask =>
      ∀ cmd ∈ t.toServer.head?, ∀ v ∈ keyEngine cmd,
        t.hostEngine ≠ none ∨ oldestEngine t.server ≠ none ∨ finalEngineOn t = v
  | .hostAddMsgQueue =>
      ∀ v ∈ t.hostEngine, oldestEngine t.server = some v ∨
        oldestEngine t.server = none ∧ t.server.io.msgQueue.ptr < msgQueueSize
  | _ => True

instance (t : Truck) : DecidablePred (KeepsAgreement t)
  | .serialRecvTask => inferInstanceAs (Decidable (∀ cmd ∈ t.toServer.head?, ∀ v ∈ keyEngine cmd,
      t.hostEngine ≠ none ∨ oldestEngine t.server ≠ none ∨ finalEngineOn t = v))
  | .hostAddMsgQueue => inferInstanceAs (Decidable (∀ v ∈ t.hostEngine, _ ∨ _ ∧ _))
  | .server _ | .hostCmd _ _ | .sendSerialother _ | .startDefaultTask _ | .callback01 _
  | .startRecvFPGA | .startTask7200 | .startRecv7200 => .isTrue trivial

/-- The flags will agree, or will once the command at hand is on the queue. -/
structure Agrees (t : Truck) : Prop where
  le_one : finalEngineOn t ≤ 1
  engines : finalEngineOn t = t.hostEngine.getD (finalEngineRunning t.server)

theorem Agrees.of_eq {t u : Truck} (h : Agrees t) (hon : finalEngineOn u = finalEngineOn t)
    (hhost : u.host = t.host)
    (hserver : finalEngineRunning u.server = finalEngineRunning t.server) : Agrees u := by
  refine ⟨hon.trans_le h.le_one, ?_⟩
  rw [hon, hserver, h.engines, hostEngine, hostEngine, hhost]

theorem finalEngineOn_send (t : Truck) (frames : List SendSerial) :
    finalEngineOn { t with toStm32 := t.toStm32 ++ frames } =
      Register.run frameEngine (finalEngineOn t) frames :=
  Register.run_append frameEngine _ _ _

/-- A command that is sent on writes what its frame writes. -/
theorem frameEngine_host : ∀ cmd ∈ hostCommands, ∀ buf : ℕ → UCHAR,
    frameEngine ⟨cmd.toByte, buf⟩ = engineValue cmd.toByte := by
  intro cmd hcmd buf
  have hall : ∀ cmd ∈ hostCommands, cmd ≠ .estopSignal := by decide
  have hestop := hall cmd hcmd
  rw [frameEngine, engineValue, CmdType.ofByte_toByte]
  cases cmd with
  | estopSignal => exact absurd rfl hestop
  | _ => rfl

theorem Agrees.server {t : Truck} (h : Agrees t) (e : Event) : Agrees (t.step (.server e)) := by
  by_cases he : ∀ cmd, e ≠ .addMsgQueue cmd
  · obtain ⟨cmds, hcmds, hstep⟩ := t.step_server he
    have hown : ∀ cmd ∈ [CmdType.onLights, .onRunningLights, .offLights, .offRunningLights,
        .offFan], frameEngine (sendSerial cmd.toByte) = none := by decide
    have hframes : ∀ frame ∈ cmds.map fun cmd => sendSerial cmd.toByte,
        frameEngine frame = none := by
      intro frame hframe
      obtain ⟨cmd, hcmd, rfl⟩ := List.mem_map.mp hframe
      exact hown cmd (hcmds cmd hcmd)
    rw [hstep]
    refine h.of_eq ?_ rfl (finalEngineRunning_step t.server he)
    rw [finalEngineOn, finalEngineOn, Register.run_append, Register.run_of_none hframes]
  · obtain ⟨cmd, heq⟩ := not_forall.mp he
    rw [not_not.mp heq]
    exact h

theorem Agrees.hostCmd {t : Truck} (h : Agrees t) (cmd : CmdType) (buf : ℕ → UCHAR) :
    Agrees (t.step (.hostCmd cmd buf)) := by
  by_cases hhost : t.host = none ∧ cmd ∈ hostCommands
  · rw [Truck.step, if_pos hhost]
    have hon := finalEngineOn_send t [⟨cmd.toByte, buf⟩]
    rw [Register.run_cons, Register.run_nil, frameEngine_host cmd hhost.2] at hon
    have hengines := h.engines
    rw [hostEngine, hhost.1, Option.bind_none, Option.getD_none] at hengines
    have hle : ∀ cmd, ∀ v ∈ engineValue cmd, v ≤ 1 := by decide +kernel
    cases hvalue : engineValue cmd.toByte with
    | none =>
        rw [hvalue, Option.getD_none] at hon
        refine ⟨hon.trans_le h.le_one, hon.trans (hengines.trans ?_)⟩
        rw [hostEngine, Option.bind_some, hvalue, Option.getD_none]
    | some v =>
        rw [hvalue, Option.getD_some] at hon
        refine ⟨hon.trans_le (hle _ v hvalue), hon.trans ?_⟩
        rw [hostEngine, Option.bind_some, hvalue, Option.getD_some]
  · rw [Truck.step, if_neg hhost]
    exact h

theorem Agrees.hostAddMsgQueue {t : Truck} (h : Agrees t)
    (he : KeepsAgreement t .hostAddMsgQueue) : Agrees (t.step .hostAddMsgQueue) := by
  cases hhost : t.host with
  | none =>
      rw [Truck.step, hhost]
      exact h
  | some cmd =>
      have hengine : t.hostEngine = engineValue cmd := by rw [hostEngine, hhost, Option.bind_some]
      rw [Truck.step, hhost]
      refine ⟨h.le_one, h.engines.trans ?_⟩
      rw [hengine]
      change _ = finalEngineRunning (t.server.step (.addMsgQueue cmd))
      cases hvalue : engineValue cmd with
      | none => rw [Option.getD_none, finalEngineRunning_add_keep t.server (.inl hvalue)]
      | some v =>
          rw [Option.getD_some]
          rcases he v (hengine.trans hvalue) with hold | ⟨hold, hroom⟩
          · rw [finalEngineRunning_add_keep t.server (.inr (by simp [hold])), finalEngineRunning_eq,
              hold, Option.getD_some]
          · rw [finalEngineRunning_add t.server cmd hroom, hold, hvalue, Option.getD_none,
              Option.getD_some]

theorem Agrees.serialRecvTask {t : Truck} (h : Agrees t)
    (he : KeepsAgreement t .serialRecvTask) : Agrees (t.step .serialRecvTask) := by
  cases hline : t.toServer with
  | nil =>
      rw [Truck.step, hline]
      exact h
  | cons cmd rest =>
      rw [Truck.step, hline]
      rcases serialRecvTask_engine cmd t.keypad with ⟨v, add, hkey, hvalue, hadds⟩ | ⟨-, hadds⟩
      · refine ⟨h.le_one, ?_⟩
        change finalEngineOn t = t.hostEngine.getD
          (finalEngineRunning (addMsgQueues (t.keypad.serialRecvTask cmd).2 t.server))
        rw [hadds, addMsgQueues, List.foldl_cons, List.foldl_nil]
        rcases he cmd (by rw [hline, List.head?_cons]; rfl) v hkey with hhost | hold | hon
        · obtain ⟨w, hw⟩ := Option.ne_none_iff_exists'.mp hhost
          rw [h.engines, hw, Option.getD_some, Option.getD_some]
        · rw [finalEngineRunning_add_keep t.server (.inr hold)]
          exact h.engines
        · rcases finalEngineRunning_add_or t.server hvalue with heq | heq
          · rw [heq]
            exact h.engines
          · rw [heq, ← hon]
            cases hhost : t.hostEngine with
            | none => rfl
            | some w => rw [h.engines, hhost, Option.getD_some, Option.getD_some]
      · exact h.of_eq rfl rfl (finalEngineRunning_addMsgQueues t.server _ hadds)

theorem Agrees.startRecv7200 {t : Truck} (h : Agrees t) : Agrees (t.step .startRecv7200) := by
  cases hline : t.toStm32 with
  | nil =>
      rw [Truck.step, hline]
      exact h
  | cons frame rest =>
      rw [Truck.step, hline]
      refine h.of_eq ?_ rfl rfl
      rw [finalEngineOn, finalEngineOn, hline, Register.run_cons, Stm32.engineOn_startRecv7200]

theorem Agrees.step {t : Truck} (h : Agrees t) {e : TruckEvent} (he : KeepsAgreement t e) :
    Agrees (t.step e) := by
  cases e with
  | server e => exact h.server e
  | hostCmd cmd buf => exact h.hostCmd cmd buf
  | hostAddMsgQueue => exact h.hostAddMsgQueue he
  | sendSerialother frame =>
      cases hact : actuator frame.cmd with
      | true =>
          rw [Truck.step, if_pos hact]
          exact h
      | false =>
          have hon := finalEngineOn_send t [frame]
          rw [Register.run_cons, Register.run_nil, frameEngine_of_not_actuator hact] at hon
          rw [Truck.step, if_neg (by simp [hact])]
          exact h.of_eq hon rfl rfl
  | serialRecvTask => exact h.serialRecvTask he
  | startDefaultTask key => exact h.of_eq (by simp [Truck.step, finalEngineOn]) rfl rfl
  | callback01 rawData => exact h.of_eq (by simp [Truck.step, finalEngineOn]) rfl rfl
  | startRecvFPGA => exact h.of_eq (by simp [Truck.step, finalEngineOn]) rfl rfl
  | startTask7200 => exact h.of_eq (by simp [Truck.step, finalEngineOn]) rfl rfl
  | startRecv7200 => exact h.startRecv7200

/-- Everything has arrived, the queue is empty, and the command at hand has set the flag if
it does. -/
structure Settled (t : Truck) : Prop where
  toServer : t.toServer = [] ∧ t.stm32.send7200 = []
  toStm32 : t.toStm32 = []
  host : t.host = none
  queue : t.server.io.msgQueue.waiting = []
  todo : ∀ block ∈ t.server.todo, block.engine = none

theorem agrees_boot (db : Database) (inports : Banks) (lightsOnDelay : ℕ)
    (sendBuffer : ℕ → UCHAR) : Agrees (boot db inports lightsOnDelay sendBuffer) :=
  ⟨Nat.zero_le 1, rfl⟩

/-- In every run that keeps the agreement, the flags agree whenever everything has arrived
and the commands have been executed. -/
theorem engines_agree (db : Database) (inports : Banks) (lightsOnDelay : ℕ)
    (sendBuffer : ℕ → UCHAR) (es : List TruckEvent)
    (hes : Transition.Meets step KeepsAgreement (boot db inports lightsOnDelay sendBuffer) es) :
    let t := Transition.exec step (boot db inports lightsOnDelay sendBuffer) es
    Settled t → (t.stm32.engineOn ≠ 0 ↔ t.server.io.engineRunning = 1) := by
  intro t hsettled
  have hagrees : Agrees t := Transition.inv_exec_of_meets (I := Agrees)
    (fun _ _ h he => h.step he) (agrees_boot db inports lightsOnDelay sendBuffer) hes
  have hon : finalEngineOn t = t.stm32.engineOn := by
    rw [finalEngineOn, hsettled.toStm32, Register.run_nil]
  have hrunning : finalEngineRunning t.server = t.server.io.engineRunning := by
    rw [finalEngineRunning, hsettled.queue, Register.runBack_nil,
      Register.run_of_none hsettled.todo]
  have hle := hagrees.le_one
  have hengines := hagrees.engines
  rw [hostEngine, hsettled.host, Option.bind_none, Option.getD_none, hrunning] at hengines
  rw [← hon]
  omega

/-- The client starts the engine. -/
theorem engines_agree_odata :
    let t := Transition.exec step (boot odata (fun _ => 0#8) 0 fun _ => 0#8)
      [.startRecv7200, .hostCmd .startSeq fun _ => 0#8, .hostAddMsgQueue, .startRecv7200,
        .server .getMsgQueue, .server .basicControlsTask, .server .basicControlsTask,
        .server .basicControlsTask]
    t.stm32.engineOn ≠ 0 ↔ t.server.io.engineRunning = 1 := by
  refine engines_agree odata (fun _ => 0#8) 0 (fun _ => 0#8) _ ?_ ⟨?_, ?_, ?_, ?_, ?_⟩
  all_goals simp only [boot, Controller.boot, initIps_odata]
  all_goals decide +kernel

/-- `KP_1` starts the engine, and the STM32 takes it to be off. -/
theorem engines_disagree_odata :
    let t := Transition.exec step (boot odata (fun _ => 0#8) 0 fun _ => 0#8)
      [.startRecv7200, .startDefaultTask .kp1, .startTask7200, .serialRecvTask,
        .server .getMsgQueue, .server .basicControlsTask, .server .basicControlsTask,
        .server .basicControlsTask]
    t.toServer = [] ∧ t.stm32.send7200 = [] ∧ t.toStm32 = [] ∧ t.host = none ∧
      t.server.io.msgQueue.waiting = [] ∧ t.server.todo = [] ∧
      t.stm32.engineOn = 0 ∧ t.server.io.engineRunning = 1 := by
  simp only [boot, Controller.boot, initIps_odata]
  decide +kernel

end Truck

end TruckControl
