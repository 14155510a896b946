import TruckControl.Model.Odata
import TruckControl.Model.Truck
import TruckControl.Verification.OwnCommands
import TruckControl.Verification.Poll

/-!
# The frames that `Callback01` sends to switch the fan

`serial_recv_task` looks at keys and at readings, and at no actuator command. The fan of
the STM32 and the relay agree as long as neither side switches.
-/

namespace TruckControl

open InputType OutputType

/-! ## Actuator frames on the server -/

theorem serialRecvTask_actuator {cmd : UCHAR} (h : actuator cmd = true) (k : Keypad) :
    k.serialRecvTask cmd = (k, []) := by
  have hall : ∀ cmd : UCHAR, actuator cmd = true → KeyType.ofByte cmd = none := by decide +kernel
  rw [Keypad.serialRecvTask, hall cmd h]

namespace Truck

/-- An actuator frame that is received comes on the queue, once. -/
def Forwards (t : Truck) : TruckEvent → Prop
  | .serialRecvTask =>
      ∀ cmd ∈ t.toServer.head?, actuator cmd = true →
        (t.step .serialRecvTask).server.io.msgQueue.waiting =
          t.server.io.msgQueue.waiting ++ [cmd]
  | _ => True

/-- The frame that is received is not an actuator's. -/
def NoActuator (t : Truck) : TruckEvent → Prop
  | .serialRecvTask => ∀ cmd ∈ t.toServer.head?, actuator cmd = false
  | _ => True

theorem forwards_iff (t : Truck) (e : TruckEvent) : Forwards t e ↔ NoActuator t e := by
  cases e with
  | serialRecvTask =>
      rw [Forwards, NoActuator]
      cases hline : t.toServer with
      | nil => simp
      | cons cmd rest =>
          simp only [List.head?_cons, Option.mem_some_iff, forall_eq']
          cases hact : actuator cmd with
          | false => simp
          | true =>
              have hsame : (t.step .serialRecvTask).server = t.server := by
                rw [step, hline]
                simp only [serialRecvTask_actuator hact]
                rfl
              rw [hsame]
              simp
  | _ => exact Iff.rfl

end Truck

/-! ## The fan of the STM32 -/

namespace Stm32

variable {s : Stm32}

/-- The fan is off, and no actuator frame waits to be sent. -/
structure FanOff (s : Stm32) : Prop where
  fanOn : s.fanOn = 0
  sends : ∀ cmd ∈ s.send7200, actuator cmd = false

/-- `Callback01` finds the engine on, the fan off and the temperature at its limit. -/
def SwitchesFanOn (rawData : ℤ) (s : Stm32) : Prop :=
  s.serverUp = 1 ∧ s.engineOn > 0 ∧ s.fanOn = 0 ∧ freezing rawData ≥ s.fanOnTemp.toNat

instance (rawData : ℤ) (s : Stm32) : Decidable (s.SwitchesFanOn rawData) :=
  inferInstanceAs (Decidable (_ ∧ _))

theorem FanOff.xQueueSend (h : s.FanOff) {cmd : UCHAR} (hcmd : actuator cmd = false) :
    (s.xQueueSend cmd).FanOff := by
  rw [Stm32.xQueueSend]
  split_ifs
  · refine ⟨h.fanOn, ?_⟩
    intro x hx
    rcases List.mem_append.mp hx with hx | hx
    · exact h.sends x hx
    · rw [List.mem_singleton.mp hx, hcmd]
  · exact h

theorem FanOff.startDefaultTask (h : s.FanOff) (key : KeyType) :
    (s.startDefaultTask key).FanOff := by
  have hkey : actuator key.toByte = false := by
    cases key <;> decide
  have hnav : ∀ cmd ∈ [CmdType.navUp, .navDown, .navClick, .navClose, .navSide],
      actuator cmd.toByte = false := by decide
  have hsent := h.xQueueSend hkey
  cases key with
  | kpA => exact hsent.xQueueSend (hnav .navUp (by simp))
  | kpB => exact hsent.xQueueSend (hnav .navDown (by simp))
  | kpC => exact hsent.xQueueSend (hnav .navClick (by simp))
  | kpD => exact hsent.xQueueSend (hnav .navClose (by simp))
  | kpAst => exact hsent.xQueueSend (hnav .navSide (by simp))
  | _ => exact hsent

theorem FanOff.alarm (h : s.FanOff) (rawData : ℤ) : (s.alarm rawData).FanOff := by
  have htooHigh : actuator CmdType.tempTooHigh.toByte = false := by decide
  rw [Stm32.alarm]
  split_ifs
  · exact ⟨(h.xQueueSend htooHigh).fanOn, (h.xQueueSend htooHigh).sends⟩
  · exact ⟨h.fanOn, h.sends⟩
  · exact h

theorem FanOff.callback01 (h : s.FanOff) {rawData : ℤ} (hon : ¬ SwitchesFanOn rawData s) :
    (s.callback01 rawData).FanOff := by
  have htemp : ∀ cmd ∈ [CmdType.engineTemp, .indoorTemp], actuator cmd.toByte = false := by decide
  rw [Stm32.callback01]
  split_ifs with hup
  · let t := ((s.xQueueSend CmdType.engineTemp.toByte).xQueueSend
      CmdType.indoorTemp.toByte).alarm (freezing rawData)
    have hoff : t.FanOff := ((h.xQueueSend (htemp .engineTemp (by simp))).xQueueSend
      (htemp .indoorTemp (by simp))).alarm (freezing rawData)
    have hengine : t.engineOn = s.engineOn := by simp [t]
    have hlimit : t.fanOnTemp = s.fanOnTemp := by simp [t]
    have hnotOn : t.switchFanOn (freezing rawData) = t := by
      rw [switchFanOn, if_neg]
      rw [hengine, hlimit]
      intro hsw
      exact hon ⟨hup, hsw.1, h.fanOn, hsw.2.2⟩
    have hnotOff : t.switchFanOff (freezing rawData) = t := by
      rw [switchFanOff, if_neg]
      simp [hoff.fanOn]
    change ((t.switchFanOn (freezing rawData)).switchFanOff (freezing rawData)).FanOff
    rw [hnotOn, hnotOff]
    exact hoff
  · exact h

theorem FanOff.startRecvFPGA (h : s.FanOff) : s.startRecvFPGA.FanOff := by
  have hvalues : ∀ cmd ∈ [CmdType.sendRtValues1, .sendRtValues2, .sendRtValues3,
      .sendRtFpgaStatus], actuator cmd.toByte = false := by decide
  have hsend {t : Stm32} (ht : t.FanOff) (cmd : CmdType) (hcmd : cmd ∈ [CmdType.sendRtValues1,
      .sendRtValues2, .sendRtValues3, .sendRtFpgaStatus]) : (t.xQueueSend cmd.toByte).FanOff :=
    ht.xQueueSend (hvalues cmd hcmd)
  simp only [Stm32.startRecvFPGA]
  split_ifs
  · exact hsend (hsend (hsend (hsend h .sendRtValues1 (by simp)) .sendRtValues2 (by simp))
      .sendRtValues3 (by simp)) .sendRtFpgaStatus (by simp)
  · exact hsend (hsend h .sendRtValues1 (by simp)) .sendRtFpgaStatus (by simp)
  · exact hsend (hsend (hsend h .sendRtValues2 (by simp)) .sendRtValues3 (by simp))
      .sendRtFpgaStatus (by simp)
  · exact hsend h .sendRtFpgaStatus (by simp)
  · exact h

theorem FanOff.startTask7200 (h : s.FanOff) :
    s.startTask7200.1.FanOff ∧ ∀ cmd ∈ s.startTask7200.2, actuator cmd = false := by
  rw [Stm32.startTask7200]
  cases hsend : s.send7200 with
  | nil => exact ⟨h, by simp⟩
  | cons cmd rest =>
      have hsends := h.sends
      rw [hsend] at hsends
      obtain ⟨hcmd, hrest⟩ := List.forall_mem_cons.mp hsends
      refine ⟨⟨h.fanOn, hrest⟩, ?_⟩
      dsimp only
      split_ifs <;> simp [hcmd]

/-- Only `ON_FAN` from the server switches the fan on. -/
theorem FanOff.startRecv7200 (h : s.FanOff) {frame : SendSerial}
    (hframe : frame.cmd ≠ CmdType.onFan.toByte) : (s.startRecv7200 frame).FanOff := by
  have hconfig : actuator CmdType.getConfig2.toByte = false := by decide
  have honFan : ∀ b, CmdType.ofByte b = some .onFan → b = CmdType.onFan.toByte := by
    decide +kernel
  rw [Stm32.startRecv7200]
  by_cases hguard : actuator frame.cmd ∨ frame.cmd ∈ recvCommands.map CmdType.toByte
  · rw [if_pos hguard]
    cases hcmd : CmdType.ofByte frame.cmd with
    | none => exact h
    | some cmd =>
        cases cmd with
        | onFan => exact absurd (honFan _ hcmd) hframe
        | offFan => exact ⟨rfl, h.sends⟩
        | getConfig2 => exact h.xQueueSend hconfig
        | _ => exact ⟨h.fanOn, h.sends⟩
  · rw [if_neg hguard]
    exact h

end Stm32

/-! ## The relay of the fan -/

/-- The database drives the fan as `odata` does. -/
structure FanWiring (db : Database) : Prop where
  type : (db.records coolingfan).type = 0#8
  input : db.input coolingfan = coolingfanInput

/-- The blocks of a command do not drive the fan but through its input. -/
theorem action_coolingfan {block : Block} (h : block.Issued) :
    block.action coolingfan = .keep ∨ ∃ onoff, block.action coolingfan = .mark onoff := by
  have hall : ∀ cmd, ∀ block ∈ basicControls cmd,
      block.action coolingfan = .keep ∨ ∃ onoff, block.action coolingfan = .mark onoff := by
    decide +kernel
  exact h.of_forall hall

/-- Only `ON_FAN` asks for the fan. -/
theorem request_coolingfan {cmd : UCHAR} (h : cmd ≠ CmdType.onFan.toByte) :
    ∀ block ∈ basicControls cmd, block.request ≠ some (coolingfanInput, true) := by
  have hall : ∀ cmd : UCHAR, cmd ≠ CmdType.onFan.toByte →
      ∀ block ∈ basicControls cmd, block.request ≠ some (coolingfanInput, true) := by
    decide +kernel
  exact hall cmd h

namespace Controller

variable {db : Database} {c : Controller}

/-- The fan is off, and neither a switch, nor a request, nor a command is about to switch
it on. -/
structure FanOff (db : Database) (c : Controller) : Prop where
  wellFormed : c.WellFormed db
  clean : c.io.Clean
  off : c.io.hwBit coolingfan = false
  unasked : Unasked coolingfanInput c
  waiting : CmdType.onFan.toByte ∉ c.io.msgQueue.waiting
  todo : ∀ block ∈ c.todo, block.request ≠ some (coolingfanInput, true)

/-- The switch of the fan is not moved. -/
def FanSwitchRests (c : Controller) (e : Event) : Prop :=
  ∀ bank result, e = .monitorInputTask bank result →
    ∀ onoff, c.edge e ≠ some (coolingfanInput, onoff)

theorem FanOff.edge_ne (h : FanOff db c) {e : Event} (he : FanSwitchRests c e) (onoff : Bool) :
    c.edge e ≠ some (coolingfanInput, onoff) := by
  cases e with
  | monitorInputTask bank result => exact he bank result rfl onoff
  | _ => exact edge_ne_of_settled h.clean (by simp) (by decide) h.unasked.not_pending onoff

theorem FanOff.off_step (hdb : FanWiring db) (h : FanOff db c) {e : Event}
    (he : FanSwitchRests c e) : (c.step e).io.hwBit coolingfan = false := by
  have hcoolingfan : coolingfan < 40 := by decide
  have htype : (c.io.relay coolingfan).datap.type = 0#8 := by
    rw [(Relay.setup_eq_of_eq (h.wellFormed.setup hcoolingfan)).2.2.2.1, hdb.type]
  change ((c.step e).io.relay coolingfan).hw = false
  rw [relay_step h.wellFormed e hcoolingfan]
  rcases action_cases db c e coolingfan with ⟨block, hexec, heq⟩ | heq | ⟨onoff, hedge, -⟩ |
    ⟨-, -, heq⟩
  · rw [heq]
    rcases action_coolingfan (h.wellFormed.issued hexec) with hact | ⟨onoff, hact⟩
    · rw [hact]
      exact h.off
    · rw [hact]
      exact h.off
  · rw [heq]
    exact h.off
  · rw [hdb.input] at hedge
    exact absurd hedge (h.edge_ne he onoff)
  · have hcount : ¬ (c.io.relay coolingfan).Counting := by simp [Relay.Counting, htype]
    rw [heq, Relay.act, Relay.timerPort, if_neg hcount]
    exact h.off

/-- What the server does by itself does not ask for the fan. -/
theorem FanOff.step (hdb : FanWiring db) (h : FanOff db c) {e : Event}
    (hadd : ∀ cmd, e ≠ .addMsgQueue cmd) (he : FanSwitchRests c e) : FanOff db (c.step e) := by
  have hown : ∀ cmds : List CmdType, (∀ cmd ∈ cmds, cmd ∈ ownCommands) →
      CmdType.onFan.toByte ∉ c.io.msgQueue.waiting ++ cmds.map CmdType.toByte := by
    intro cmds hcmds hmem
    rcases List.mem_append.mp hmem with hmem | hmem
    · exact h.waiting hmem
    · obtain ⟨cmd, hcmd, heq⟩ := List.mem_map.mp hmem
      have honFan : CmdType.onFan ∉ ownCommands := by decide
      exact honFan (CmdType.toByte_injective heq ▸ hcmds cmd hcmd)
  have hunasked : Unasked coolingfanInput (c.step e) := by
    apply unasked_step h.wellFormed (by decide) _ h.unasked
    intro block hexec
    obtain ⟨todo, htodo⟩ := List.head?_eq_some_iff.mp hexec.2
    exact h.todo block (htodo ▸ List.mem_cons_self)
  refine ⟨wellFormed_step h.wellFormed e, clean_step h.wellFormed h.clean e, h.off_step hdb he,
    hunasked, ?_, ?_⟩
  · cases c.queueStep hadd with
    | own htodo hadds =>
        obtain ⟨cmds, hcmds, hwaiting⟩ := hadds.waiting
        rw [hwaiting]
        exact hown cmds hcmds
    | got cmd htodo hwaiting hstep hengine =>
        have hnot := h.waiting
        rw [hwaiting, List.mem_append, not_or] at hnot
        exact hnot.1
    | executed block hexec hhead hengine hwaiting =>
        obtain ⟨cmds, hcmds, hwaiting⟩ := hwaiting
        rw [hwaiting]
        exact hown cmds hcmds
  · cases c.queueStep hadd with
    | own htodo hadds =>
        rw [htodo]
        exact h.todo
    | got cmd htodo hwaiting hstep hengine =>
        have hcmd : cmd ≠ CmdType.onFan.toByte := by
          intro heq
          apply h.waiting
          rw [hwaiting, heq]
          simp
        rw [hstep]
        exact request_coolingfan hcmd
    | executed block hexec hhead hengine hwaiting =>
        intro b hb
        exact h.todo b (hhead ▸ List.mem_cons_of_mem block hb)

theorem FanOff.addMsgQueue (h : FanOff db c) {cmd : UCHAR} (hcmd : cmd ≠ CmdType.onFan.toByte) :
    FanOff db (c.step (.addMsgQueue cmd)) := by
  refine ⟨wellFormed_step h.wellFormed _, clean_step h.wellFormed h.clean _, h.off, h.unasked, ?_,
    h.todo⟩
  change CmdType.onFan.toByte ∉ (c.io.msgQueue.addMsgQueue cmd).waiting
  by_cases hroom : c.io.msgQueue.ptr < msgQueueSize
  · rw [c.io.msgQueue.waiting_addMsgQueue cmd hroom, List.mem_append, not_or]
    exact ⟨h.waiting, by simpa using hcmd.symm⟩
  · rw [c.io.msgQueue.addMsgQueue_of_full cmd hroom]
    exact h.waiting

theorem FanOff.addMsgQueues (h : FanOff db c) {cmds : List UCHAR}
    (hcmds : ∀ cmd ∈ cmds, cmd ≠ CmdType.onFan.toByte) : FanOff db (Truck.addMsgQueues cmds c) := by
  induction cmds generalizing c with
  | nil => exact h
  | cons cmd cmds ih =>
      obtain ⟨hcmd, hrest⟩ := List.forall_mem_cons.mp hcmds
      exact ih (h.addMsgQueue hcmd) hrest

theorem fanOff_boot (db : Database) (inports : Banks) (lightsOnDelay : ℕ) :
    FanOff db (boot db inports lightsOnDelay) := by
  have hreach := Reachable.boot db inports lightsOnDelay
  refine ⟨hreach.wellFormed, hreach.clean, ?_, ⟨?_, ?_⟩, ?_, ?_⟩
  · exact congrArg Relay.hw (relay_boot db inports lightsOnDelay (p := coolingfan) (by decide))
  · change (0#8).getLsbD _ = false
    simp
  · change (0#8).getLsbD _ = false
    simp
  · simp [boot, MsgQueue.init, MsgQueue.waiting]
  · simp [boot]

end Controller

/-! ## Both sides -/

/-- `serial_recv_task` asks for the fan only on `KP_4`. -/
theorem serialRecvTask_ne_onFan {cmd : UCHAR} (h : KeyType.ofByte cmd ≠ some .kp4) (k : Keypad) :
    ∀ add ∈ (k.serialRecvTask cmd).2, add ≠ CmdType.onFan.toByte := by
  have honFan (key : KeyType) (hkey : key ≠ .kp4) : CmdType.onFan ∉ Keypad.keyCommands key := by
    cases key <;> simp [Keypad.keyCommands] at hkey ⊢
  intro add hadd heq
  obtain ⟨key, hkey, c, hc, rfl⟩ := Keypad.mem_serialRecvTask hadd
  apply honFan key
  · intro h4
    exact h (h4 ▸ hkey)
  · exact CmdType.toByte_injective heq ▸ hc

namespace Truck

variable {db : Database} {t : Truck}

/-- The runs looked at: the switch of the fan is not moved, and the client does not ask
for the fan. -/
def FanRun (t : Truck) : TruckEvent → Prop
  | .server e => t.server.FanSwitchRests e
  | .hostCmd cmd _ => cmd ≠ .onFan
  | _ => True

/-- `Callback01` does not switch the fan on, and `KP_4` does not come. -/
def FanLeft (t : Truck) : TruckEvent → Prop
  | .callback01 rawData => ¬ t.stm32.SwitchesFanOn rawData
  | .serialRecvTask => ∀ cmd ∈ t.toServer.head?, KeyType.ofByte cmd ≠ some .kp4
  | _ => True

instance (t : Truck) : DecidablePred (FanLeft t)
  | .callback01 rawData => inferInstanceAs (Decidable (¬ t.stm32.SwitchesFanOn rawData))
  | .serialRecvTask =>
      inferInstanceAs (Decidable (∀ cmd ∈ t.toServer.head?, KeyType.ofByte cmd ≠ some .kp4))
  | .server _ | .hostCmd _ _ | .hostAddMsgQueue | .sendSerialother _ | .startDefaultTask _
  | .startRecvFPGA | .startTask7200 | .startRecv7200 => .isTrue trivial

/-- The fan is off on both sides, and nothing under way switches it. -/
structure FanOff (db : Database) (t : Truck) : Prop where
  server : t.server.FanOff db
  stm32 : t.stm32.FanOff
  host : t.host ≠ some CmdType.onFan.toByte
  toServer : ∀ cmd ∈ t.toServer, actuator cmd = false
  toStm32 : ∀ frame ∈ t.toStm32, frame.cmd ≠ CmdType.onFan.toByte

theorem FanOff.serverStep (hdb : FanWiring db) (h : FanOff db t) (e : Event)
    (hrest : t.server.FanSwitchRests e) : FanOff db (t.step (.server e)) := by
  by_cases he : ∀ cmd, e ≠ .addMsgQueue cmd
  · obtain ⟨cmds, hcmds, hstep⟩ := t.step_server he
    have honFan : ∀ cmd ∈ [CmdType.onLights, .onRunningLights, .offLights, .offRunningLights,
        .offFan], cmd ≠ .onFan := by decide
    rw [hstep]
    refine ⟨h.server.step hdb he hrest, h.stm32, h.host, h.toServer, ?_⟩
    intro frame hframe
    rcases List.mem_append.mp hframe with hframe | hframe
    · exact h.toStm32 frame hframe
    · obtain ⟨cmd, hcmd, rfl⟩ := List.mem_map.mp hframe
      exact fun heq => honFan cmd (hcmds cmd hcmd) (CmdType.toByte_injective heq)
  · obtain ⟨cmd, heq⟩ := not_forall.mp he
    rw [not_not.mp heq]
    exact h

theorem FanOff.hostCmd (h : FanOff db t) {cmd : CmdType} (hcmd : cmd ≠ .onFan) (buf : ℕ → UCHAR) :
    FanOff db (t.step (.hostCmd cmd buf)) := by
  have hbyte : cmd.toByte ≠ CmdType.onFan.toByte := fun heq => hcmd (CmdType.toByte_injective heq)
  rw [Truck.step]
  split_ifs
  · refine ⟨h.server, h.stm32, fun heq => hbyte (Option.some.inj heq), h.toServer, ?_⟩
    intro frame hframe
    rcases List.mem_append.mp hframe with hframe | hframe
    · exact h.toStm32 frame hframe
    · rw [List.mem_singleton.mp hframe]
      exact hbyte
  · exact h

theorem FanOff.hostAddMsgQueue (h : FanOff db t) : FanOff db (t.step .hostAddMsgQueue) := by
  cases hhost : t.host with
  | none =>
      rw [Truck.step, hhost]
      exact h
  | some cmd =>
      have hcmd : cmd ≠ CmdType.onFan.toByte := fun heq => h.host (heq ▸ hhost)
      rw [Truck.step, hhost]
      exact ⟨h.server.addMsgQueue hcmd, h.stm32, by simp, h.toServer, h.toStm32⟩

theorem FanOff.sendSerialother (h : FanOff db t) (frame : SendSerial) :
    FanOff db (t.step (.sendSerialother frame)) := by
  have honFan : actuator CmdType.onFan.toByte = true := by decide
  rw [Truck.step]
  split_ifs with hact
  · exact h
  · refine ⟨h.server, h.stm32, h.host, h.toServer, ?_⟩
    intro f hf
    rcases List.mem_append.mp hf with hf | hf
    · exact h.toStm32 f hf
    · rw [List.mem_singleton.mp hf]
      exact fun heq => hact (heq ▸ honFan)

theorem FanOff.serialRecvTask (h : FanOff db t) (he : FanLeft t .serialRecvTask) :
    FanOff db (t.step .serialRecvTask) := by
  cases hline : t.toServer with
  | nil =>
      rw [Truck.step, hline]
      exact h
  | cons cmd rest =>
      have hkey : KeyType.ofByte cmd ≠ some .kp4 := he cmd (by rw [hline, List.head?_cons]; rfl)
      have hrest := h.toServer
      rw [hline, List.forall_mem_cons] at hrest
      rw [Truck.step, hline]
      exact ⟨h.server.addMsgQueues (serialRecvTask_ne_onFan hkey t.keypad), h.stm32, h.host,
        hrest.2, h.toStm32⟩

theorem FanOff.startRecv7200 (h : FanOff db t) : FanOff db (t.step .startRecv7200) := by
  cases hline : t.toStm32 with
  | nil =>
      rw [Truck.step, hline]
      exact h
  | cons frame rest =>
      have hframes := h.toStm32
      rw [hline, List.forall_mem_cons] at hframes
      rw [Truck.step, hline]
      exact ⟨h.server, h.stm32.startRecv7200 hframes.1, h.host, h.toServer, hframes.2⟩

theorem FanOff.step (hdb : FanWiring db) (h : FanOff db t) {e : TruckEvent} (hrun : FanRun t e)
    (hleft : FanLeft t e) : FanOff db (t.step e) := by
  cases e with
  | server e => exact h.serverStep hdb e hrun
  | hostCmd cmd buf => exact h.hostCmd hrun buf
  | hostAddMsgQueue => exact h.hostAddMsgQueue
  | sendSerialother frame => exact h.sendSerialother frame
  | serialRecvTask => exact h.serialRecvTask hleft
  | startDefaultTask key =>
      exact ⟨h.server, h.stm32.startDefaultTask key, h.host, h.toServer, h.toStm32⟩
  | callback01 rawData =>
      exact ⟨h.server, h.stm32.callback01 hleft, h.host, h.toServer, h.toStm32⟩
  | startRecvFPGA => exact ⟨h.server, h.stm32.startRecvFPGA, h.host, h.toServer, h.toStm32⟩
  | startTask7200 =>
      refine ⟨h.server, h.stm32.startTask7200.1, h.host, ?_, h.toStm32⟩
      intro cmd hcmd
      rcases List.mem_append.mp hcmd with hcmd | hcmd
      · exact h.toServer cmd hcmd
      · exact h.stm32.startTask7200.2 cmd hcmd
  | startRecv7200 => exact h.startRecv7200

theorem FanOff.noActuator (h : FanOff db t) (e : TruckEvent) : NoActuator t e := by
  cases e with
  | serialRecvTask => exact fun cmd hcmd => h.toServer cmd (List.mem_of_mem_head? hcmd)
  | _ => trivial

theorem fanOff_boot (db : Database) (inports : Banks) (lightsOnDelay : ℕ)
    (sendBuffer : ℕ → UCHAR) : FanOff db (boot db inports lightsOnDelay sendBuffer) := by
  have hserverUp : CmdType.serverUp.toByte ≠ CmdType.onFan.toByte := by decide
  refine ⟨Controller.fanOff_boot db inports lightsOnDelay, ⟨rfl, ?_⟩, ?_, ?_, ?_⟩
  · simp [boot, Stm32.init]
  · simp [boot]
  · simp [boot]
  · simpa [boot] using hserverUp

/-- The frames of actuator commands reach the queue in the runs that have none; and where
neither `Callback01` switches the fan on nor `KP_4` comes there are none, and the fan is
as the STM32 takes it to be. -/
theorem fan_forwarded (db : Database) (hdb : FanWiring db) (inports : Banks) (lightsOnDelay : ℕ)
    (sendBuffer : ℕ → UCHAR) (es : List TruckEvent) :
    let t₀ := boot db inports lightsOnDelay sendBuffer
    let t := Transition.exec step t₀ es
    (Transition.Meets step Forwards t₀ es ↔ Transition.Meets step NoActuator t₀ es) ∧
      (Transition.Meets step FanRun t₀ es → Transition.Meets step FanLeft t₀ es →
        Transition.Meets step Forwards t₀ es ∧
          (t.server.io.hwBit coolingfan = true ↔ t.stm32.fanOn ≠ 0)) := by
  intro t₀ t
  have hiff : Transition.Meets step Forwards t₀ es ↔ Transition.Meets step NoActuator t₀ es :=
    Transition.meets_congr (I := fun _ => True) (fun _ _ _ => trivial)
      (fun t e _ => forwards_iff t e) es trivial
  refine ⟨hiff, ?_⟩
  intro hrun hleft
  have hstep (t : Truck) (e : TruckEvent) (h : FanOff db t) (he : FanRun t e ∧ FanLeft t e) :
      FanOff db (t.step e) := h.step hdb he.1 he.2
  have hboot : FanOff db t₀ := fanOff_boot db inports lightsOnDelay sendBuffer
  have hoff : FanOff db t := Transition.inv_exec_of_meets hstep hboot (hrun.and hleft)
  have hnone : Transition.Meets step NoActuator t₀ es :=
    Transition.meets_of_inv hstep (fun t e h _ => h.noActuator e) hboot (hrun.and hleft)
  refine ⟨hiff.mpr hnone, ?_⟩
  rw [hoff.server.off, hoff.stm32.fanOn]
  simp

theorem fanWiring_odata : FanWiring odata := ⟨by decide, by decide⟩

/-- The limits that `SERVER_UP` brings: alarm at 190, fan on at 175, fan off at 150. -/
def limits (i : ℕ) : UCHAR := [190#8, 0#8, 175#8, 0#8, 150#8].getD i 0#8

/-- The engine is started by the client and runs warm, and `KP_6` switches the running
lights on. -/
def warmRun : List TruckEvent :=
  [.startRecv7200, .hostCmd .startSeq fun _ => 0#8, .hostAddMsgQueue, .startRecv7200,
    .server .getMsgQueue, .server .basicControlsTask, .server .basicControlsTask,
    .server .basicControlsTask, .callback01 170, .startDefaultTask .kp6, .startTask7200,
    .startTask7200, .startTask7200, .serialRecvTask, .serialRecvTask, .serialRecvTask,
    .server .getMsgQueue, .server .basicControlsTask, .server (.monitorFakeInputTask 0)]

theorem fan_forwarded_odata :
    let t₀ := boot odata (fun _ => 0#8) 0 limits
    let t := Transition.exec step t₀ warmRun
    Transition.Meets step Forwards t₀ warmRun ∧
      (t.server.io.hwBit coolingfan = true ↔ t.stm32.fanOn ≠ 0) := by
  refine (fan_forwarded odata fanWiring_odata (fun _ => 0#8) 0 limits warmRun).2 ?_ ?_
  · simp [warmRun, Transition.Meets, FanRun, Controller.FanSwitchRests]
  · simp only [boot, Controller.boot, initIps_odata]
    decide +kernel

/-- The engine gets hot: the `ON_FAN` of `Callback01` arrives and is dropped, and the STM32
takes the fan to be on. -/
theorem fan_not_forwarded_odata :
    let t := Transition.exec step (boot odata (fun _ => 0#8) 0 limits)
      [.startRecv7200, .hostCmd .startSeq fun _ => 0#8, .hostAddMsgQueue, .startRecv7200,
        .server .getMsgQueue, .server .basicControlsTask, .server .basicControlsTask,
        .server .basicControlsTask, .server (.monitorFakeInputTask 0), .callback01 180,
        .startTask7200, .startTask7200, .startTask7200, .serialRecvTask, .serialRecvTask]
    let u := t.step .serialRecvTask
    t.toServer = [CmdType.onFan.toByte] ∧ t.stm32.send7200 = [] ∧ t.toStm32 = [] ∧
      u.toServer = [] ∧ u.server.io.msgQueue.waiting = [] ∧ u.server.todo = [] ∧
      u.stm32.fanOn = 1 ∧ u.server.io.hwBit coolingfan = false ∧
      (∀ bank < 6, u.server.io.pollEdge bank = none) := by
  simp only [boot, Controller.boot, initIps_odata]
  decide +kernel

end Truck

end TruckControl
