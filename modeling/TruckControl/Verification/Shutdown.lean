import TruckControl.Model.Odata
import TruckControl.Verification.Poll

/-!
# After `SHUTDOWN`

`SHUTDOWN` switches the two power relays off but not the starter, and it does not take
back what is asked of the starter input.
-/

namespace TruckControl

open InputType OutputType

namespace Relay

variable {r : Relay}

/-- An output of type 4 that is off is only switched on by commands that say so. -/
theorem act_off_of_type_four (htype : r.datap.type = 4#8) (hoff : r.hw = false) {a : Action}
    (hstart : a ≠ .start) (hdrive : a ≠ .drive true) (hswitch : a ≠ .switch true) :
    (r.act a).hw = false := by
  cases a with
  | keep => exact hoff
  | set onoff =>
      by_cases h0 : r.datap.reset = 0#8
      · simp [act, setOutput, htype, h0]
      · by_cases h1 : r.datap.reset = 1#8
        · simp [act, setOutput, htype, h1, hoff]
        · simp [act, setOutput, htype, h0, h1, hoff]
  | scan =>
      have hcount : ¬ r.Counting := by simp [Counting, htype]
      rw [act, timerPort, if_neg hcount, hoff]
  | mark onoff => exact hoff
  | drive onoff =>
      cases onoff with
      | true => exact absurd rfl hdrive
      | false => rw [act]; split_ifs <;> first | rfl | exact hoff
  | switch onoff =>
      cases onoff with
      | true => exact absurd rfl hswitch
      | false => rw [act]; split_ifs <;> first | rfl | exact hoff
  | start => exact absurd rfl hstart
  | stop => rfl

/-- A time-delay output is either idle or on. -/
def IdleOrOn (r : Relay) : Prop :=
  r.datap.type = 2#8 ∧ (r.datap.reset = 0#8 ∨ r.datap.reset = 1#8 ∧ r.hw = true)

theorem IdleOrOn.setOutput (h : r.IdleOrOn) (onoff : Bool) : (r.setOutput onoff).IdleOrOn := by
  obtain ⟨htype, hreset | ⟨hreset, hon⟩⟩ := h
  · simp [Relay.setOutput, IdleOrOn, htype, hreset]
  · simp [Relay.setOutput, IdleOrOn, htype, hreset, hon]

theorem IdleOrOn.timerPort (h : r.IdleOrOn) : r.timerPort.IdleOrOn := by
  have h' := h
  obtain ⟨htype, hreset⟩ := h
  rw [Relay.timerPort]
  split_ifs with hcount hlast hblink
  · exact ⟨htype, .inl rfl⟩
  · rw [htype] at hblink
    cases hblink
  · exact ⟨htype, hreset⟩
  · exact h'

/-- A scan does not switch a time-delay output on. -/
theorem timerPort_off (htype : r.datap.type = 2#8) (hoff : r.hw = false) :
    r.timerPort.hw = false := by
  rw [timerPort]
  split_ifs with hcount hlast hblink
  · rfl
  · rw [htype] at hblink
    cases hblink
  · exact hoff
  · exact hoff

theorem setOutput_on_of_off (h : r.IdleOrOn) (hoff : r.hw = false) (onoff : Bool) :
    (r.setOutput onoff).hw = true := by
  obtain ⟨htype, hreset | ⟨-, hon⟩⟩ := h
  · simp [setOutput, htype, hreset]
  · rw [hoff] at hon
    cases hon

end Relay

/-- The blocks of `START_SEQ`, `ENABLE_START`, `ON_ACC` and `ON_FUEL_PUMP` that ask for
power or for the starter. -/
def restarting : List Block :=
  [.startSeqPower, .startSeqEnable, .changeInput starterInput true, .acc true, .fuelPump true]

theorem action_starter {block : Block} (h : block.Issued) : block.action starter = .keep := by
  have hall : ∀ cmd, ∀ block ∈ basicControls cmd, block.action starter = .keep := by
    decide +kernel
  exact h.of_forall hall

/-- Only the restarting blocks ask for the starter, or switch on a power relay. -/
theorem not_restarting {block : Block} (h : block.Issued) (hquiet : block ∉ restarting) :
    block.request ≠ some (starterInput, true) ∧ ∀ p ∈ [accon, fuelpump],
      block.action p ≠ .start ∧ block.action p ≠ .drive true ∧ block.action p ≠ .switch true := by
  have hall : ∀ cmd, ∀ block ∈ basicControls cmd, block ∉ restarting →
      block.request ≠ some (starterInput, true) ∧ ∀ p ∈ [accon, fuelpump],
        block.action p ≠ .start ∧ block.action p ≠ .drive true ∧
          block.action p ≠ .switch true := by decide +kernel
  exact h.of_forall hall hquiet

namespace Controller

variable {db : Database}

/-- A tick, a poll, or a command that does not restart: no switch is moved. -/
def Quiet (c : Controller) (e : Event) : Prop :=
  (∀ bank result, e ≠ .monitorInputTask bank result) ∧ ∀ block ∈ restarting, ¬ Executes block c e

/-- The starter and the two power relays are off. -/
def PowerOff (c : Controller) : Prop :=
  c.io.hwBit starter = false ∧ c.io.hwBit accon = false ∧ c.io.hwBit fuelpump = false

/-- The database drives the starter and the power relays as `odata` does. -/
structure Wiring (db : Database) : Prop where
  starter_type : (db.records starter).type = 2#8
  starter_reset : (db.records starter).reset = 0#8
  starter_input : db.input starter = starterInput
  accon_type : (db.records accon).type = 4#8
  fuelpump_type : (db.records fuelpump).type = 4#8

/-! ## Staying off -/

/-- A power relay that is off stays off. -/
theorem power_off_step {c : Controller} (hc : c.WellFormed db) {e : Event} (he : Quiet c e)
    {p : ℕ} (hp : p ∈ [accon, fuelpump]) (htype : (db.records p).type = 4#8)
    (hoff : c.io.hwBit p = false) : (c.step e).io.hwBit p = false := by
  have hlt : ∀ p ∈ [accon, fuelpump], p < 40 := by decide
  have hp40 := hlt p hp
  have hrelay : (c.io.relay p).datap.type = 4#8 := by
    rw [(Relay.setup_eq_of_eq (hc.setup hp40)).2.2.2.1, htype]
  have haction : c.action db e p ≠ .start ∧ c.action db e p ≠ .drive true ∧
      c.action db e p ≠ .switch true := by
    rcases action_cases db c e p with ⟨block, hex, heq⟩ | heq | ⟨onoff, -, heq⟩ | ⟨-, -, heq⟩
    · rw [heq]
      have hquiet : block ∉ restarting := fun hmem => he.2 block hmem hex
      exact (not_restarting (hc.issued hex) hquiet).2 p hp
    all_goals simp [heq]
  change ((c.step e).io.relay p).hw = false
  rw [relay_step hc e hp40]
  exact Relay.act_off_of_type_four hrelay hoff haction.1 haction.2.1 haction.2.2

/-- What happens to the starter: nothing, a scan, or an edge of its input. -/
theorem action_starter_cases (hdb : Wiring db) {c : Controller} (hc : c.WellFormed db)
    (e : Event) :
    c.action db e starter = .keep ∨ c.action db e starter = .scan ∨
      ∃ onoff, c.edge e = some (starterInput, onoff) ∧ c.action db e starter = .set onoff := by
  rcases action_cases db c e starter with ⟨block, hex, heq⟩ | heq | ⟨onoff, hedge, heq⟩ |
    ⟨-, -, heq⟩
  · exact .inl (heq.trans (action_starter (hc.issued hex)))
  · exact .inl heq
  · exact .inr (.inr ⟨onoff, hdb.starter_input ▸ hedge, heq⟩)
  · exact .inr (.inl heq)

/-- The starter input is not asked for, nor seen as on. -/
def StarterUnasked (c : Controller) : Prop :=
  c.io.seen starterInput = false ∧ c.io.asked starterInput = false

theorem starter_off_step (hdb : Wiring db) {c : Controller} (hc : c.WellFormed db)
    (hclean : c.io.Clean) {e : Event} (he : Quiet c e) (hun : StarterUnasked c)
    (hoff : c.io.hwBit starter = false) : (c.step e).io.hwBit starter = false := by
  have hrelay : (c.io.relay starter).datap.type = 2#8 := by
    rw [(Relay.setup_eq_of_eq (hc.setup (by decide))).2.2.2.1, hdb.starter_type]
  change ((c.step e).io.relay starter).hw = false
  rw [relay_step hc e (by decide)]
  rcases action_starter_cases hdb hc e with heq | heq | ⟨onoff, hedge, -⟩
  · rw [heq]
    exact hoff
  · rw [heq]
    exact Relay.timerPort_off hrelay hoff
  · exact absurd hedge (edge_ne_of_settled hclean he.1 (by decide) (Unasked.not_pending hun) onoff)

theorem starterUnasked_step {c : Controller} (hc : c.WellFormed db) {e : Event} (he : Quiet c e)
    (hun : StarterUnasked c) : StarterUnasked (c.step e) := by
  apply unasked_step hc (by decide) _ hun
  intro block hexec
  have hquiet : block ∉ restarting := fun hmem => he.2 block hmem hexec
  exact (not_restarting (hc.issued hexec) hquiet).1

/-- With the starter off and its input not asked for, everything stays off. -/
theorem powerOff_exec (hdb : Wiring db) {c : Controller} (hc : c.WellFormed db)
    (hclean : c.io.Clean) (hun : StarterUnasked c) (hoff : PowerOff c) {es : List Event}
    (hes : Transition.Meets step Quiet c es) : PowerOff (Transition.exec step c es) := by
  have hstep (c : Controller) (e : Event)
      (h : (c.WellFormed db ∧ c.io.Clean) ∧ StarterUnasked c ∧ PowerOff c) (he : Quiet c e) :
      ((c.step e).WellFormed db ∧ (c.step e).io.Clean) ∧ StarterUnasked (c.step e) ∧
        PowerOff (c.step e) := by
    obtain ⟨⟨hc, hclean⟩, hun, hstarter, hacc, hpump⟩ := h
    exact ⟨⟨wellFormed_step hc e, clean_step hc hclean e⟩, starterUnasked_step hc he hun,
      starter_off_step hdb hc hclean he hun hstarter,
      power_off_step hc he (by simp) hdb.accon_type hacc,
      power_off_step hc he (by simp) hdb.fuelpump_type hpump⟩
  have hrun := Transition.inv_exec_of_meets hstep ⟨⟨hc, hclean⟩, hun, hoff⟩ hes
  exact hrun.2.2

/-! ## Switching on -/

/-- A command comes and is executed at once. -/
def command (cmd : UCHAR) : List Event := [.addMsgQueue cmd, .getMsgQueue, .basicControlsTask]

theorem exec_command {c : Controller} (htodo : c.todo = [])
    (hroom : c.io.msgQueue.ptr < msgQueueSize) {cmd : UCHAR} {block : Block}
    (hcmd : basicControls cmd = [block]) :
    ∃ q : MsgQueue, q.ptr = c.io.msgQueue.ptr ∧ Transition.exec step c (command cmd) =
      { io := { c.io with msgQueue := q }.execBlock block, todo := [] } := by
  refine ⟨⟨Function.update c.io.msgQueue.mem (c.io.msgQueue.ptr + 1) cmd, c.io.msgQueue.ptr⟩,
    rfl, ?_⟩
  have hget := MsgQueue.getMsgQueue_addMsgQueue cmd c.io.msgQueue hroom
  simp only [command, Transition.exec_cons, Transition.exec_nil, step, IoState.addMsgQueue, htodo,
    hget, hcmd]

theorem quiet_command {c : Controller} (htodo : c.todo = [])
    (hroom : c.io.msgQueue.ptr < msgQueueSize) {cmd : UCHAR} {block : Block}
    (hcmd : basicControls cmd = [block]) (hquiet : block ∉ restarting) :
    Transition.Meets step Quiet c (command cmd) := by
  have hget := MsgQueue.getMsgQueue_addMsgQueue cmd c.io.msgQueue hroom
  have hother {c : Controller} {e : Event} (h1 : ∀ bank result, e ≠ .monitorInputTask bank result)
      (h2 : e ≠ .basicControlsTask) : Quiet c e := ⟨h1, fun _ _ hex => h2 hex.1⟩
  refine ⟨hother (by simp) (by simp), hother (by simp) (by simp), ⟨by simp, ?_⟩, trivial⟩
  intro b hb hex
  have hhead := hex.2
  simp only [step, IoState.addMsgQueue, htodo, hget, hcmd, List.head?_cons,
    Option.some.injEq] at hhead
  exact hquiet (hhead ▸ hb)

/-- What a command of one block leaves: its request, and the relays its block acts on. -/
theorem exec_command_spec {c : Controller} (hc : c.WellFormed db) (htodo : c.todo = [])
    (hroom : c.io.msgQueue.ptr < msgQueueSize) {cmd : UCHAR} {block : Block}
    (hcmd : basicControls cmd = [block]) {k : ℕ} {onoff : Bool}
    (hreq : block.request = some (k, onoff)) :
    (∀ j < 40, (Transition.exec step c (command cmd)).io.seen j = c.io.seen j) ∧
      (∀ j < 40, (Transition.exec step c (command cmd)).io.asked j =
        if j = k then onoff else c.io.asked j) ∧
      (Transition.exec step c (command cmd)).io.relay starter = c.io.relay starter := by
  have hissued : block.Issued := ⟨cmd, hcmd ▸ List.mem_cons_self⟩
  obtain ⟨q, -, hexec⟩ := exec_command htodo hroom hcmd
  have hs : IoState.WellFormed db { c.io with msgQueue := q } :=
    ⟨hc.io.found, hc.io.setup, hc.io.ip⟩
  obtain ⟨h1, h2⟩ := IoState.shadow_execBlock hs hissued.valid
  rw [hreq] at h2
  have hk := requestable_of_request hissued hreq
  rw [hexec]
  refine ⟨?_, ?_, ?_⟩
  · intro j _
    exact congrArg (fun b => Banks.bit b j) h1
  · intro j hj
    rw [IoState.asked, h2]
    exact Banks.bit_assign _ (by omega) hj onoff
  · rw [(IoState.acts_execBlock hs hissued.valid).relay_eq starter (by decide),
      action_starter hissued]
    rfl

/-- A pending starter input can be made to switch the starter on: with the fan's input
settled, the poll answers it. -/
theorem starter_on_of_pending (hdb : Wiring db) {c : Controller} (hc : c.WellFormed db)
    (hclean : c.io.Clean) (hrelay : (c.io.relay starter).IdleOrOn)
    (hoff : c.io.hwBit starter = false) (htodo : c.todo = [])
    (hroom : c.io.msgQueue.ptr < msgQueueSize) (hpend : c.io.Pending starterInput) :
    ∃ es, Transition.Meets step Quiet c es ∧
      (Transition.exec step c es).io.hwBit starter = true := by
  obtain ⟨cmd, block, hcmd, hreq, hquiet⟩ : ∃ cmd block, basicControls cmd = [block] ∧
      block.request = some (coolingfanInput, c.io.seen coolingfanInput) ∧ block ∉ restarting := by
    cases c.io.seen coolingfanInput with
    | false => exact ⟨CmdType.offFan.toByte, .requestInput coolingfanInput false [coolingfan],
        by decide, rfl, by decide⟩
    | true => exact ⟨CmdType.onFan.toByte, .requestInput coolingfanInput true [coolingfan],
        by decide, rfl, by decide⟩
  obtain ⟨hseen, hasked, hkeep⟩ := exec_command_spec hc htodo hroom hcmd hreq
  have hwf := wellFormed_exec hc (command cmd)
  have hcl := clean_exec hc hclean (command cmd)
  have hquietc := quiet_command htodo hroom hcmd hquiet
  have hpend1 : (Transition.exec step c (command cmd)).io.Pending starterInput := by
    rw [IoState.Pending, hseen _ (by decide), hasked _ (by decide)]
    exact hpend
  have hfan : ¬ (Transition.exec step c (command cmd)).io.Pending coolingfanInput := by
    rw [IoState.Pending, hseen _ (by decide), hasked _ (by decide)]
    simp
  have habove : ∀ j < 7, starterInput < j → j = coolingfanInput := by decide
  obtain ⟨onoff, hedge⟩ : ∃ onoff,
      (Transition.exec step c (command cmd)).io.pollEdge 0 = some (starterInput, onoff) := by
    by_cases hall : ∀ j < 7, (Transition.exec step c (command cmd)).io.Pending j →
        (Transition.exec step c (command cmd)).io.asked j = true
    · refine ⟨true, hcl.pollEdge_zero_iff.mpr ⟨by decide, hpend1, ?_, iff_of_true rfl hall⟩⟩
      intro j hj hlt
      exact habove j hj hlt ▸ hfan
    · refine ⟨false, hcl.pollEdge_zero_iff.mpr ⟨by decide, hpend1, ?_,
        iff_of_false Bool.false_ne_true hall⟩⟩
      intro j hj hlt
      exact habove j hj hlt ▸ hfan
  refine ⟨command cmd ++ [.monitorFakeInputTask 0], ?_, ?_⟩
  · rw [Transition.meets_append]
    exact ⟨hquietc, ⟨by simp, fun _ _ hex => by cases hex.1⟩, trivial⟩
  · have hset : (Transition.exec step c (command cmd)).edge (.monitorFakeInputTask 0) =
        some (db.input starter, onoff) := by
      rw [hdb.starter_input, ← hedge]
      rfl
    rw [Transition.exec_append, Transition.exec_cons, Transition.exec_nil]
    change (IoState.relay _ starter).hw = true
    rw [relay_step hwf _ (by decide), action_of_edge hset, hkeep]
    exact Relay.setOutput_on_of_off hrelay hoff onoff

/-- So can one that was seen as on: `STARTER_OFF` makes it pending. -/
theorem starter_on_of_asked (hdb : Wiring db) {c : Controller} (hc : c.WellFormed db)
    (hclean : c.io.Clean) (hrelay : (c.io.relay starter).IdleOrOn)
    (hoff : c.io.hwBit starter = false) (htodo : c.todo = [])
    (hroom : c.io.msgQueue.ptr < msgQueueSize) (hasked : ¬ StarterUnasked c) :
    ∃ es, Transition.Meets step Quiet c es ∧
      (Transition.exec step c es).io.hwBit starter = true := by
  cases hseen : c.io.seen starterInput with
  | false =>
      have hpend : c.io.Pending starterInput := fun heq => hasked ⟨hseen, heq.trans hseen⟩
      exact starter_on_of_pending hdb hc hclean hrelay hoff htodo hroom hpend
  | true =>
      have hcmd : basicControls CmdType.starterOff.toByte = [.changeInput starterInput false] := by
        decide
      obtain ⟨hseen', hasked', hkeep⟩ := exec_command_spec hc htodo hroom hcmd rfl
      obtain ⟨q, hq, hexec⟩ := exec_command htodo hroom hcmd
      have hpend : (Transition.exec step c (command CmdType.starterOff.toByte)).io.Pending
          starterInput := by
        rw [IoState.Pending, hseen' _ (by decide), hasked' _ (by decide), hseen]
        simp
      have hroom' : (Transition.exec step c
          (command CmdType.starterOff.toByte)).io.msgQueue.ptr < msgQueueSize := by
        rw [hexec]
        change q.ptr < msgQueueSize
        omega
      obtain ⟨es, hes, hon⟩ := starter_on_of_pending hdb
        (wellFormed_exec hc (command CmdType.starterOff.toByte)) (clean_exec hc hclean _)
        (hkeep ▸ hrelay) ((congrArg Relay.hw hkeep).trans hoff) (by rw [hexec]) hroom' hpend
      refine ⟨command CmdType.starterOff.toByte ++ es, ?_, ?_⟩
      · rw [Transition.meets_append]
        exact ⟨quiet_command htodo hroom hcmd (by decide), hes⟩
      · rwa [Transition.exec_append]

/-! ## The states `SHUTDOWN` comes from -/

theorem Reachable.idleOrOn {c : Controller} (hdb : Wiring db) (h : Reachable db c) :
    (c.io.relay starter).IdleOrOn := by
  refine h.invariant (I := fun c => (c.io.relay starter).IdleOrOn) ?_ ?_
  · intro inports lightsOnDelay
    rw [relay_boot db _ _ (by decide)]
    exact ⟨hdb.starter_type, .inl hdb.starter_reset⟩
  · intro c e hc hI
    rw [relay_step hc.wellFormed e (by decide)]
    rcases action_starter_cases hdb hc.wellFormed e with heq | heq | ⟨onoff, -, heq⟩
    · rw [heq]
      exact hI
    · rw [heq]
      exact hI.timerPort
    · rw [heq]
      exact hI.setOutput onoff

/-- Half way through `SHUTDOWN`, `ACCON` is off. -/
theorem Reachable.accon_off {c : Controller} (hdb : Wiring db) (h : Reachable db c)
    (htodo : c.todo = [.shutdownFuelPump]) : c.io.hwBit accon = false := by
  refine h.invariant
    (I := fun c => c.todo = [.shutdownFuelPump] → c.io.hwBit accon = false) ?_ ?_ htodo
  · intro inports lightsOnDelay htodo
    cases htodo
  · intro c e hc hI htodo
    have hwf := hc.wellFormed
    have htype : (c.io.relay accon).datap.type = 4#8 := by
      rw [(Relay.setup_eq_of_eq (hwf.setup (by decide))).2.2.2.1, hdb.accon_type]
    change ((c.step e).io.relay accon).hw = false
    rw [relay_step hwf e (by decide)]
    rcases todo_shutdownFuelPump hwf (by rw [htodo, List.head?_cons]) with hacc | ⟨hbasic, hsame⟩
    · rw [action_of_executes hacc]
      rfl
    · have hoff : (c.io.relay accon).hw = false := hI (hsame.symm.trans htodo)
      rcases action_cases db c e accon with ⟨block, hex, -⟩ | heq | ⟨onoff, -, heq⟩ | ⟨-, -, heq⟩
      · exact absurd hex.1 hbasic
      all_goals
        rw [heq]
        exact Relay.act_off_of_type_four htype hoff (by simp) (by simp) (by simp)

/-- The last block of `SHUTDOWN` switches the fuel pump off, and leaves the rest. -/
theorem step_shutdownFuelPump {c : Controller} (hc : c.WellFormed db)
    (htodo : c.todo = [.shutdownFuelPump]) :
    (c.step .basicControlsTask).todo = [] ∧
      (c.step .basicControlsTask).io.hwBit fuelpump = false ∧
      (c.step .basicControlsTask).io.hwBit accon = c.io.hwBit accon ∧
      (c.step .basicControlsTask).io.relay starter = c.io.relay starter ∧
      (c.step .basicControlsTask).io.seen starterInput = c.io.seen starterInput ∧
      (c.step .basicControlsTask).io.asked starterInput = c.io.asked starterInput ∧
      (c.step .basicControlsTask).io.msgQueue = c.io.msgQueue := by
  have hex : Executes .shutdownFuelPump c .basicControlsTask := ⟨rfl, by rw [htodo]; rfl⟩
  have hio : c.step .basicControlsTask =
      { io := c.io.execBlock .shutdownFuelPump, todo := [] } := by
    rw [step, htodo]
  have hact (p : ℕ) (hp : p < 40) : (c.step .basicControlsTask).io.relay p =
      (c.io.relay p).act (Block.shutdownFuelPump.action p) := by
    rw [relay_step hc _ hp, action_of_executes hex]
  have hvalid : Block.shutdownFuelPump.Valid := trivial
  obtain ⟨h1, h2⟩ := IoState.shadow_execBlock hc.io hvalid
  refine ⟨by rw [hio], ?_, ?_, hact starter (by decide), ?_, ?_, ?_⟩
  · exact congrArg Relay.hw (hact fuelpump (by decide))
  · exact congrArg Relay.hw (hact accon (by decide))
  · rw [hio]
    exact congrArg (fun b => Banks.bit b starterInput) h1
  · rw [hio]
    exact congrArg (fun b => Banks.bit b starterInput) h2
  · rw [hio]
    simp only [IoState.execBlock, IoState.stopOutput, IoState.changeOutput_eq _ (i := fuelpump)
      (by decide)]
    rfl

/-- Once `SHUTDOWN` is processed, the starter and the power relays stay off through all
that does not restart, exactly when the starter is off and its input is neither asked for
nor seen as on at that time; a full queue apart, which has stored outside its array. -/
theorem shutdown_iff (db : Database) (hdb : Wiring db) (c : Controller) (hc : Reachable db c)
    (htodo : c.todo = [.shutdownFuelPump]) :
    (c.io.hwBit starter = false ∧ StarterUnasked c →
      ∀ es, Transition.Meets step Quiet (c.step .basicControlsTask) es →
        PowerOff (Transition.exec step (c.step .basicControlsTask) es)) ∧
    (c.io.msgQueue.ptr < msgQueueSize →
      (∀ es, Transition.Meets step Quiet (c.step .basicControlsTask) es →
        PowerOff (Transition.exec step (c.step .basicControlsTask) es)) →
      c.io.hwBit starter = false ∧ StarterUnasked c) := by
  have hacc := hc.accon_off hdb htodo
  have hidle := hc.idleOrOn hdb
  have hwf := wellFormed_step hc.wellFormed .basicControlsTask
  have hclean := clean_step hc.wellFormed hc.clean .basicControlsTask
  obtain ⟨htodo', hpump', hacc', hstarter', hseen', hasked', hqueue'⟩ :=
    step_shutdownFuelPump hc.wellFormed htodo
  have hhw : (c.step .basicControlsTask).io.hwBit starter = c.io.hwBit starter :=
    congrArg Relay.hw hstarter'
  refine ⟨?_, ?_⟩
  · intro h es hes
    refine powerOff_exec hdb hwf hclean ?_ ?_ hes
    · exact ⟨hseen'.trans h.2.1, hasked'.trans h.2.2⟩
    · exact ⟨hhw.trans h.1, hacc'.trans hacc, hpump'⟩
  · intro hroom hall
    have hoff : (c.step .basicControlsTask).io.hwBit starter = false := (hall [] trivial).1
    refine ⟨hhw.symm.trans hoff, ?_⟩
    by_contra hasked
    have hasked'' : ¬ StarterUnasked (c.step .basicControlsTask) := by
      rw [StarterUnasked, hseen', hasked']
      exact hasked
    obtain ⟨es, hes, hon⟩ := starter_on_of_asked hdb hwf hclean (hstarter' ▸ hidle) hoff htodo'
      (hqueue' ▸ hroom) hasked''
    have hstaysOff := (hall es hes).1
    rw [hon] at hstaysOff
    cases hstaysOff

theorem wiring_odata : Wiring odata := by
  constructor <;> decide

/-- `SHUTDOWN` as the first command. -/
theorem shutdown_odata :
    let c := Transition.exec step (boot odata (fun _ => 0#8) 0)
      (command CmdType.shutdown.toByte)
    ∀ es, Transition.Meets step Quiet (c.step .basicControlsTask) es →
      PowerOff (Transition.exec step (c.step .basicControlsTask) es) := by
  intro c
  have hc : Reachable odata c := (Reachable.boot odata _ _).after _
  have hoff : c.io.hwBit starter = false ∧ StarterUnasked c := by
    simp only [c, boot, initIps_odata, StarterUnasked]
    decide +kernel
  exact (shutdown_iff odata wiring_odata c hc (by decide +kernel)).1 hoff

/-- `ENABLE_START` right before `SHUTDOWN`: the next poll switches the starter on. -/
theorem shutdown_restarts_odata :
    let c := Transition.exec step (boot odata (fun _ => 0#8) 0)
      (command CmdType.enableStart.toByte ++ command CmdType.shutdown.toByte)
    let off := c.step .basicControlsTask
    c.todo = [.shutdownFuelPump] ∧ PowerOff off ∧ Quiet off (.monitorFakeInputTask 0) ∧
      (off.step (.monitorFakeInputTask 0)).io.hwBit starter = true := by
  intro c off
  have hrun : c.todo = [.shutdownFuelPump] ∧ PowerOff off ∧
      (off.step (.monitorFakeInputTask 0)).io.hwBit starter = true := by
    simp only [off, c, boot, initIps_odata, PowerOff]
    decide +kernel
  exact ⟨hrun.1, hrun.2.1, ⟨by simp, fun _ _ hex => by cases hex.1⟩, hrun.2.2⟩

end Controller

end TruckControl
