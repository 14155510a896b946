import TruckControl.Library.Register
import TruckControl.Verification.OwnCommands
import TruckControl.Verification.Poll

/-!
# Executing what waits

When nothing new arrives, `basic_controls_task` executes the commands on the queue, the
newest first, and the polls bring the requests to the outputs. What is left to execute is a
list of blocks.
-/

namespace TruckControl

namespace IoState

variable {db : Database} {s t : IoState}

/-- The blocks of the commands that wait, in the order in which they will be executed. -/
def waitingBlocks (s : IoState) : List Block :=
  s.msgQueue.waiting.reverse.flatMap basicControls

theorem waitingBlocks_congr (h : t.msgQueue = s.msgQueue) : t.waitingBlocks = s.waitingBlocks := by
  rw [waitingBlocks, waitingBlocks, h]

/-- A command that executes nothing leaves nothing to execute. -/
theorem waitingBlocks_addMsgQueue {cmd : UCHAR} (hcmd : basicControls cmd = []) :
    (s.addMsgQueue cmd).waitingBlocks = s.waitingBlocks := by
  by_cases hroom : s.msgQueue.ptr < msgQueueSize
  · have hwaiting : (s.addMsgQueue cmd).msgQueue.waiting = s.msgQueue.waiting ++ [cmd] :=
      s.msgQueue.waiting_addMsgQueue cmd hroom
    rw [waitingBlocks, waitingBlocks, hwaiting, List.reverse_concat, List.flatMap_cons, hcmd,
      List.nil_append]
  · exact waitingBlocks_congr (s.msgQueue.addMsgQueue_of_full cmd hroom)

theorem waitingBlocks_setOutput (s : IoState) (otp : ℕ) (onoff : Bool) :
    (s.setOutput otp onoff).waitingBlocks = s.waitingBlocks := by
  have hestop : basicControls CmdType.estopSignal.toByte = [] := by decide
  simp only [setOutput]
  split_ifs
  any_goals
    apply waitingBlocks_congr
    simp only [msgQueue_write, msgQueue_insertData, msgQueue_changeOutput]
  rw [waitingBlocks_addMsgQueue hestop]
  apply waitingBlocks_congr
  simp only [msgQueue_write, msgQueue_insertData, msgQueue_changeOutput]

theorem waitingBlocks_dispatch (s : IoState) (index : ℕ) (onoff : Bool) :
    (s.dispatch index onoff).waitingBlocks = s.waitingBlocks := by
  apply foldl_keeps
  intro s row
  split_ifs
  · exact waitingBlocks_setOutput s row.port onoff
  · rfl

theorem waitingBlocks_monitorFakeInputTask (s : IoState) (bank : ℕ) :
    (s.monitorFakeInputTask bank).waitingBlocks = s.waitingBlocks := by
  simp only [monitorFakeInputTask]
  cases decodeChange bank (s.fakeInportstatus2 bank) (s.fakeInportstatus1 bank) with
  | none => rfl
  | some edge => exact waitingBlocks_dispatch _ edge.1 edge.2

theorem waitingBlocks_execBlock (s : IoState) (block : Block) :
    (s.execBlock block).waitingBlocks = s.waitingBlocks := by
  cases block with
  | requestInput index onoff outputs =>
      have hmark (s : IoState) (output : ℕ) :
          (s.markOutput onoff output).waitingBlocks = s.waitingBlocks := rfl
      exact foldl_keeps waitingBlocks hmark outputs (s.changeInput index onoff)
  | setOutput index onoff => exact waitingBlocks_setOutput s index onoff
  | acc onoff =>
      simp only [execBlock, execAcc]
      split_ifs <;> exact waitingBlocks_congr (by simp)
  | fuelPump onoff =>
      simp only [execBlock, execFuelPump]
      split_ifs <;> exact waitingBlocks_congr (by simp)
  | changeInput index onoff => rfl
  | testLeftBlinker => rfl
  | testRightBlinker => rfl
  | startSeqEnable => rfl
  | startSeqPower => exact waitingBlocks_congr (by simp [execBlock, startOutput])
  | shutdownAcc => exact waitingBlocks_congr (by simp [execBlock, stopOutput])
  | shutdownFuelPump => exact waitingBlocks_congr (by simp [execBlock, stopOutput])

theorem msgQueue_request {block : Block} {request : ℕ × Bool}
    (h : block.request = some request) : (s.execBlock block).msgQueue = s.msgQueue := by
  cases block with
  | requestInput index onoff outputs =>
      have hmark (s : IoState) (output : ℕ) :
          (s.markOutput onoff output).msgQueue = s.msgQueue := rfl
      exact foldl_keeps IoState.msgQueue hmark outputs (s.changeInput index onoff)
  | changeInput index onoff => rfl
  | testLeftBlinker => rfl
  | testRightBlinker => rfl
  | startSeqEnable => rfl
  | _ => cases h

end IoState

namespace Controller

variable {db : Database} {c : Controller} {e : Event}

/-- What is left to execute. -/
def work (c : Controller) : List Block := c.todo ++ c.io.waitingBlocks

/-- The events that bring commands and requests to the outputs, and nothing new. -/
def Drains : Event → Prop
  | .getMsgQueue | .basicControlsTask | .monitorFakeInputTask _ => True
  | .addMsgQueue _ | .monitorInputTask _ _ | .timerTask | .lightsOnDelay _ => False

instance : DecidablePred Drains
  | .getMsgQueue | .basicControlsTask | .monitorFakeInputTask _ => .isTrue trivial
  | .addMsgQueue _ | .monitorInputTask _ _ | .timerTask | .lightsOnDelay _ => .isFalse id

/-- Such an event executes the first block that is left, or none. -/
inductive WorkStep (c : Controller) (e : Event) : Prop where
  | kept (hno : ∀ block, ¬ Executes block c e) (hwork : (c.step e).work = c.work)
  | executed (block : Block) (hex : Executes block c e)
      (hwork : c.work = block :: (c.step e).work)

theorem workStep (c : Controller) (he : Drains e) : WorkStep c e := by
  have hno {e : Event} (he : e ≠ .basicControlsTask) (block : Block) : ¬ Executes block c e :=
    fun hex => he hex.1
  cases stepCases c e with
  | idle hstep =>
      by_cases hbasic : e = .basicControlsTask
      · subst hbasic
        refine .kept ?_ (by rw [hstep])
        intro block hex
        obtain ⟨todo, htodo⟩ := List.head?_eq_some_iff.mp hex.2
        have hlength := congrArg (fun c => c.todo.length) hstep
        simp [step, htodo] at hlength
      · exact .kept (hno hbasic) (by rw [hstep])
  | got htodo hstep =>
      refine .kept (hno (by simp)) ?_
      rw [hstep, work, work, htodo, List.nil_append]
      by_cases hempty : c.io.msgQueue.waiting = []
      · have hnone : basicControls 0 = [] := by decide
        rw [c.io.msgQueue.getMsgQueue_of_empty hempty]
        change basicControls 0 ++ c.io.waitingBlocks = c.io.waitingBlocks
        rw [hnone, List.nil_append]
      · rw [IoState.waitingBlocks, IoState.waitingBlocks,
          c.io.msgQueue.waiting_getMsgQueue hempty, List.reverse_concat, List.flatMap_cons]
  | executed block todo htodo hstep =>
      refine .executed block ⟨rfl, by rw [htodo, List.head?_cons]⟩ ?_
      rw [hstep, work, work, htodo, IoState.waitingBlocks_execBlock, List.cons_append]
  | polled bank hb hstep =>
      refine .kept (hno (by simp)) ?_
      rw [hstep, work, work, IoState.waitingBlocks_monitorFakeInputTask]
  | added cmd hstep => exact he.elim
  | switched bank result hb hstep => exact he.elim
  | ticked hstep => exact he.elim
  | delayed delay hstep => exact he.elim

/-! ## Requests that wait -/

/-- What a block asks of an input. -/
def asks (j : ℕ) (block : Block) : Option Bool :=
  block.request.bind fun r => if r.1 = j then some r.2 else none

/-- What the blocks make of an output. -/
def marks (p : ℕ) (r : Relay) (blocks : List Block) : Relay :=
  blocks.foldl (fun r block => r.act (block.action p)) r

/-- A command whose only block asks for an input of the first bank. -/
def Requests (cmd : UCHAR) : Prop :=
  ∃ block, basicControls cmd = [block] ∧ ∃ k onoff, block.request = some (k, onoff) ∧ k < 7

/-- What has been left by the commands that waited: their requests are asked, in order, and
their outputs marked. -/
structure Executed (c c' : Controller) : Prop where
  work : c'.work = []
  seen : c'.io.fakeInportstatus1 = c.io.fakeInportstatus1
  asked : ∀ j < 40, c'.io.asked j = Register.run (asks j) (c.io.asked j) c.work
  above : ∀ bank, bank ≠ 0 → c'.io.fakeInportstatus2 bank = c.io.fakeInportstatus2 bank
  relay : ∀ p < 40, c'.io.relay p = marks p (c.io.relay p) c.work

theorem work_of_waiting (htodo : c.todo = []) {cmds : List UCHAR} {cmd : UCHAR}
    (hwaiting : c.io.msgQueue.waiting = cmds ++ [cmd]) :
    c.work = basicControls cmd ++ cmds.reverse.flatMap basicControls := by
  rw [work, htodo, List.nil_append, IoState.waitingBlocks, hwaiting, List.reverse_concat,
    List.flatMap_cons]

/-- The command at the end of the queue is taken and executed. -/
theorem exec_round (hc : c.WellFormed db) (htodo : c.todo = []) {cmds : List UCHAR} {cmd : UCHAR}
    (hwaiting : c.io.msgQueue.waiting = cmds ++ [cmd]) {block : Block}
    (hblock : basicControls cmd = [block]) {k : ℕ} {onoff : Bool}
    (hrequest : block.request = some (k, onoff)) :
    let c' := Transition.exec step c [.getMsgQueue, .basicControlsTask]
    c'.todo = [] ∧ c'.io.msgQueue.waiting = cmds ∧
      c'.io.fakeInportstatus1 = c.io.fakeInportstatus1 ∧
      c'.io.fakeInportstatus2 = c.io.fakeInportstatus2.assign k onoff ∧
      ∀ p < 40, c'.io.relay p = (c.io.relay p).act (block.action p) := by
  intro c'
  have hne : c.io.msgQueue.waiting ≠ [] := by simp [hwaiting]
  obtain ⟨hqueue, hcmd⟩ := List.append_inj'
    ((c.io.msgQueue.waiting_getMsgQueue hne).symm.trans hwaiting) rfl
  let s : IoState := { c.io with msgQueue := c.io.msgQueue.getMsgQueue.2 }
  have hs : IoState.WellFormed db s := ⟨hc.io.found, hc.io.setup, hc.io.ip⟩
  have hissued : block.Issued := ⟨cmd, hblock ▸ List.mem_cons_self⟩
  have hc' : c' = { io := s.execBlock block, todo := [] } := by
    simp only [c', s, Transition.exec_cons, Transition.exec_nil, step, htodo,
      List.singleton_inj.mp hcmd, hblock]
  obtain ⟨h1, h2⟩ := IoState.shadow_execBlock hs hissued.valid
  rw [hrequest] at h2
  rw [hc']
  refine ⟨rfl, ?_, h1, h2, (IoState.acts_execBlock hs hissued.valid).relay_eq⟩
  rw [IoState.msgQueue_request hrequest]
  exact hqueue

/-- As many rounds as commands. -/
def rounds (n : ℕ) : List Event := (List.replicate n [.getMsgQueue, .basicControlsTask]).flatten

theorem exec_rounds (n : ℕ) (hc : c.WellFormed db) (htodo : c.todo = [])
    (hn : c.io.msgQueue.waiting.length = n) (hcmds : ∀ cmd ∈ c.io.msgQueue.waiting, Requests cmd) :
    Executed c (Transition.exec step c (rounds n)) := by
  induction n generalizing c with
  | zero =>
      have hwork : c.work = [] := by
        rw [work, htodo, IoState.waitingBlocks, List.length_eq_zero_iff.mp hn]
        rfl
      have hrounds : Transition.exec step c (rounds 0) = c := rfl
      rw [hrounds]
      refine ⟨hwork, rfl, ?_, fun _ _ => rfl, ?_⟩
      · intro j _
        rw [hwork, Register.run_nil]
      · intro p _
        rw [hwork]
        rfl
  | succ n ih =>
      obtain ⟨cmds, cmd, hwaiting⟩ : ∃ cmds cmd, c.io.msgQueue.waiting = cmds ++ [cmd] := by
        have hne : c.io.msgQueue.waiting ≠ [] := by
          intro hnil
          rw [hnil] at hn
          cases hn
        exact ⟨_, _, (List.dropLast_append_getLast hne).symm⟩
      obtain ⟨block, hblock, k, onoff, hrequest, hk⟩ := hcmds cmd (by simp [hwaiting])
      obtain ⟨htodo', hwaiting', hseen, hasked, hrelay⟩ :=
        exec_round hc htodo hwaiting hblock hrequest
      have hwf := wellFormed_exec hc [.getMsgQueue, .basicControlsTask]
      have hwork : c.work = block ::
          (Transition.exec step c [.getMsgQueue, .basicControlsTask]).work := by
        rw [work_of_waiting htodo hwaiting, hblock, work, htodo', IoState.waitingBlocks, hwaiting']
        rfl
      have hlength : cmds.length = n := by
        rw [hwaiting, List.length_append, List.length_singleton] at hn
        exact Nat.succ.inj hn
      have hrest := ih hwf htodo' (by rw [hwaiting', hlength])
        (fun cmd hcmd => hcmds cmd (by simp [hwaiting, hwaiting' ▸ hcmd]))
      have hrounds : Transition.exec step c (rounds (n + 1)) = Transition.exec step
          (Transition.exec step c [.getMsgQueue, .basicControlsTask]) (rounds n) := rfl
      rw [hrounds]
      refine ⟨hrest.work, hrest.seen.trans hseen, ?_, ?_, ?_⟩
      · intro j hj
        rw [hrest.asked j hj, hwork, Register.run_cons, IoState.asked, hasked,
          Banks.bit_assign _ (Nat.lt_trans hk (by decide)) hj, asks, hrequest, Option.bind_some]
        by_cases hjk : j = k
        · rw [if_pos hjk, if_pos hjk.symm, Option.getD_some]
        · rw [if_neg hjk, if_neg (Ne.symm hjk), Option.getD_none]
          rfl
      · intro bank hb
        have hkb : (realBanks k).bank = 0 := by rw [realBanks_of_lt k (Nat.lt_succ_of_lt hk)]
        rw [hrest.above bank hb, hasked, Banks.assign, hkb, Function.update_of_ne hb]
      · intro p hp
        rw [hrest.relay p hp, hrelay p hp, hwork]
        rfl

/-! ## Nothing left -/

/-- Nothing is left to execute, and no request is pending. -/
structure Idle (c : Controller) : Prop where
  work : c.work = []
  inputs : ∀ bank < 6, c.io.fakeInportstatus2 bank = c.io.fakeInportstatus1 bank

theorem Idle.not_pending (h : Idle c) {k : ℕ} (hk : k < 40) : ¬ c.io.Pending k := by
  rw [IoState.Pending, IoState.asked, IoState.seen, Banks.bit, Banks.bit,
    h.inputs _ (realBanks_bank_lt k hk), not_not]

/-- A poll of the first bank leaves nothing pending in it. -/
theorem idle_poll (hc : c.WellFormed db) (hclean : c.io.Clean) (hwork : c.work = [])
    (habove : ∀ bank < 6, bank ≠ 0 → c.io.fakeInportstatus2 bank = c.io.fakeInportstatus1 bank) :
    Idle (c.step (.monitorFakeInputTask 0)) := by
  have hstep : (c.step (.monitorFakeInputTask 0)).io = c.io.monitorFakeInputTask 0 := rfl
  refine ⟨?_, ?_⟩
  · cases workStep c (e := .monitorFakeInputTask 0) trivial with
    | kept hno hkept => exact hkept.trans hwork
    | executed block hex hexec => cases hex.1
  · intro bank hb
    rw [hstep]
    cases hedge : c.io.pollEdge 0 with
    | none =>
        rw [IoState.monitorFakeInputTask_of_none hedge]
        by_cases hzero : bank = 0
        · subst hzero
          exact (IoState.decodeChange_eq_none_iff 0 (hclean.mask_le 0)).mp hedge
        · exact habove bank hb hzero
    | some edge =>
        obtain ⟨hasked, hseen⟩ := IoState.shadow_monitorFakeInputTask hc.io (by decide) hedge
        rw [hasked, hseen]
        by_cases hzero : bank = 0
        · subst hzero
          rw [Function.update_self, Function.update_self]
        · rw [Function.update_of_ne hzero, Function.update_of_ne hzero]
          exact habove bank hb hzero

end Controller

end TruckControl
