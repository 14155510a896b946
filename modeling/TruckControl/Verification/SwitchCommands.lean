import TruckControl.Model.Odata
import TruckControl.Verification.Poll

/-!
# The commands that work like a switch

`ON_FAN` and its kind do not write an output. They ask for the input of a switch, and
what the outputs then do depends on what the poll notices.
-/

namespace TruckControl

open InputType OutputType

/-- The input and the level of a command that works like a switch. -/
def switchCommand : CmdType → Option (ℕ × Bool)
  | .onFan => some (coolingfanInput, true)
  | .offFan => some (coolingfanInput, false)
  | .onLights => some (headlampInput, true)
  | .offLights => some (headlampInput, false)
  | .onBrights => some (brightsInput, true)
  | .offBrights => some (brightsInput, false)
  | .onRunningLights => some (runningLightsInput, true)
  | .offRunningLights => some (runningLightsInput, false)
  | _ => none

theorem basicControls_switchCommand {cmd : CmdType} {k : ℕ} {onoff : Bool}
    (h : switchCommand cmd = some (k, onoff)) :
    k < 7 ∧ ∃ outputs, basicControls cmd.toByte = [.requestInput k onoff outputs] := by
  cases cmd <;> simp only [switchCommand, reduceCtorEq, Option.some.injEq, Prod.mk.injEq] at h
  all_goals
    obtain ⟨rfl, rfl⟩ := h
    simp only [basicControls, CmdType.ofByte_toByte]
    exact ⟨by decide, _, rfl⟩

namespace IoState

variable {db : Database} {s : IoState}

/-! ## What the poll notices -/

/-- A request for an input at this level will be the change that the poll answers: it is
new, and no higher input of the bank is pending. -/
def Noticed (s : IoState) (k : ℕ) (onoff : Bool) : Prop :=
  s.seen k ≠ onoff ∧ ∀ j < 7, k < j → ¬ s.Pending j

/-- The poll answers it as it was asked: an ON only if nothing else is pending to OFF. -/
def Answered (s : IoState) (k : ℕ) (onoff : Bool) : Prop :=
  s.Noticed k onoff ∧ (onoff = true → ∀ j < 7, j ≠ k → s.Pending j → s.asked j = true)

instance (s : IoState) (k : ℕ) (onoff : Bool) : Decidable (s.Noticed k onoff) :=
  inferInstanceAs (Decidable (_ ∧ _))

instance (s : IoState) (k : ℕ) (onoff : Bool) : Decidable (s.Answered k onoff) :=
  inferInstanceAs (Decidable (_ ∧ _))

theorem pollEdge_of_noticed {t : IoState} (hclean : t.Clean) {k : ℕ} {onoff : Bool} (hk : k < 7)
    (hseen : ∀ j < 7, t.seen j = s.seen j)
    (hasked : ∀ j < 7, t.asked j = if j = k then onoff else s.asked j)
    (h : s.Noticed k onoff) :
    ∃ answer, t.pollEdge 0 = some (k, answer) ∧ (answer = onoff ↔ s.Answered k onoff) := by
  obtain ⟨hnew, habove⟩ := h
  have hpend (j : ℕ) (hj : j < 7) (hjk : j ≠ k) : t.Pending j ↔ s.Pending j := by
    rw [Pending, Pending, hseen j hj, hasked j hj, if_neg hjk]
  have hpendk : t.Pending k := by
    rw [Pending, hseen k hk, hasked k hk, if_pos rfl]
    exact Ne.symm hnew
  have habove' (j : ℕ) (hj : j < 7) (hlt : k < j) : ¬ t.Pending j := by
    rw [hpend j hj (Nat.ne_of_gt hlt)]
    exact habove j hj hlt
  obtain ⟨answer, hanswer⟩ : ∃ answer : Bool,
      answer = true ↔ ∀ j < 7, t.Pending j → t.asked j = true := by
    by_cases hall : ∀ j < 7, t.Pending j → t.asked j = true
    · exact ⟨true, iff_of_true rfl hall⟩
    · exact ⟨false, iff_of_false Bool.false_ne_true hall⟩
  refine ⟨answer, hclean.pollEdge_zero_iff.mpr ⟨hk, hpendk, habove', hanswer⟩, ?_⟩
  have hother (hon : onoff = true) : (∀ j < 7, t.Pending j → t.asked j = true) ↔
      ∀ j < 7, j ≠ k → s.Pending j → s.asked j = true := by
    constructor
    · intro hall j hj hjk hp
      have hone := hall j hj ((hpend j hj hjk).mpr hp)
      rwa [hasked j hj, if_neg hjk] at hone
    · intro hall j hj hp
      rw [hasked j hj]
      by_cases hjk : j = k
      · rw [if_pos hjk, hon]
      · rw [if_neg hjk]
        exact hall j hj hjk ((hpend j hj hjk).mp hp)
  cases honoff : onoff with
  | false =>
      have hno : ¬ ∀ j < 7, t.Pending j → t.asked j = true := by
        intro hall
        have hone := hall k hk hpendk
        rw [hasked k hk, if_pos rfl, honoff] at hone
        cases hone
      have hoff : answer = false := Bool.eq_false_iff.mpr fun hon => hno (hanswer.mp hon)
      rw [honoff] at hnew
      exact iff_of_true hoff ⟨⟨hnew, habove⟩, fun hon => by cases hon⟩
  | true =>
      rw [honoff] at hnew
      rw [hanswer, hother honoff]
      exact ⟨fun hall => ⟨⟨hnew, habove⟩, fun _ => hall⟩, fun h => h.2 rfl⟩

theorem pollEdge_of_not_noticed {t : IoState} (hclean : t.Clean) {k : ℕ} {onoff : Bool}
    (hseen : ∀ j < 7, t.seen j = s.seen j)
    (hasked : ∀ j < 7, t.asked j = if j = k then onoff else s.asked j)
    (h : ¬ s.Noticed k onoff) (answer : Bool) : t.pollEdge 0 ≠ some (k, answer) := by
  intro hedge
  obtain ⟨hk, hpend, habove, -⟩ := hclean.pollEdge_zero_iff.mp hedge
  apply h
  refine ⟨?_, ?_⟩
  · rw [Pending, hseen k hk, hasked k hk, if_pos rfl] at hpend
    exact Ne.symm hpend
  · intro j hj hlt hp
    apply habove j hj hlt
    rwa [Pending, hseen j hj, hasked j hj, if_neg (Nat.ne_of_gt hlt)]

end IoState

namespace Controller

variable {db : Database}

/-- `monitor_fake_input_task` passes over the banks once. -/
def pollBanks : List Event := (List.range 6).map .monitorFakeInputTask

/-- Polls of the other banks do not reach what the first eight inputs drive. -/
theorem relay_poll_pos {c : Controller} (hc : c.WellFormed db) (hclean : c.io.Clean) {bank p : ℕ}
    (hb : 0 < bank) (hp : p < 40) (hin : db.input p < 8) :
    (c.step (.monitorFakeInputTask bank)).io.relay p = c.io.relay p := by
  have hedge (onoff : Bool) :
      c.edge (.monitorFakeInputTask bank) ≠ some (db.input p, onoff) := by
    intro h
    have hpoll := (poll_of_edge hclean (by simp) hin h).1
    rw [Event.monitorFakeInputTask.injEq] at hpoll
    omega
  rw [relay_step hc _ hp, action, IoState.edgeAction_eq_keep hedge, Relay.act]

theorem relay_polls_pos (banks : List ℕ) (hbanks : ∀ bank ∈ banks, 0 < bank) {c : Controller}
    (hc : c.WellFormed db) (hclean : c.io.Clean) {p : ℕ} (hp : p < 40) (hin : db.input p < 8) :
    (Transition.exec step c (banks.map .monitorFakeInputTask)).io.relay p = c.io.relay p := by
  induction banks generalizing c with
  | nil => rfl
  | cons bank banks ih =>
      have hothers := ih (fun b hb => hbanks b (List.mem_cons_of_mem bank hb))
        (wellFormed_step hc (.monitorFakeInputTask bank)) (clean_step hc hclean _)
      rw [List.map_cons, Transition.exec_cons, hothers,
        relay_poll_pos hc hclean (hbanks bank List.mem_cons_self) hp hin]

/-- After the request itself the shadow bits are as asked, and the relays as before. -/
theorem step_requestInput {c : Controller} (hc : c.WellFormed db) {k : ℕ} {onoff : Bool}
    {outputs : List ℕ} (hk : k < 7) (htodo : c.todo = [.requestInput k onoff outputs]) :
    (∀ j < 7, (c.step .basicControlsTask).io.seen j = c.io.seen j) ∧
      (∀ j < 7, (c.step .basicControlsTask).io.asked j =
        if j = k then onoff else c.io.asked j) ∧
      ∀ p < 40, (c.step .basicControlsTask).io.hwBit p = c.io.hwBit p := by
  have hissued : (Block.requestInput k onoff outputs).Issued :=
    hc.todo _ (htodo ▸ List.mem_cons_self)
  obtain ⟨h1, h2⟩ := IoState.shadow_execBlock hc.io hissued.valid
  have hio : (c.step .basicControlsTask).io =
      c.io.execBlock (.requestInput k onoff outputs) := by
    rw [step, htodo]
  refine ⟨?_, ?_, ?_⟩
  · intro j _
    rw [hio, IoState.seen, IoState.seen, h1]
  · intro j hj
    rw [hio, IoState.asked, h2]
    exact Banks.bit_assign _ (by omega) (by omega) onoff
  · intro p hp
    have hrelay := (IoState.acts_execBlock hc.io hissued.valid).relay_eq p hp
    rw [hio]
    change (IoState.relay _ p).hw = (c.io.relay p).hw
    rw [hrelay, Block.action]
    split_ifs <;> rfl

theorem hwBit_switchCommand {c : Controller} (hc : Reachable db c) {k : ℕ} {onoff : Bool}
    {outputs : List ℕ} (hk : k < 7) (htodo : c.todo = [.requestInput k onoff outputs])
    (htype : ∀ p < 40, db.input p = k →
      (db.records p).type = 0#8 ∧ (db.records p).polarity = 0#8) :
    (c.io.Noticed k onoff → ∃ answer, (answer = onoff ↔ c.io.Answered k onoff) ∧
      ∀ p < 40, db.input p = k →
        (Transition.exec step c (.basicControlsTask :: pollBanks)).io.hwBit p = answer) ∧
    (¬ c.io.Noticed k onoff → ∀ p < 40, db.input p = k →
      (Transition.exec step c (.basicControlsTask :: pollBanks)).io.hwBit p = c.io.hwBit p) := by
  obtain ⟨hseen, hasked, hhw⟩ := step_requestInput hc.wellFormed hk htodo
  have hwf := wellFormed_step hc.wellFormed .basicControlsTask
  have hclean := clean_step hc.wellFormed hc.clean .basicControlsTask
  have hbanks : pollBanks = .monitorFakeInputTask 0 ::
      [1, 2, 3, 4, 5].map .monitorFakeInputTask := rfl
  -- the polls of the other banks do not matter
  have hfinal (p : ℕ) (hp : p < 40) (hin : db.input p = k) :
      (Transition.exec step c (.basicControlsTask :: pollBanks)).io.hwBit p =
        (((c.step .basicControlsTask).step (.monitorFakeInputTask 0)).io.relay p).hw := by
    have hpos := relay_polls_pos [1, 2, 3, 4, 5] (by decide)
      (wellFormed_step hwf (.monitorFakeInputTask 0)) (clean_step hwf hclean _) hp (by omega)
    rw [hbanks, Transition.exec_cons, Transition.exec_cons, ← hpos]
    rfl
  refine ⟨?_, ?_⟩
  · intro hnoticed
    obtain ⟨answer, hedge, hanswer⟩ :=
      IoState.pollEdge_of_noticed hclean hk hseen hasked hnoticed
    refine ⟨answer, hanswer, ?_⟩
    intro p hp hin
    have hset : (c.step .basicControlsTask).edge (.monitorFakeInputTask 0) =
        some (db.input p, answer) := by
      rw [hin, ← hedge]
      rfl
    obtain ⟨-, -, hpol, htypeEq, -⟩ := Relay.setup_eq_of_eq (hwf.setup hp)
    rw [hfinal p hp hin, relay_step hwf _ hp, action_of_edge hset, Relay.act, Relay.setOutput]
    simp [hpol, htypeEq, htype p hp hin]
  · intro hnoticed p hp hin
    have hnone (answer : Bool) : (c.step .basicControlsTask).edge (.monitorFakeInputTask 0) ≠
        some (db.input p, answer) := by
      rw [hin]
      exact IoState.pollEdge_of_not_noticed hclean hseen hasked hnoticed answer
    rw [hfinal p hp hin, relay_step hwf _ hp, action, IoState.edgeAction_eq_keep hnone, Relay.act]
    exact hhw p hp

/-- The command and the polls do what the command says exactly when the poll answers the
request, or does not notice it and the outputs are already so. -/
theorem switchCommand_obeyed_iff (db : Database) (c : Controller) (hc : Reachable db c)
    (cmd : CmdType) (k : ℕ) (onoff : Bool) (hcmd : switchCommand cmd = some (k, onoff))
    (htodo : c.todo = basicControls cmd.toByte)
    (htype : ∀ p < 40, db.input p = k →
      (db.records p).type = 0#8 ∧ (db.records p).polarity = 0#8) :
    (∀ p < 40, db.input p = k →
        (Transition.exec step c (.basicControlsTask :: pollBanks)).io.hwBit p = onoff) ↔
      c.io.Answered k onoff ∨
        ∀ p < 40, db.input p = k → ¬ c.io.Noticed k onoff ∧ c.io.hwBit p = onoff := by
  obtain ⟨hk, outputs, hblock⟩ := basicControls_switchCommand hcmd
  obtain ⟨hnoticed, hmissed⟩ := hwBit_switchCommand hc hk (htodo.trans hblock) htype
  by_cases hn : c.io.Noticed k onoff
  · obtain ⟨answer, hanswer, hhw⟩ := hnoticed hn
    constructor
    · intro hall
      by_cases hdriven : ∃ p < 40, db.input p = k
      · obtain ⟨p, hp, hin⟩ := hdriven
        exact .inl (hanswer.mp ((hhw p hp hin).symm.trans (hall p hp hin)))
      · exact .inr fun p hp hin => absurd ⟨p, hp, hin⟩ hdriven
    · intro hor p hp hin
      rcases hor with h | h
      · rw [hhw p hp hin, hanswer.mpr h]
      · exact absurd hn (h p hp hin).1
  · constructor
    · intro hall
      exact .inr fun p hp hin => ⟨hn, (hmissed hn p hp hin).symm.trans (hall p hp hin)⟩
    · intro hor p hp hin
      rcases hor with h | h
      · exact absurd h.1 hn
      · rw [hmissed hn p hp hin]
        exact (h p hp hin).2

/-- `ON_FAN` as the first command. -/
theorem switchCommand_obeyed_odata :
    let c := Transition.exec step (boot odata (fun _ => 0#8) 0)
      [.addMsgQueue CmdType.onFan.toByte, .getMsgQueue]
    ∀ p < 40, odata.input p = coolingfanInput →
      (Transition.exec step c (.basicControlsTask :: pollBanks)).io.hwBit p = true := by
  intro c
  have hc : Reachable odata c := (Reachable.boot odata _ _).after _
  have htodo : c.todo = basicControls CmdType.onFan.toByte := by decide +kernel
  exact (switchCommand_obeyed_iff odata c hc .onFan coolingfanInput true rfl htodo
    (by decide)).mpr (.inl (by decide +kernel))

/-- `ON_FAN`, then the fan switch on and off, and `ON_FAN` again: the fan stays off. -/
theorem switchCommand_ignored_odata :
    let c := Transition.exec step (boot odata (fun _ => 0#8) 0)
      ([.addMsgQueue CmdType.onFan.toByte, .getMsgQueue, .basicControlsTask] ++ pollBanks ++
        [.monitorInputTask 0 0x40#8, .monitorInputTask 0 0x00#8,
          .addMsgQueue CmdType.onFan.toByte, .getMsgQueue])
    c.todo = basicControls CmdType.onFan.toByte ∧ odata.input coolingfan = coolingfanInput ∧
      (Transition.exec step c (.basicControlsTask :: pollBanks)).io.hwBit coolingfan = false := by
  simp only [boot, initIps_odata]
  decide +kernel

end Controller

end TruckControl
