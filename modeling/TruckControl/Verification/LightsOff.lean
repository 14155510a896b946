import TruckControl.Verification.Drain
import TruckControl.Verification.LightsCountdown
import TruckControl.Verification.Shutdown

/-!
# The lights after the countdown

The headlamps are switched off by commands of their own. The running lights have none:
they go off by the poll of their requested input, which finds an edge only if it has seen
that input as on.
-/

namespace TruckControl

open InputType OutputType

/-! ## The lights -/

def lights : List ℕ := [lheadlamp, rheadlamp, runninglights]

/-- The database drives the lights as `odata` does. -/
structure LightWiring (db : Database) : Prop where
  type : ∀ p ∈ lights, (db.records p).type = 0#8
  polarity : ∀ p ∈ lights, (db.records p).polarity ≠ 1#8
  headlamps : db.input lheadlamp = headlampInput ∧ db.input rheadlamp = headlampInput
  runninglights : db.input runninglights = runningLightsInput
  /-- The scan of the port with the number of the running lights' input clears that input
  when the port expires. -/
  accon : (db.records accon).type ≠ 2#8 ∧ (db.records accon).type ≠ 3#8

theorem lights_lt : ∀ p ∈ lights, p < 40 := by decide

theorem LightWiring.input {db : Database} (hdb : LightWiring db) {p : ℕ} (hp : p ∈ lights) :
    db.input p = headlampInput ∨ db.input p = runningLightsInput := by
  simp only [lights, List.mem_cons, List.not_mem_nil, or_false] at hp
  rcases hp with rfl | rfl | rfl
  · exact .inl hdb.headlamps.1
  · exact .inl hdb.headlamps.2
  · exact .inr hdb.runninglights

/-- The blocks of commands that switch a light on, or ask for it. -/
def lightOn : List Block :=
  [.requestInput headlampInput true [lheadlamp, rheadlamp],
    .requestInput runningLightsInput true [runninglights],
    .setOutput lheadlamp true, .setOutput rheadlamp true]

/-- `OFF_RUNNING_LIGHTS`. -/
abbrev runningLightsOff : Block := .requestInput runningLightsInput false [runninglights]

/-- `OFF_LIGHTS`. -/
abbrev headlampsOff : Block := .requestInput headlampInput false [lheadlamp, rheadlamp]

/-- What the lights get of the five commands, in the order in which it is executed. -/
def lightsOff : List Block :=
  [runningLightsOff, headlampsOff, .setOutput rheadlamp false, .setOutput lheadlamp false]

theorem issued_lightRequest {block : Block} (h : block.Issued) (hno : block ∉ lightOn) {k : ℕ}
    (hk : k = headlampInput ∨ k = runningLightsInput) : block.request ≠ some (k, true) := by
  have hall : ∀ cmd, ∀ block ∈ basicControls cmd, block ∈ lightOn ∨
      block.request ≠ some (headlampInput, true) ∧
        block.request ≠ some (runningLightsInput, true) := by
    decide +kernel
  have hrequest := (h.of_forall hall).resolve_left hno
  rcases hk with rfl | rfl
  · exact hrequest.1
  · exact hrequest.2

theorem issued_light {block : Block} (h : block.Issued) (hno : block ∉ lightOn) {p : ℕ}
    (hp : p ∈ lights) :
    block.action p ∈ [Relay.Action.keep, .mark true, .mark false, .set false] := by
  have hall : ∀ cmd, ∀ block ∈ basicControls cmd, block ∈ lightOn ∨ ∀ p ∈ lights,
      block.action p ∈ [Relay.Action.keep, .mark true, .mark false, .set false] := by
    decide +kernel
  exact (h.of_forall hall).resolve_left hno p hp

namespace Relay

variable {r : Relay}

/-- An OFF edge switches a plain output off. -/
theorem hw_setOutput_off (htype : r.datap.type = 0#8) (hpolarity : r.datap.polarity ≠ 1#8) :
    (r.setOutput false).hw = false := by
  simp [setOutput, htype, hpolarity]

theorem timerPort_of_plain (htype : r.datap.type = 0#8) : r.timerPort = r := by
  have hcount : ¬ r.Counting := by simp [Counting, htype]
  exact if_neg hcount

end Relay

namespace Controller

variable {db : Database} {c : Controller} {e : Event}

/-! ## What is left to execute -/

theorem waitingBlocks_sublist {s t : IoState} {cmds : List UCHAR}
    (h : t.msgQueue.waiting = s.msgQueue.waiting ++ cmds) :
    s.waitingBlocks.Sublist t.waitingBlocks := by
  rw [IoState.waitingBlocks, IoState.waitingBlocks, h, List.reverse_append, List.flatMap_append]
  exact List.sublist_append_right _ _

/-- Nothing that is left to execute is ever dropped: an event executes the first block, or
none. -/
theorem work_step (c : Controller) (e : Event) :
    c.work.Sublist (c.step e).work ∨ ∃ block, Executes block c e ∧ ∃ work,
      c.work = block :: work ∧ work.Sublist (c.step e).work := by
  by_cases hadd : ∀ cmd, e ≠ .addMsgQueue cmd
  · cases c.queueStep hadd with
    | own htodo hadds =>
        obtain ⟨cmds, -, hwaiting⟩ := hadds.waiting
        refine .inl ?_
        rw [work, work, htodo]
        exact (List.Sublist.refl _).append (waitingBlocks_sublist hwaiting)
    | got cmd htodo hwaiting hstep hengine =>
        refine .inl ?_
        rw [work, work, htodo, hstep, IoState.waitingBlocks, hwaiting, List.reverse_concat,
          List.flatMap_cons]
        exact List.Sublist.refl _
    | executed block hexec hhead hengine hwaiting =>
        obtain ⟨cmds, -, hwaiting⟩ := hwaiting
        refine .inr ⟨block, hexec, (c.step e).todo ++ c.io.waitingBlocks, ?_, ?_⟩
        · rw [work, hhead, List.cons_append]
        · exact (List.Sublist.refl _).append (waitingBlocks_sublist hwaiting)
  · simp only [not_forall, not_not] at hadd
    obtain ⟨cmd, rfl⟩ := hadd
    refine .inl ((List.Sublist.refl _).append ?_)
    by_cases hroom : c.io.msgQueue.ptr < msgQueueSize
    · exact waitingBlocks_sublist (c.io.msgQueue.waiting_addMsgQueue cmd hroom)
    · have hkeep : (c.step (.addMsgQueue cmd)).io.msgQueue = c.io.msgQueue :=
        c.io.msgQueue.addMsgQueue_of_full cmd hroom
      rw [IoState.waitingBlocks_congr hkeep]

/-! ## The condition -/

/-- The running lights are on, and their input has been asked OFF but not been polled. -/
def RunningLightsDue (s : IoState) : Prop :=
  s.hwBit runninglights = true ∧ s.asked runningLightsInput = false ∧
    s.Pending runningLightsInput

instance (s : IoState) : Decidable (RunningLightsDue s) := inferInstanceAs (Decidable (_ ∧ _))

/-- Nothing switches a light on; `OFF_RUNNING_LIGHTS` finds the running lights off, or
switched on by a poll; and no higher input is pending in the poll that has to take it. -/
def LightsTaken (db : Database) (c : Controller) : Event → Prop
  | .basicControlsTask =>
      ∀ block ∈ c.todo.head?, block ∉ lightOn ∧ (block = runningLightsOff →
        c.io.hwBit runninglights = true → c.io.seen runningLightsInput = true)
  | .monitorInputTask bank result =>
      ∀ edge ∈ c.edge (.monitorInputTask bank result), edge.2 = true →
        ∀ p ∈ lights, db.input p ≠ edge.1
  | .monitorFakeInputTask bank =>
      bank = 0 → RunningLightsDue c.io →
        ∀ j < 7, runningLightsInput < j → ¬ c.io.Pending j
  | _ => True

instance (db : Database) (c : Controller) : DecidablePred (LightsTaken db c)
  | .basicControlsTask =>
      inferInstanceAs (Decidable (∀ block ∈ c.todo.head?, block ∉ lightOn ∧
        (block = runningLightsOff →
          c.io.hwBit runninglights = true → c.io.seen runningLightsInput = true)))
  | .monitorInputTask bank result =>
      inferInstanceAs (Decidable (∀ edge ∈ c.edge (.monitorInputTask bank result),
        edge.2 = true → ∀ p ∈ lights, db.input p ≠ edge.1))
  | .monitorFakeInputTask bank =>
      inferInstanceAs (Decidable (bank = 0 → RunningLightsDue c.io →
        ∀ j < 7, runningLightsInput < j → ¬ c.io.Pending j))
  | .addMsgQueue _ | .getMsgQueue | .timerTask | .lightsOnDelay _ => .isTrue trivial

theorem LightsTaken.block (hok : LightsTaken db c e) {block : Block} (hex : Executes block c e) :
    block ∉ lightOn ∧ (block = runningLightsOff →
      c.io.hwBit runninglights = true → c.io.seen runningLightsInput = true) := by
  obtain ⟨rfl, hhead⟩ := hex
  exact hok block hhead

/-! ## One event -/

/-- An input that is asked OFF stays so. -/
theorem asked_step (hc : c.WellFormed db) (hclean : c.io.Clean) (hok : LightsTaken db c e) {k : ℕ}
    (hk : k = headlampInput ∨ k = runningLightsInput) (hasked : c.io.asked k = false) :
    (c.step e).io.asked k = false := by
  have hk7 : k < 7 := by rcases hk with rfl | rfl <;> decide
  cases shadowStep hc e (Nat.lt_succ_of_lt hk7) with
  | unchanged h1 h2 => exact h2.trans hasked
  | requested block onoff hexec hrequest h1 h2 =>
      cases onoff with
      | false => exact h2
      | true => exact absurd hrequest (issued_lightRequest (hc.issued hexec) (hok.block hexec).1 hk)
  | answered j onoff hpoll hedge hpending h1 h2 =>
      have honoff := (hclean.pollEdge_zero_iff.mp hedge).2.2.2
      rw [h2, ← Bool.not_eq_true, honoff]
      intro hall
      rw [hall k hk7 hpending] at hasked
      cases hasked
  | expired htick hexpires h1 h2 => exact h2
  | takenBack htick hinput h1 h2 => exact h2

/-- No ON edge comes from an input that is asked OFF. -/
theorem edge_of_asked (hclean : c.io.Clean) (hok : LightsTaken db c e) {p : ℕ} (hp : p ∈ lights)
    (hk : db.input p < 7) (hasked : c.io.asked (db.input p) = false) :
    c.edge e ≠ some (db.input p, true) := by
  intro hedge
  by_cases hswitch : ∀ bank result, e ≠ .monitorInputTask bank result
  · obtain ⟨-, hpoll⟩ := poll_of_edge hclean hswitch (Nat.lt_succ_of_lt hk) hedge
    obtain ⟨-, hpending, -, honoff⟩ := hclean.pollEdge_zero_iff.mp hpoll
    rw [honoff.mp rfl _ hk hpending] at hasked
    cases hasked
  · simp only [not_forall, not_not] at hswitch
    obtain ⟨bank, result, rfl⟩ := hswitch
    exact hok _ hedge rfl p hp rfl

theorem light_setup (hdb : LightWiring db) (hc : c.WellFormed db) {p : ℕ} (hp : p ∈ lights) :
    (c.io.relay p).datap.type = 0#8 ∧ (c.io.relay p).datap.polarity ≠ 1#8 := by
  have hsetup := Relay.setup_eq_of_eq (hc.setup (lights_lt p hp))
  rw [hsetup.2.2.2.1, hsetup.2.2.1]
  exact ⟨hdb.type p hp, hdb.polarity p hp⟩

/-- A light whose input is asked OFF is not switched on. -/
theorem hwBit_step (hdb : LightWiring db) (hc : c.WellFormed db) (hclean : c.io.Clean)
    (hok : LightsTaken db c e) {p : ℕ} (hp : p ∈ lights) (hasked : c.io.asked (db.input p) = false)
    (hoff : c.io.hwBit p = false) : (c.step e).io.hwBit p = false := by
  obtain ⟨htype, hpolarity⟩ := light_setup hdb hc hp
  have hset : ((c.io.relay p).setOutput false).hw = false :=
    Relay.hw_setOutput_off htype hpolarity
  have hrelay : (c.step e).io.hwBit p = ((c.io.relay p).act (c.action db e p)).hw :=
    congrArg Relay.hw (relay_step hc e (lights_lt p hp))
  rw [hrelay]
  rcases action_cases db c e p with ⟨block, hex, heq⟩ | heq | ⟨onoff, hedge, heq⟩ | ⟨-, -, heq⟩
  · have haction := issued_light (hc.issued hex) (hok.block hex).1 hp
    rw [heq]
    simp only [List.mem_cons, List.not_mem_nil, or_false] at haction
    rcases haction with h | h | h | h
    · rw [h]
      exact hoff
    · rw [h]
      exact hoff
    · rw [h]
      exact hoff
    · rw [h]
      exact hset
  · rw [heq]
    exact hoff
  · have hk : db.input p < 7 := by rcases hdb.input hp with h | h <;> rw [h] <;> decide
    cases onoff with
    | true => exact absurd hedge (edge_of_asked hclean hok hp hk hasked)
    | false =>
        rw [heq]
        exact hset
  · rw [heq, Relay.act, Relay.timerPort_of_plain htype]
    exact hoff

/-- The poll that answers the OFF request of the running lights finds its edge, and switches
them off. -/
theorem poll_of_due (hdb : LightWiring db) (hc : c.WellFormed db) (hclean : c.io.Clean)
    (hok : LightsTaken db c (.monitorFakeInputTask 0)) (hdue : RunningLightsDue c.io) {k : ℕ}
    {onoff : Bool} (hedge : c.io.pollEdge 0 = some (k, onoff)) :
    (c.step (.monitorFakeInputTask 0)).io.hwBit runninglights = false := by
  obtain ⟨hk, hpending, habove, honoff⟩ := hclean.pollEdge_zero_iff.mp hedge
  have hnone := hok rfl hdue
  obtain ⟨-, hasked, hduePending⟩ := hdue
  have hinput : k = runningLightsInput := by
    rcases Nat.lt_trichotomy k runningLightsInput with hlt | heq | hgt
    · exact absurd hduePending (habove _ (by decide) hlt)
    · exact heq
    · exact absurd hpending (hnone k hk hgt)
  have hoff : onoff = false := by
    rw [← Bool.not_eq_true, honoff]
    intro hall
    rw [hall _ (by decide) hduePending] at hasked
    cases hasked
  have hedge' : c.edge (.monitorFakeInputTask 0) = some (db.input runninglights, false) := by
    rw [hdb.runninglights, ← hinput, ← hoff]
    exact hedge
  obtain ⟨htype, hpolarity⟩ := light_setup hdb hc (p := runninglights) (by decide)
  have hrelay := congrArg Relay.hw
    (relay_step hc (.monitorFakeInputTask 0) (p := runninglights) (by decide))
  rw [action_of_edge hedge', Relay.act, Relay.hw_setOutput_off htype hpolarity] at hrelay
  exact hrelay

/-- The running lights' input is asked OFF, and a poll will switch them off if they are on. -/
def RunningLightsSeen (s : IoState) : Prop :=
  s.asked runningLightsInput = false ∧
    (s.hwBit runninglights = true → s.seen runningLightsInput = true)

theorem runningLightsSeen_step (hdb : LightWiring db) (hc : c.WellFormed db)
    (hclean : c.io.Clean) (hok : LightsTaken db c e) (h : RunningLightsSeen c.io) :
    RunningLightsSeen (c.step e).io := by
  obtain ⟨hasked, hseen⟩ := h
  refine ⟨asked_step hc hclean hok (.inr rfl) hasked, ?_⟩
  intro hon
  have hbefore : c.io.hwBit runninglights = true := by
    by_contra hoff
    rw [Bool.not_eq_true] at hoff
    have hasked' : c.io.asked (db.input runninglights) = false := by
      rw [hdb.runninglights]
      exact hasked
    rw [hwBit_step hdb hc hclean hok (by decide) hasked' hoff] at hon
    cases hon
  cases shadowStep hc e (j := runningLightsInput) (by decide) with
  | unchanged h1 h2 => exact h1.trans (hseen hbefore)
  | requested block onoff hexec hrequest h1 h2 => exact h1.trans (hseen hbefore)
  | answered k onoff hpoll hedge hpending h1 h2 =>
      subst hpoll
      rw [poll_of_due hdb hc hclean hok ⟨hbefore, hasked, hpending⟩ hedge] at hon
      cases hon
  | expired htick hexpires h1 h2 =>
      have htype := (Relay.setup_eq_of_eq (hc.setup (p := accon) (by decide))).2.2.2.1
      have hcounting := hexpires.1.1
      rw [htype] at hcounting
      exact absurd hcounting (not_or.mpr hdb.accon)
  | takenBack htick hinput h1 h2 => exact absurd hinput (by decide)

/-! ## The blocks, one after the other -/

/-- What has come of the blocks that are no longer left. -/
structure Taken (left : List Block) (c : Controller) : Prop where
  running : runningLightsOff ∉ left → RunningLightsSeen c.io
  headlamps : headlampsOff ∉ left → c.io.asked headlampInput = false
  lamps : ∀ p ∈ [lheadlamp, rheadlamp], Block.setOutput p false ∉ left → c.io.hwBit p = false

/-- The headlamps' input is asked OFF before the headlamps are switched off. -/
theorem headlampsOff_first {left : List Block} (hleft : left <:+ lightsOff) {p : ℕ}
    (hp : p ∈ [lheadlamp, rheadlamp]) (hno : Block.setOutput p false ∉ left) :
    headlampsOff ∉ left := by
  have hall : ∀ left ∈ lightsOff.tails, ∀ p ∈ [lheadlamp, rheadlamp],
      Block.setOutput p false ∉ left → headlampsOff ∉ left := by decide
  exact hall left ((List.mem_tails _ _).mpr hleft) p hp hno

theorem runningLightsSeen_executes (hc : c.WellFormed db) (hok : LightsTaken db c e)
    (hex : Executes runningLightsOff c e) : RunningLightsSeen (c.step e).io := by
  obtain ⟨hseen, hasked⟩ := shadow_of_request hc hex rfl (j := runningLightsInput) (by decide)
  refine ⟨hasked.trans (if_pos rfl), ?_⟩
  intro hon
  have hrelay := congrArg Relay.hw (relay_step hc e (p := runninglights) (by decide))
  rw [action_of_executes hex] at hrelay
  have hbefore : c.io.hwBit runninglights = true := hrelay.symm.trans hon
  exact hseen.trans ((hok.block hex).2 rfl hbefore)

theorem Taken.step (hdb : LightWiring db) (hc : c.WellFormed db) (hclean : c.io.Clean)
    (hok : LightsTaken db c e) {left left' : List Block} (hleft : left <:+ lightsOff)
    (hleft' : left' = left ∨ ∃ block, Executes block c e ∧ left = block :: left')
    (h : Taken left c) : Taken left' (c.step e) := by
  have hgone {block : Block} (hno : block ∉ left') : block ∉ left ∨ Executes block c e := by
    rcases hleft' with rfl | ⟨first, hex, rfl⟩
    · exact .inl hno
    · by_cases heq : block = first
      · exact .inr (heq ▸ hex)
      · exact .inl (List.not_mem_cons_of_ne_of_not_mem heq hno)
  refine ⟨?_, ?_, ?_⟩
  · intro hno
    rcases hgone hno with hno | hex
    · exact runningLightsSeen_step hdb hc hclean hok (h.running hno)
    · exact runningLightsSeen_executes hc hok hex
  · intro hno
    rcases hgone hno with hno | hex
    · exact asked_step hc hclean hok (.inl rfl) (h.headlamps hno)
    · have hasked := (shadow_of_request hc hex rfl (j := headlampInput) (by decide)).2
      exact hasked.trans (if_pos rfl)
  · intro p hp hno
    have hlight : p ∈ lights := List.mem_append_left [runninglights] hp
    rcases hgone hno with hno | hex
    · have hinput : db.input p = headlampInput := by
        rcases List.mem_pair.mp hp with rfl | rfl
        · exact hdb.headlamps.1
        · exact hdb.headlamps.2
      have hasked : c.io.asked (db.input p) = false := by
        rw [hinput]
        exact h.headlamps (headlampsOff_first hleft hp hno)
      exact hwBit_step hdb hc hclean hok hlight hasked (h.lamps p hp hno)
    · obtain ⟨htype, hpolarity⟩ := light_setup hdb hc hlight
      have hrelay := congrArg Relay.hw (relay_step hc e (lights_lt p hlight))
      have haction : c.action db e p = .set false := by
        rw [action_of_executes hex]
        exact if_pos rfl
      rw [haction, Relay.act, Relay.hw_setOutput_off htype hpolarity] at hrelay
      exact hrelay

/-- Some of the blocks are left to execute, in order, and the others have been taken. -/
def SwitchingOff (c : Controller) : Prop :=
  ∃ left, left <:+ lightsOff ∧ left.Sublist c.work ∧ Taken left c

theorem SwitchingOff.step (hdb : LightWiring db) (hc : c.WellFormed db) (hclean : c.io.Clean)
    (hok : LightsTaken db c e) (h : SwitchingOff c) : SwitchingOff (c.step e) := by
  obtain ⟨left, hleft, hwork, htaken⟩ := h
  rcases work_step c e with hkept | ⟨block, hex, work, heq, hkept⟩
  · exact ⟨left, hleft, hwork.trans hkept, htaken.step hdb hc hclean hok hleft (.inl rfl)⟩
  · rw [heq] at hwork
    rcases List.sublist_cons_iff.mp hwork with hsame | ⟨rest, rfl, hrest⟩
    · exact ⟨left, hleft, hsame.trans hkept, htaken.step hdb hc hclean hok hleft (.inl rfl)⟩
    · exact ⟨rest, (List.suffix_cons block rest).trans hleft, hrest.trans hkept,
        htaken.step hdb hc hclean hok hleft (.inr ⟨block, hex, rfl⟩)⟩

theorem switchingOff_exec (hdb : LightWiring db) (hc : c.WellFormed db) (hclean : c.io.Clean)
    (h : SwitchingOff c) {es : List Event}
    (hes : Transition.Meets Controller.step (LightsTaken db) c es) :
    SwitchingOff (Transition.exec Controller.step c es) := by
  induction es generalizing c with
  | nil => exact h
  | cons e es ih =>
      obtain ⟨hok, hes⟩ := hes
      exact ih (wellFormed_step hc e) (clean_step hc hclean e) (h.step hdb hc hclean hok) hes

/-- With nothing left to execute or to poll, the lights are off. -/
theorem SwitchingOff.lights_off (h : SwitchingOff c) (hidle : Idle c) :
    ∀ p ∈ lights, c.io.hwBit p = false := by
  obtain ⟨left, -, hwork, htaken⟩ := h
  rw [hidle.work] at hwork
  obtain rfl := List.sublist_nil.mp hwork
  obtain ⟨hasked, hseen⟩ := htaken.running List.not_mem_nil
  have hsettled : c.io.asked runningLightsInput = c.io.seen runningLightsInput :=
    not_not.mp (hidle.not_pending (by decide))
  intro p hp
  rcases List.mem_append.mp (show p ∈ [lheadlamp, rheadlamp] ++ [runninglights] from hp) with
    hp | hp
  · exact htaken.lamps p hp List.not_mem_nil
  · rw [List.mem_singleton.mp hp, ← Bool.not_eq_true]
    intro hon
    rw [← hsettled, hasked] at hseen
    cases hseen hon

/-! ## From `SHUTDOWN` on -/

/-- The tick that ends the countdown puts the blocks on the queue. -/
theorem switchingOff_tick (hoff : c.io.engineRunning = 0) (hlast : c.io.lightsOnCountdown = 1)
    (hroom : c.io.msgQueue.ptr + IoState.lightsOffCommands.length ≤ msgQueueSize) :
    SwitchingOff (c.step .timerTask) := by
  have hwaiting : (c.step .timerTask).io.msgQueue.waiting = c.io.msgQueue.waiting ++
      IoState.lightsOffCommands.map CmdType.toByte := by
    rw [Controller.step, IoState.msgQueue_timerTask_last hoff hlast,
      IoState.waiting_foldl_addMsgQueue _ _ hroom]
  have hblocks : (IoState.lightsOffCommands.map CmdType.toByte).reverse.flatMap basicControls =
      .requestInput coolingfanInput false [coolingfan] :: lightsOff := by decide
  refine ⟨lightsOff, List.suffix_refl _, ?_, ⟨?_, ?_, ?_⟩⟩
  · rw [work, IoState.waitingBlocks, hwaiting, List.reverse_append, List.flatMap_append, hblocks]
    refine List.Sublist.trans ?_ (List.sublist_append_right _ _)
    exact (List.sublist_cons_self _ _).trans (List.sublist_append_left _ _)
  · intro hno
    exact absurd (by decide) hno
  · intro hno
    exact absurd (by decide) hno
  · intro p hp hno
    have hall : ∀ p ∈ [lheadlamp, rheadlamp], Block.setOutput p false ∈ lightsOff := by decide
    exact absurd (hall p hp) hno

/-- The lights are off once the commands of the tick that ends the countdown have been
executed and their requests polled, if they all found room and nothing has kept the running
lights from going off. While the engine runs, no tick asks for lights to go off. -/
theorem lights_off_after_shutdown (db : Database) (hdb : LightWiring db) :
    (∀ c, Reachable db c → c.todo.head? = some .shutdownFuelPump →
      ∀ es₁, Transition.Meets step NotRestarted (c.step .basicControlsTask) es₁ →
        es₁.count .timerTask + 1 = c.io.actualLightsOnDelay →
        (afterShutdown c es₁).io.msgQueue.ptr + IoState.lightsOffCommands.length ≤
          msgQueueSize →
      ∀ es₂, Transition.Meets step (LightsTaken db) ((afterShutdown c es₁).step .timerTask) es₂ →
        Idle (Transition.exec step ((afterShutdown c es₁).step .timerTask) es₂) →
        ∀ p ∈ lights,
          (Transition.exec step ((afterShutdown c es₁).step .timerTask) es₂).io.hwBit p =
            false) ∧
      ∀ c : Controller, c.io.engineRunning = 1 →
        (c.step .timerTask).io.msgQueue = c.io.msgQueue ∨
          (c.step .timerTask).io.msgQueue = [CmdType.onLights, .onRunningLights].foldl
            (fun q cmd => q.addMsgQueue cmd.toByte) c.io.msgQueue := by
  refine ⟨?_, ?_⟩
  · intro c hc hhead es₁ hes₁ hcount hroom es₂ hes₂ hidle
    obtain ⟨hoff, hcountdown⟩ := countdown_afterShutdown hc hhead hes₁
    have hlast : (afterShutdown c es₁).io.lightsOnCountdown = 1 := by
      rw [hcountdown]
      omega
    have hreach := ((hc.after [.basicControlsTask]).after es₁).after [.timerTask]
    have hswitching := switchingOff_tick hoff hlast hroom
    exact (switchingOff_exec hdb hreach.wellFormed hreach.clean hswitching hes₂).lights_off hidle
  · intro c hon
    rw [io_timerTask]
    exact IoState.msgQueue_timerTask_running hon

/-! ## Running lights that stay on -/

/-- Nobody asks for the running lights, and their switch is left alone. -/
def LeavesRunningLights (db : Database) (c : Controller) (e : Event) : Prop :=
  (∀ block, Executes block c e → block.request ≠ some (runningLightsInput, true)) ∧
    ∀ bank result, e = .monitorInputTask bank result →
      ∀ onoff, c.edge e ≠ some (db.input runninglights, onoff)

theorem issued_runninglights {block : Block} (h : block.Issued) :
    block.action runninglights ∈ [Relay.Action.keep, .mark true, .mark false] := by
  have hall : ∀ cmd, ∀ block ∈ basicControls cmd,
      block.action runninglights ∈ [Relay.Action.keep, .mark true, .mark false] := by
    decide +kernel
  exact h.of_forall hall

/-- A poll finds no edge of an input that is not asked for. -/
theorem runningLights_step (hdb : LightWiring db) (hc : c.WellFormed db) (hclean : c.io.Clean)
    (hok : LeavesRunningLights db c e) (hun : Unasked runningLightsInput c)
    (hon : c.io.hwBit runninglights = true) : (c.step e).io.hwBit runninglights = true := by
  have hrelay : (c.step e).io.hwBit runninglights =
      ((c.io.relay runninglights).act (c.action db e runninglights)).hw :=
    congrArg Relay.hw (relay_step hc e (by decide))
  rw [hrelay]
  rcases action_cases db c e runninglights with ⟨block, hex, heq⟩ | heq | ⟨onoff, hedge, heq⟩ |
    ⟨-, -, heq⟩
  · have haction := issued_runninglights (hc.issued hex)
    rw [heq]
    simp only [List.mem_cons, List.not_mem_nil, or_false] at haction
    rcases haction with h | h | h <;> rw [h] <;> exact hon
  · rw [heq]
    exact hon
  · by_cases hswitch : ∀ bank result, e ≠ .monitorInputTask bank result
    · rw [hdb.runninglights] at hedge
      exact absurd hedge (edge_ne_of_settled hclean hswitch (by decide) hun.not_pending onoff)
    · simp only [not_forall, not_not] at hswitch
      obtain ⟨bank, result, he⟩ := hswitch
      exact absurd hedge (hok.2 bank result he onoff)
  · obtain ⟨htype, -⟩ := light_setup hdb hc (p := runninglights) (by decide)
    rw [heq, Relay.act, Relay.timerPort_of_plain htype]
    exact hon

/-- Running lights that `OFF_RUNNING_LIGHTS` finds on, but no poll has seen on, stay on until
they are asked for or their switch is moved. -/
theorem runningLights_stay_on (hdb : LightWiring db) (hc : Reachable db c)
    (hex : Executes runningLightsOff c e) (hon : c.io.hwBit runninglights = true)
    (hseen : c.io.seen runningLightsInput = false) {es : List Event}
    (hes : Transition.Meets step (LeavesRunningLights db) (c.step e) es) :
    (Transition.exec step (c.step e) es).io.hwBit runninglights = true := by
  have hreach : Reachable db (c.step e) := hc.after [e]
  obtain ⟨hseen', hasked⟩ :=
    shadow_of_request hc.wellFormed hex rfl (j := runningLightsInput) (by decide)
  have hun : Unasked runningLightsInput (c.step e) :=
    ⟨hseen'.trans hseen, hasked.trans (if_pos rfl)⟩
  have hstart : (c.step e).io.hwBit runninglights = true := by
    have hrelay := congrArg Relay.hw (relay_step hc.wellFormed e (p := runninglights) (by decide))
    rw [action_of_executes hex] at hrelay
    exact hrelay.trans hon
  have hstep (c : Controller) (e : Event)
      (h : Reachable db c ∧ Unasked runningLightsInput c ∧ c.io.hwBit runninglights = true)
      (hok : LeavesRunningLights db c e) :
      Reachable db (c.step e) ∧ Unasked runningLightsInput (c.step e) ∧
        (c.step e).io.hwBit runninglights = true := by
    obtain ⟨hreach, hun, hon⟩ := h
    exact ⟨hreach.after [e], unasked_step hreach.wellFormed (by decide) hok.1 hun,
      runningLights_step hdb hreach.wellFormed hreach.clean hok hun hon⟩
  have hrun := Transition.inv_exec_of_meets hstep ⟨hreach, hun, hstart⟩ hes
  exact hrun.2.2

theorem lightWiring_odata : LightWiring odata :=
  ⟨by decide, by decide, by decide, by decide, by decide⟩

/-- The client switches the lights on, and shuts down. -/
def lightsByClient : List Event :=
  command CmdType.onLights.toByte ++ [.monitorFakeInputTask 0] ++
    command CmdType.onRunningLights.toByte ++ [.monitorFakeInputTask 0] ++
    command CmdType.shutdown.toByte

/-- The commands of the last tick are executed, and all banks polled. -/
def drained : List Event := rounds 5 ++ (List.range 6).map .monitorFakeInputTask

/-- With a delay of a second, the next tick has them switched off. -/
theorem lights_off_odata :
    let c := Transition.exec step (boot odata (fun _ => 0#8) 1) lightsByClient
    (∀ p ∈ lights, c.io.hwBit p = true) ∧
      ∀ p ∈ lights, (Transition.exec step ((afterShutdown c []).step .timerTask)
        drained).io.hwBit p = false := by
  intro c
  have hc : Reachable odata c := (Reachable.boot odata _ 1).after lightsByClient
  have hidle : Idle (Transition.exec step ((afterShutdown c []).step .timerTask) drained) := by
    refine ⟨?_, ?_⟩ <;> simp only [c, boot, initIps_odata] <;> decide +kernel
  refine ⟨?_, (lights_off_after_shutdown odata lightWiring_odata).1 c hc ?_ [] trivial ?_ ?_
    drained ?_ hidle⟩
  all_goals simp only [c, boot, initIps_odata]
  all_goals decide +kernel

/-- Running lights that were switched on by their switch stay on. -/
theorem lights_stay_on_odata :
    let c := Transition.exec step (boot odata (fun _ => 0#8) 1)
      (.monitorInputTask 0 0x02#8 :: command CmdType.shutdown.toByte)
    let c' := Transition.exec step ((afterShutdown c []).step .timerTask) drained
    c.todo.head? = some .shutdownFuelPump ∧ c.io.actualLightsOnDelay = 1 ∧ Idle c' ∧
      c'.io.hwBit runninglights = true := by
  intro c c'
  refine ⟨?_, ?_, ⟨?_, ?_⟩, ?_⟩
  all_goals simp only [c', c, boot, initIps_odata]
  all_goals decide +kernel

end Controller

end TruckControl
