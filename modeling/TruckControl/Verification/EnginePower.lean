import TruckControl.Model.Odata
import TruckControl.Verification.OwnCommands

/-!
# The engine and its power

`engine_running` stands for an engine with accessories and fuel, but only `START_SEQ` and
`SHUTDOWN` write it. Whatever else moves the two relays has to wait until it is 0.
-/

namespace TruckControl

open InputType OutputType

namespace Relay

variable {r : Relay}

/-- An edge that finds the relay on switches it off. -/
def EdgeOff (r : Relay) (onoff : Bool) : Prop :=
  r.datap.type = 0#8 ∧ onoff = decide (r.datap.polarity = 1#8) ∨
    r.datap.type = 1#8 ∧ r.datap.reset = 0#8 ∧ r.datap.onoff = 1#8 ∨
    r.datap.type = 4#8 ∧ r.datap.reset = 0#8

/-- A scan that finds the relay on switches it off. -/
def ScanOff (r : Relay) : Prop :=
  r.Counting ∧ (r.datap.timeLeft = 1#32 ∨
    r.datap.type = 3#8 ∧ (r.datap.timeDelay - r.datap.timeLeft) % 2#32 = 0#32)

instance (r : Relay) (onoff : Bool) : Decidable (r.EdgeOff onoff) :=
  inferInstanceAs (Decidable (_ ∨ _ ∨ _))

instance (r : Relay) : Decidable r.ScanOff := inferInstanceAs (Decidable (_ ∧ _))

theorem hw_setOutput_iff (hon : r.hw = true) (onoff : Bool) :
    (r.setOutput onoff).hw = true ↔ ¬ r.EdgeOff onoff := by
  rw [setOutput, EdgeOff]
  split_ifs with h0 hpol h1 hr0 hr1 h23 hr0 h4 hr0 hr1
  · simp [h0, hpol]
  · simp [h0, hpol]
  · simp [h1, hr0]
  · simp [h1, hr0, hon]
  · simp [h1, hr0, hon]
  · rcases h23 with h | h <;> simp [h]
  · rcases h23 with h | h <;> simp [h, hon]
  · simp [h4, hr0]
  · simp [h4, hr0, hon]
  · simp [h4, hr0, hon]
  · simp [h0, h1, h4, hon]

theorem hw_timerPort_iff (hon : r.hw = true) : r.timerPort.hw = true ↔ ¬ r.ScanOff := by
  rw [timerPort, ScanOff]
  split_ifs with hcount hlast hblink
  · simp [hcount, hlast]
  · simp [hcount, hlast, hblink]
  · simp [hcount, hlast, hblink, hon]
  · simp [hcount, hon]

/-- The actions that find a relay on and leave it on. -/
theorem hw_act_of_on (hon : r.hw = true) {a : Action}
    (ha : a ∈ [Action.keep, .drive true, .switch true, .start]) : (r.act a).hw = true := by
  simp only [List.mem_cons, List.not_mem_nil, or_false] at ha
  rcases ha with rfl | rfl | rfl | rfl
  · exact hon
  · rw [act]
    split_ifs
    · rfl
    · exact hon
  · rw [act]
    split_ifs
    · rfl
    · exact hon
  · rfl

end Relay

/-- The relays that an engine needs. -/
def powerOutputs : List ℕ := [accon, fuelpump]

/-- The blocks of commands that switch one of them off. -/
def unpowering : List Block := [.acc false, .fuelPump false, .shutdownAcc, .shutdownFuelPump]

/-- All other blocks leave a relay on that is on. -/
theorem issued_power {block : Block} (h : block.Issued) (hno : block ∉ unpowering) {p : ℕ}
    (hp : p ∈ powerOutputs) :
    block.action p ∈ [Relay.Action.keep, .drive true, .switch true, .start] := by
  have hall : ∀ cmd, ∀ block ∈ basicControls cmd, block ∈ unpowering ∨ ∀ p ∈ powerOutputs,
      block.action p ∈ [Relay.Action.keep, .drive true, .switch true, .start] := by
    decide +kernel
  exact (h.of_forall hall).resolve_left hno p hp

namespace Controller

variable {db : Database} {c : Controller} {e : Event}

/-! ## The engine flag -/

theorem engineRunning_executes {block : Block} (hex : Executes block c e) :
    (c.step e).io.engineRunning = block.engine.getD c.io.engineRunning := by
  obtain ⟨rfl, hhead⟩ := hex
  obtain ⟨todo, htodo⟩ := List.head?_eq_some_iff.mp hhead
  rw [step, htodo]
  cases hengine : block.engine with
  | none => exact (c.io.addsOwn_execBlock hengine).engineRunning
  | some n => exact (c.io.execBlock_engine hengine).1

/-- Only a command writes the flag. -/
theorem engineRunning_step (he : e ≠ .basicControlsTask) :
    (c.step e).io.engineRunning = c.io.engineRunning := by
  by_cases hadd : ∀ cmd, e ≠ .addMsgQueue cmd
  · cases c.queueStep hadd with
    | own htodo hadds => exact hadds.engineRunning
    | got cmd htodo hwaiting hstep hengine => exact hengine
    | executed block hexec hhead hengine hwaiting => exact absurd hexec.1 he
  · simp only [not_forall, not_not] at hadd
    obtain ⟨cmd, rfl⟩ := hadd
    rfl

/-- The engine is off half way through `SHUTDOWN`. -/
def HalfShut (c : Controller) : Prop :=
  c.todo.head? = some .shutdownFuelPump → c.io.engineRunning = 0

theorem HalfShut.step (hc : c.WellFormed db) (h : HalfShut c) (e : Event) :
    HalfShut (c.step e) := by
  intro hhead
  rcases todo_shutdownFuelPump hc hhead with hex | ⟨he, htodo⟩
  · exact engineRunning_executes hex
  · rw [htodo] at hhead
    rw [engineRunning_step he]
    exact h hhead

/-! ## The claim of the flag -/

/-- What `engine_running` stands for. -/
def Powered (c : Controller) : Prop :=
  c.io.engineRunning = 1 → c.io.hwBit accon = true ∧ c.io.hwBit fuelpump = true

/-- An edge of the emergency stop, `OFF_ACC` or `OFF_FUEL_PUMP`. -/
def Unpowers (c : Controller) (e : Event) : Prop :=
  Executes (.acc false) c e ∨ Executes (.fuelPump false) c e ∨
    ∃ onoff, c.edge e = some (estopInput, onoff)

/-- The event keeps what the flag stands for, and one that takes the power clears it. -/
def StaysPowered (c : Controller) (e : Event) : Prop :=
  Powered (c.step e) ∧ (Unpowers c e → (c.step e).io.engineRunning = 0)

theorem powered_iff (c : Controller) :
    Powered c ↔ (c.io.engineRunning = 1 → ∀ p ∈ powerOutputs, c.io.hwBit p = true) := by
  simp [Powered, powerOutputs]

/-- While the flag is kept, the relays must be. -/
theorem powered_step_iff (hc : c.WellFormed db)
    (hengine : (c.step e).io.engineRunning = c.io.engineRunning) :
    Powered (c.step e) ↔ (c.io.engineRunning = 1 → ∀ p ∈ powerOutputs,
      ((c.io.relay p).act (c.action db e p)).hw = true) := by
  have hlt : ∀ p ∈ powerOutputs, p < 40 := by decide
  rw [powered_iff, hengine]
  refine forall_congr' fun _ => forall₂_congr fun p hp => ?_
  rw [← relay_step hc e (hlt p hp)]
  exact Iff.rfl

/-! ## The condition -/

/-- The power goes only with the engine off, and the engine comes only with the power. -/
def BlockKeepsPower (s : IoState) : Block → Prop
  | .acc onoff => onoff = false → s.engineRunning = 0
  | .fuelPump onoff => onoff = false → s.engineRunning = 0
  | .startSeqEnable => s.hwBit accon = true ∧ s.hwBit fuelpump = true
  | _ => True

/-- An edge finds the engine off, or is not of the emergency stop and switches no power
relay off. -/
def EdgeKeepsPower (db : Database) (s : IoState) (k : ℕ) (onoff : Bool) : Prop :=
  (k = estopInput → s.engineRunning = 0) ∧
    (s.engineRunning = 1 → ∀ p ∈ powerOutputs, db.input p = k → ¬ (s.relay p).EdgeOff onoff)

def KeepsPower (db : Database) (c : Controller) : Event → Prop
  | .basicControlsTask => ∀ block ∈ c.todo.head?, BlockKeepsPower c.io block
  | .monitorInputTask bank result =>
      ∀ edge ∈ c.edge (.monitorInputTask bank result), EdgeKeepsPower db c.io edge.1 edge.2
  | .monitorFakeInputTask bank =>
      ∀ edge ∈ c.edge (.monitorFakeInputTask bank), EdgeKeepsPower db c.io edge.1 edge.2
  | .timerTask => c.io.engineRunning = 1 → ∀ p ∈ powerOutputs, ¬ (c.io.relay p).ScanOff
  | _ => True

/-! ## One event -/

theorem staysPowered_of_off (hoff : (c.step e).io.engineRunning = 0) : StaysPowered c e := by
  refine ⟨?_, fun _ => hoff⟩
  intro hone
  rw [hoff] at hone
  cases hone

theorem staysPowered_of_unpowers (hun : Unpowers c e)
    (hengine : (c.step e).io.engineRunning = c.io.engineRunning) :
    StaysPowered c e ↔ c.io.engineRunning = 0 := by
  constructor
  · intro h
    rw [← hengine]
    exact h.2 hun
  · intro hzero
    exact staysPowered_of_off (hengine.trans hzero)

theorem staysPowered_of_not_unpowers (hun : ¬ Unpowers c e) :
    StaysPowered c e ↔ Powered (c.step e) :=
  and_iff_left fun h => absurd h hun

theorem unpowers_block {block : Block} (hex : Executes block c e) :
    Unpowers c e ↔ block = .acc false ∨ block = .fuelPump false := by
  have hblock (b : Block) : Executes b c e ↔ block = b := by
    rw [Executes, hex.2, Option.some.injEq]
    exact and_iff_right hex.1
  have hedge : c.edge e = none := by
    rw [hex.1]
    rfl
  rw [Unpowers, hblock, hblock, hedge]
  simp

theorem staysPowered_block (hc : c.WellFormed db) (hhalf : HalfShut c) (hpower : Powered c)
    {block : Block} (hex : Executes block c e) :
    StaysPowered c e ↔ BlockKeepsPower c.io block := by
  have hengine := engineRunning_executes hex
  have hkeep (hnone : block.engine = none) (hno : block ∉ unpowering)
      (hun : ¬ Unpowers c e) : StaysPowered c e := by
    rw [hnone, Option.getD_none] at hengine
    rw [staysPowered_of_not_unpowers hun, powered_step_iff hc hengine]
    intro hon p hp
    rw [action_of_executes hex]
    exact Relay.hw_act_of_on ((powered_iff c).mp hpower hon p hp)
      (issued_power (hc.issued hex) hno hp)
  have hun := unpowers_block hex
  cases block with
  | acc onoff =>
      cases onoff with
      | false =>
          rw [staysPowered_of_unpowers (hun.mpr (.inl rfl)) hengine]
          exact ⟨fun h _ => h, fun h => h rfl⟩
      | true =>
          have hstays := hkeep rfl (by decide) (by simp [hun])
          exact iff_of_true hstays fun h => by cases h
  | fuelPump onoff =>
      cases onoff with
      | false =>
          rw [staysPowered_of_unpowers (hun.mpr (.inr rfl)) hengine]
          exact ⟨fun h _ => h, fun h => h rfl⟩
      | true =>
          have hstays := hkeep rfl (by decide) (by simp [hun])
          exact iff_of_true hstays fun h => by cases h
  | startSeqEnable =>
      have hbit (p : ℕ) (hp : p < 40) : (c.step e).io.hwBit p = c.io.hwBit p := by
        have hrelay := relay_step hc e hp
        rw [action_of_executes hex] at hrelay
        exact congrArg Relay.hw hrelay
      rw [staysPowered_of_not_unpowers (by simp [hun]), Powered, hbit accon (by decide),
        hbit fuelpump (by decide)]
      exact forall_prop_of_true hengine
  | shutdownAcc => exact iff_of_true (staysPowered_of_off hengine) trivial
  | shutdownFuelPump =>
      exact iff_of_true (staysPowered_of_off (hengine.trans (hhalf hex.2))) trivial
  | _ => exact iff_of_true (hkeep rfl (by simp [unpowering]) (by simp [hun])) trivial

/-- An event that brings at most an edge. -/
theorem staysPowered_edge (hc : c.WellFormed db) (hpower : Powered c)
    (he : e ≠ .basicControlsTask) (haction : c.action db e = IoState.edgeAction db (c.edge e)) :
    StaysPowered c e ↔ ∀ edge ∈ c.edge e, EdgeKeepsPower db c.io edge.1 edge.2 := by
  have hengine := engineRunning_step (c := c) he
  have hon := (powered_iff c).mp hpower
  have hno (block : Block) : ¬ Executes block c e := fun hex => he hex.1
  cases hedge : c.edge e with
  | none =>
      have hun : ¬ Unpowers c e := by simp [Unpowers, hno, hedge]
      rw [staysPowered_of_not_unpowers hun, powered_step_iff hc hengine, haction, hedge]
      exact iff_of_true hon (by simp)
  | some edge =>
      obtain ⟨k, onoff⟩ := edge
      have hun : Unpowers c e ↔ k = estopInput := by
        simp only [Unpowers, hno, hedge, false_or, Option.some.injEq, Prod.mk.injEq]
        exact ⟨fun ⟨_, h, _⟩ => h, fun h => ⟨onoff, h, rfl⟩⟩
      have hact (p : ℕ) (hone : c.io.engineRunning = 1) (hp : p ∈ powerOutputs) :
          ((c.io.relay p).act (c.action db e p)).hw = true ↔
            (db.input p = k → ¬ (c.io.relay p).EdgeOff onoff) := by
        rw [haction, hedge, IoState.edgeAction]
        by_cases hin : db.input p = k
        · rw [if_pos hin, forall_prop_of_true hin]
          exact Relay.hw_setOutput_iff (hon hone p hp) onoff
        · rw [if_neg hin]
          exact iff_of_true (hon hone p hp) fun h => absurd h hin
      rw [StaysPowered, powered_step_iff hc hengine, hun, hengine, and_comm]
      simp only [Option.mem_some_iff, forall_eq', EdgeKeepsPower]
      refine and_congr_right fun _ => forall_congr' fun hone => forall₂_congr fun p hp => ?_
      exact hact p hone hp

theorem staysPowered_tick (hc : c.WellFormed db) (hpower : Powered c) :
    StaysPowered c .timerTask ↔ KeepsPower db c .timerTask := by
  have hengine := engineRunning_step (c := c) (e := .timerTask) (by simp)
  have hun : ¬ Unpowers c .timerTask := by simp [Unpowers, Executes, edge]
  have hscan : ∀ p ∈ powerOutputs, p < testoutput27 := by decide
  rw [staysPowered_of_not_unpowers hun, powered_step_iff hc hengine, KeepsPower]
  refine forall_congr' fun hone => forall₂_congr fun p hp => ?_
  have haction : c.action db .timerTask p = .scan := if_pos (hscan p hp)
  rw [haction]
  exact Relay.hw_timerPort_iff ((powered_iff c).mp hpower hone p hp)

theorem staysPowered_iff (hc : c.WellFormed db) (hhalf : HalfShut c) (hpower : Powered c)
    (e : Event) : StaysPowered c e ↔ KeepsPower db c e := by
  have hquiet {e : Event} (he : e ≠ .basicControlsTask)
      (haction : c.action db e = IoState.edgeAction db (c.edge e)) (hedge : c.edge e = none) :
      StaysPowered c e := by
    rw [staysPowered_edge hc hpower he haction, hedge]
    simp
  cases e with
  | basicControlsTask =>
      rw [KeepsPower]
      cases hhead : c.todo.head? with
      | none =>
          have hidle : c.step .basicControlsTask = c := by
            rw [step, List.head?_eq_none_iff.mp hhead]
          have hun : ¬ Unpowers c .basicControlsTask := by
            simp [Unpowers, Executes, hhead, edge]
          rw [staysPowered_of_not_unpowers hun, hidle]
          exact iff_of_true hpower (by simp)
      | some block =>
          rw [staysPowered_block hc hhalf hpower ⟨rfl, hhead⟩]
          simp
  | monitorInputTask bank result => exact staysPowered_edge hc hpower (by simp) rfl
  | monitorFakeInputTask bank => exact staysPowered_edge hc hpower (by simp) rfl
  | timerTask => exact staysPowered_tick hc hpower
  | addMsgQueue cmd => exact iff_of_true (hquiet (by simp) rfl rfl) trivial
  | getMsgQueue => exact iff_of_true (hquiet (by simp) rfl rfl) trivial
  | lightsOnDelay delay => exact iff_of_true (hquiet (by simp) rfl rfl) trivial

/-- On every run from start, `engine_running` stands for both relays in every state, and is
0 after whatever takes the power, exactly when all that would switch one of them off finds
the engine off, and `START_SEQ` finds both on when it declares the engine running. -/
theorem powered_exec_iff (db : Database) (inports : Banks) (lightsOnDelay : ℕ)
    (es : List Event) :
    let c := boot db inports lightsOnDelay
    (∀ fs, fs <+: es → Powered (Transition.exec step c fs)) ∧
        Transition.Meets step (fun c e => Unpowers c e → (c.step e).io.engineRunning = 0) c es ↔
      Transition.Meets step (KeepsPower db) c es := by
  intro c
  have hc : c.WellFormed db ∧ HalfShut c ∧ Powered c :=
    ⟨wellFormed_boot db inports lightsOnDelay, by simp [HalfShut, c, boot],
      by simp [Powered, c, boot]⟩
  have hrange : Transition.Meets step (fun _ _ => True) c es :=
    Transition.meets_of_forall (fun _ _ => trivial) c es
  have hstays : Transition.Meets step StaysPowered c es ↔
      Transition.Meets step (KeepsPower db) c es := by
    refine Transition.meets_congr_of_meets
      (I := fun c => c.WellFormed db ∧ HalfShut c ∧ Powered c) ?_ ?_ hc hrange
    · intro c e hI _ hstays
      exact ⟨wellFormed_step hI.1 e, hI.2.1.step hI.1 e, hstays.1⟩
    · intro c e hI _
      exact staysPowered_iff hI.1 hI.2.1 hI.2.2 e
  rw [← hstays, Transition.forall_prefix_iff, and_iff_right hc.2.2]
  constructor
  · intro h
    exact h.1.and h.2
  · intro h
    exact ⟨h.mono fun _ _ hs => hs.1, h.mono fun _ _ hs => hs.2⟩

/-- The stop button right after `START_SEQ`: the engine is said to run without power. -/
theorem not_powered_odata :
    let c := Transition.exec step (boot odata (fun _ => 0#8) 0)
      [.addMsgQueue CmdType.startSeq.toByte, .getMsgQueue, .basicControlsTask,
        .basicControlsTask, .basicControlsTask, .monitorInputTask 0 0x80#8]
    c.todo = [] ∧ c.io.engineRunning = 1 ∧ c.io.hwBit accon = false ∧
      c.io.hwBit fuelpump = false := by
  simp only [boot, initIps_odata]
  decide +kernel

end Controller

end TruckControl
