import TruckControl.Model.Odata
import TruckControl.Verification.Relay.Refinement

/-!
# The emergency stop

An output of type 4 is on only while its `reset` is 0, and the first edge of the stop
makes `reset` non-zero. Only `START_SEQ` makes it 0 again.
-/

namespace TruckControl

open InputType OutputType

namespace Relay

variable {r : Relay}

/-- On only while the emergency stop does not hold it. -/
def Interlocked (r : Relay) : Prop := r.datap.type = 4#8 ∧ (r.hw = true → r.datap.reset = 0#8)

/-- Held off by the emergency stop. -/
def Stopped (r : Relay) : Prop := r.datap.type = 4#8 ∧ r.datap.reset ≠ 0#8 ∧ r.hw = false

theorem not_counting_of_type_four (h : r.datap.type = 4#8) : ¬ r.Counting := by
  simp [Counting, h]

theorem Interlocked.act (h : r.Interlocked) (a : Action) : (r.act a).Interlocked := by
  obtain ⟨htype, hon⟩ := h
  have hscan : r.timerPort = r := if_neg (not_counting_of_type_four htype)
  cases a with
  | keep => exact ⟨htype, hon⟩
  | set onoff =>
      by_cases h0 : r.datap.reset = 0#8
      · simp [Relay.act, setOutput, Interlocked, htype, h0]
      · by_cases h1 : r.datap.reset = 1#8
        · have hoff : r.hw = false := by
            cases hhw : r.hw with
            | false => rfl
            | true => exact absurd (hon hhw) h0
          simp [Relay.act, setOutput, Interlocked, htype, h1, hoff]
        · simpa [Relay.act, setOutput, Interlocked, htype, h0, h1] using hon
  | scan =>
      rw [Relay.act, hscan]
      exact ⟨htype, hon⟩
  | mark onoff => exact ⟨htype, hon⟩
  | drive onoff =>
      rw [Relay.act]
      split_ifs with h0
      · exact ⟨htype, fun _ => h0⟩
      · exact ⟨htype, hon⟩
  | switch onoff =>
      rw [Relay.act]
      split_ifs with h0
      · exact ⟨htype, fun _ => h0⟩
      · exact ⟨htype, hon⟩
  | start => exact ⟨htype, fun _ => rfl⟩
  | stop => exact ⟨htype, fun hhw => by cases hhw⟩

/-- An edge of the stop, press or release, stops an interlocked output. -/
theorem Interlocked.stopped_setOutput (h : r.Interlocked) (onoff : Bool) :
    (r.setOutput onoff).Stopped := by
  obtain ⟨htype, hon⟩ := h
  by_cases h0 : r.datap.reset = 0#8
  · simp [setOutput, Stopped, htype, h0]
  · have hoff : r.hw = false := by
      cases hhw : r.hw with
      | false => rfl
      | true => exact absurd (hon hhw) h0
    by_cases h1 : r.datap.reset = 1#8
    · simp [setOutput, Stopped, htype, h1, hoff]
    · simp [setOutput, Stopped, htype, h0, h1, hoff]

theorem Stopped.interlocked (h : r.Stopped) : r.Interlocked :=
  ⟨h.1, fun hhw => by rw [h.2.2] at hhw; cases hhw⟩

/-- Nothing but `START_SEQ` releases a stopped output. -/
theorem Stopped.act (h : r.Stopped) {a : Action} (ha : a ≠ .start) : (r.act a).Stopped := by
  have hedge := h.interlocked.stopped_setOutput
  obtain ⟨htype, hreset, hoff⟩ := h
  have hscan : r.timerPort = r := if_neg (not_counting_of_type_four htype)
  cases a with
  | keep => exact ⟨htype, hreset, hoff⟩
  | set onoff => exact hedge onoff
  | scan =>
      rw [Relay.act, hscan]
      exact ⟨htype, hreset, hoff⟩
  | mark onoff => exact ⟨htype, hreset, hoff⟩
  | drive onoff =>
      rw [Relay.act, if_neg hreset]
      exact ⟨htype, hreset, hoff⟩
  | switch onoff =>
      rw [Relay.act, if_neg hreset]
      exact ⟨htype, hreset, hoff⟩
  | start => exact absurd rfl ha
  | stop => exact ⟨htype, hreset, rfl⟩

end Relay

theorem Block.eq_startSeqPower {block : Block} {p : ℕ} (h : block.action p = .start) :
    block = .startSeqPower := by
  cases block with
  | startSeqPower => rfl
  | _ => grind [Block.action]

namespace Controller

variable {db : Database}

theorem action_eq_start {c : Controller} {e : Event} {p : ℕ} (h : c.action db e p = .start) :
    Executes .startSeqPower c e := by
  rcases action_cases db c e p with ⟨block, hex, heq⟩ | heq | ⟨onoff, -, heq⟩ | ⟨-, -, heq⟩
  · rw [heq] at h
    exact Block.eq_startSeqPower h ▸ hex
  all_goals rw [heq] at h; cases h

theorem Reachable.interlocked {c : Controller} (h : Reachable db c) {p : ℕ} (hp : p < 40)
    (htype : (db.records p).type = 4#8) : (c.io.relay p).Interlocked :=
  h.relay_invariant hp ⟨htype, fun hhw => by cases hhw⟩ fun _ a hr => hr.act a

/-- The event that brings an edge of its input to an interlocked output stops it. -/
theorem Reachable.stopped_of_edge {c : Controller} (h : Reachable db c) {p : ℕ} (hp : p < 40)
    (htype : (db.records p).type = 4#8) {e : Event} {onoff : Bool}
    (he : c.edge e = some (db.input p, onoff)) : ((c.step e).io.relay p).Stopped := by
  rw [relay_step h.wellFormed e hp, action_of_edge he]
  exact (h.interlocked hp htype).stopped_setOutput onoff

/-- A stopped output stays stopped through every run without `START_SEQ`. -/
theorem stopped_exec {c : Controller} (hc : c.WellFormed db) {p : ℕ} (hp : p < 40)
    (hstop : (c.io.relay p).Stopped) {es : List Event}
    (hes : Transition.Meets step (fun c e => ¬ Executes .startSeqPower c e) c es) :
    ((Transition.exec step c es).io.relay p).Stopped := by
  have hrun : (Transition.exec step c es).WellFormed db ∧
      ((Transition.exec step c es).io.relay p).Stopped := by
    refine Transition.inv_exec_of_meets
      (I := fun c => c.WellFormed db ∧ (c.io.relay p).Stopped) ?_ ⟨hc, hstop⟩ hes
    intro c e h hno
    refine ⟨wellFormed_step h.1 e, ?_⟩
    rw [relay_step h.1 e hp]
    exact h.2.act fun hstart => hno (action_eq_start hstart)
  exact hrun.2

/-- After an edge of the emergency stop, `ACCON` and `FUELPUMP` are off, and stay off
until `START_SEQ` switches the power on. -/
theorem estop_holds (db : Database)
    (hacc : (db.records accon).type = 4#8 ∧ db.input accon = estopInput)
    (hpump : (db.records fuelpump).type = 4#8 ∧ db.input fuelpump = estopInput)
    (c : Controller) (hc : Reachable db c) (e : Event) (onoff : Bool)
    (he : c.edge e = some (estopInput, onoff)) (es : List Event)
    (hes : Transition.Meets step (fun c e => ¬ Executes .startSeqPower c e) (c.step e) es) :
    (Transition.exec step (c.step e) es).io.hwBit accon = false ∧
      (Transition.exec step (c.step e) es).io.hwBit fuelpump = false := by
  have hwf := wellFormed_step hc.wellFormed e
  have hoff {p : ℕ} (hp : p < 40) (htype : (db.records p).type = 4#8)
      (hin : db.input p = estopInput) :
      (Transition.exec step (c.step e) es).io.hwBit p = false :=
    (stopped_exec hwf hp (hc.stopped_of_edge hp htype (hin ▸ he)) hes).2.2
  exact ⟨hoff (by decide) hacc.1 hacc.2, hoff (by decide) hpump.1 hpump.2⟩

/-- The stop button pressed at start, and then the commands that would switch on. -/
theorem estop_holds_odata :
    let c := boot odata (fun _ => 0#8) 0
    let e := Event.monitorInputTask 0 0x80#8
    let es : List Event := [.addMsgQueue CmdType.onAcc.toByte, .getMsgQueue, .basicControlsTask,
      .addMsgQueue CmdType.onFuelPump.toByte, .getMsgQueue, .basicControlsTask, .timerTask]
    (Transition.exec step (c.step e) es).io.hwBit accon = false ∧
      (Transition.exec step (c.step e) es).io.hwBit fuelpump = false := by
  intro c e es
  have hedge : c.edge e = some (estopInput, true) := by decide +kernel
  have hes : Transition.Meets step (fun c e => ¬ Executes .startSeqPower c e) (c.step e) es := by
    simp only [c, e, boot, initIps_odata]
    decide +kernel
  exact estop_holds odata (by decide) (by decide) c (Reachable.boot odata _ _) e true hedge es hes

end Controller

end TruckControl
