import TruckControl.Model.Odata
import TruckControl.Verification.Relay.Refinement

/-!
# The countdown of the time-delay and blink outputs

Ticks are counted along a run, and the invariant relates the count to `timeLeft`. No
other action of the controller touches the two, `START_SEQ` on its own relays apart.
-/

namespace TruckControl

open OutputType

namespace Relay

variable {r : Relay} {n : ℕ}

/-- Triggered `n` scans ago and still counting. -/
def CountingSince (n : ℕ) (r : Relay) : Prop :=
  r.Counting ∧ r.datap.timeLeft.toNat + n = r.datap.timeDelay.toNat

/-- Triggered, with some but not more than the delay left. -/
def Active (r : Relay) : Prop :=
  r.datap.reset = 1#8 ∧ 0#32 < r.datap.timeLeft ∧ r.datap.timeLeft ≤ r.datap.timeDelay

/-- Off, and ready for the next edge. -/
def Rearmed (r : Relay) : Prop := r.hw = false ∧ r.datap.onoff = 0#8 ∧ r.datap.reset = 0#8

theorem countingSince_setOutput (htype : r.datap.type = 2#8 ∨ r.datap.type = 3#8)
    (hreset : r.datap.reset = 0#8) (onoff : Bool) : (r.setOutput onoff).CountingSince 0 := by
  have h0 : r.datap.type ≠ 0#8 := by rcases htype with h | h <;> simp [h]
  have h1 : r.datap.type ≠ 1#8 := by rcases htype with h | h <;> simp [h]
  simp [setOutput, CountingSince, Counting, h0, h1, htype, hreset]

/-- While an output counts, edges and commands other than `START_SEQ` leave its record's
countdown alone. -/
theorem CountingSince.act (h : r.CountingSince n) {a : Action} (hstart : a ≠ .start)
    (hscan : a ≠ .scan) : (r.act a).CountingSince n := by
  obtain ⟨⟨htype, hreset⟩, hleft⟩ := h
  have hne : r.datap.reset ≠ 0#8 := by simp [hreset]
  cases a with
  | keep => exact ⟨⟨htype, hreset⟩, hleft⟩
  | set onoff =>
      have h0 : r.datap.type ≠ 0#8 := by rcases htype with h | h <;> simp [h]
      have h1 : r.datap.type ≠ 1#8 := by rcases htype with h | h <;> simp [h]
      have hkeep : r.setOutput onoff = r := by simp [setOutput, h0, h1, htype, hne]
      rw [Relay.act, hkeep]
      exact ⟨⟨htype, hreset⟩, hleft⟩
  | scan => exact absurd rfl hscan
  | mark onoff => exact ⟨⟨htype, hreset⟩, hleft⟩
  | drive onoff =>
      rw [Relay.act, if_neg hne]
      exact ⟨⟨htype, hreset⟩, hleft⟩
  | switch onoff =>
      rw [Relay.act, if_neg hne]
      exact ⟨⟨htype, hreset⟩, hleft⟩
  | start => exact absurd rfl hstart
  | stop => exact ⟨⟨htype, hreset⟩, hleft⟩

theorem CountingSince.timerPort (h : r.CountingSince n)
    (hn : n + 1 < r.datap.timeDelay.toNat) : r.timerPort.CountingSince (n + 1) := by
  obtain ⟨hcount, hleft⟩ := h
  have hlast : r.datap.timeLeft ≠ 1#32 := by
    intro h1
    simp [h1] at hleft
    omega
  have hsub : (r.datap.timeLeft - 1#32).toNat = r.datap.timeLeft.toNat - 1 := by bv_omega
  rw [Relay.timerPort, if_pos hcount, if_neg hlast]
  refine ⟨hcount, ?_⟩
  simp only [hsub]
  omega

theorem CountingSince.rearmed (h : r.CountingSince n)
    (hn : n + 1 = r.datap.timeDelay.toNat) : r.timerPort.Rearmed := by
  obtain ⟨hcount, hleft⟩ := h
  have hlast : r.datap.timeLeft = 1#32 := by bv_omega
  rw [Relay.timerPort, if_pos hcount, if_pos hlast]
  exact ⟨rfl, rfl, rfl⟩

end Relay

theorem Block.action_ne_scan (block : Block) (p : ℕ) : block.action p ≠ .scan := by
  cases block <;> grind [Block.action]

namespace Controller

variable {db : Database}

/-- The event calls `set_output` on a port. -/
def SetsOutput (db : Database) (p : ℕ) (onoff : Bool) (c : Controller) (e : Event) : Prop :=
  c.edge e = some (db.input p, onoff) ∨ Executes (.setOutput p onoff) c e

/-- The event does not release the port the way `START_SEQ` does. -/
def NotStarted (p : ℕ) (c : Controller) (e : Event) : Prop :=
  Executes .startSeqPower c e → p ≠ accon ∧ p ≠ fuelpump

theorem action_of_setsOutput {p : ℕ} {onoff : Bool} {c : Controller} {e : Event}
    (h : SetsOutput db p onoff c e) : c.action db e p = .set onoff := by
  rcases h with h | h
  · exact action_of_edge h
  · rw [action_of_executes h]
    exact if_pos rfl

theorem action_ne_scan {c : Controller} {e : Event} (he : e ≠ .timerTask) (p : ℕ) :
    c.action db e p ≠ .scan := by
  rcases action_cases db c e p with ⟨block, -, heq⟩ | heq | ⟨onoff, -, heq⟩ | ⟨htick, -, -⟩
  · rw [heq]
    exact block.action_ne_scan p
  · simp [heq]
  · simp [heq]
  · exact absurd htick he

theorem action_timerTask {c : Controller} {p : ℕ} :
    c.action db .timerTask p = if p < testoutput27 then .scan else .keep := rfl

theorem action_ne_start {c : Controller} {e : Event} {p : ℕ} (h : NotStarted p c e) :
    c.action db e p ≠ .start := by
  rcases action_cases db c e p with ⟨block, hex, heq⟩ | heq | ⟨onoff, -, heq⟩ | ⟨-, -, heq⟩
  · intro hstart
    rw [heq] at hstart
    cases block with
    | startSeqPower =>
        obtain ⟨hacc, hpump⟩ := h hex
        simp [Block.action, hacc, hpump] at hstart
    | _ => grind [Block.action]
  all_goals simp [heq]

theorem timeDelay_relay {c : Controller} (hc : c.WellFormed db) {p : ℕ} (hp : p < 40) :
    (c.io.relay p).datap.timeDelay = (db.records p).timeDelay :=
  (Relay.setup_eq_of_eq (hc.setup hp)).2.2.2.2

/-! ## Runs -/

/-- Along a run shorter than the delay, the output counts the ticks. -/
theorem countingSince_exec {p n : ℕ} (hp : p < testoutput27) {c : Controller}
    (hc : c.WellFormed db) (hr : (c.io.relay p).CountingSince n) {es : List Event}
    (hes : Transition.Meets step (NotStarted p) c es)
    (hn : n + es.count .timerTask < (db.records p).timeDelay.toNat) :
    ((Transition.exec step c es).io.relay p).CountingSince (n + es.count .timerTask) := by
  have hp40 : p < 40 := Nat.lt_trans hp (by decide)
  induction es generalizing c n with
  | nil => exact hr
  | cons e es ih =>
      obtain ⟨hstart, hes⟩ := hes
      have hstep := relay_step hc e hp40
      by_cases he : e = .timerTask
      · subst he
        have hsum : n + (Event.timerTask :: es).count .timerTask =
            n + 1 + es.count .timerTask := by
          rw [List.count_cons_self]
          omega
        rw [hsum] at hn ⊢
        have hcount : ((c.step .timerTask).io.relay p).CountingSince (n + 1) := by
          rw [hstep, action_timerTask, if_pos hp]
          apply hr.timerPort
          rw [timeDelay_relay hc hp40]
          omega
        rw [Transition.exec_cons]
        exact ih (wellFormed_step hc .timerTask) hcount hes hn
      · rw [List.count_cons_of_ne he] at hn ⊢
        have hcount : ((c.step e).io.relay p).CountingSince n := by
          rw [hstep]
          exact hr.act (action_ne_start hstart) (action_ne_scan he p)
        exact ih (wellFormed_step hc e) hcount hes hn

/-- Ticks do not reach a port the scan leaves out. -/
theorem relay_ticks {p : ℕ} (hp : p < 40) (hscan : ¬ p < testoutput27) {c : Controller}
    (hc : c.WellFormed db) (n : ℕ) :
    (Transition.exec step c (List.replicate n .timerTask)).io.relay p = c.io.relay p := by
  induction n generalizing c with
  | zero => rfl
  | succ n ih =>
      rw [List.replicate_succ, Transition.exec_cons, ih (wellFormed_step hc _),
        relay_step hc _ hp, action_timerTask, if_neg hscan, Relay.act]

/-- Counting down from the delay: active before the tick that is due, off and re-armed
right after it, whatever else happens meanwhile. -/
def CountsDown (p : ℕ) (c : Controller) : Prop :=
  let due := max 1 (c.io.relay p).datap.timeDelay.toNat
  ∀ es, Transition.Meets step (NotStarted p) c es →
    (es.count .timerTask < due → ((Transition.exec step c es).io.relay p).Active) ∧
    (es.count .timerTask + 1 = due →
      (((Transition.exec step c es).step .timerTask).io.relay p).Rearmed)

theorem countsDown_of_lt {p : ℕ} (hp : p < testoutput27) {c : Controller}
    (hc : c.WellFormed db) (hr : (c.io.relay p).CountingSince 0)
    (hdelay : (db.records p).timeDelay ≠ 0#32) : CountsDown p c := by
  have hp40 : p < 40 := Nat.lt_trans hp (by decide)
  have hdue : max 1 (c.io.relay p).datap.timeDelay.toNat = (db.records p).timeDelay.toNat := by
    have hpos : (db.records p).timeDelay.toNat ≠ 0 := by bv_omega
    rw [timeDelay_relay hc hp40]
    omega
  rw [CountsDown, hdue]
  intro es hes
  have hwf := wellFormed_exec hc es
  have hconst := timeDelay_relay hwf hp40
  refine ⟨?_, ?_⟩
  · intro hn
    obtain ⟨⟨-, hreset⟩, hleft⟩ := countingSince_exec hp hc hr hes (by omega)
    rw [hconst] at hleft
    refine ⟨hreset, ?_, ?_⟩
    · rw [BitVec.lt_def]
      simp
      omega
    · rw [BitVec.le_def, hconst]
      omega
  · intro hn
    have hcount := countingSince_exec hp hc hr hes (by omega)
    rw [relay_step hwf _ hp40, action_timerTask, if_pos hp]
    apply hcount.rearmed
    rw [hconst]
    omega

/-- Beyond the scan an output stays on. -/
theorem not_countsDown_of_le {p : ℕ} (hp : p < 40) (hscan : ¬ p < testoutput27)
    {c : Controller} (hc : c.WellFormed db) (hr : (c.io.relay p).CountingSince 0) :
    ¬ CountsDown p c := by
  intro h
  obtain ⟨ticks, hticks⟩ : ∃ ticks, ticks + 1 = max 1 (c.io.relay p).datap.timeDelay.toNat :=
    ⟨max 1 (c.io.relay p).datap.timeDelay.toNat - 1, by omega⟩
  have hmeets (c : Controller) (n : ℕ) :
      Transition.Meets step (NotStarted p) c (List.replicate n .timerTask) := by
    induction n generalizing c with
    | zero => trivial
    | succ n ih => exact ⟨fun hex => absurd hex.1 (by decide), ih _⟩
  have hoff := (h _ (hmeets c ticks)).2 (by rw [List.count_replicate_self, hticks])
  have hsame := relay_ticks hp hscan hc (ticks + 1)
  rw [List.replicate_succ', Transition.exec_append, Transition.exec_cons,
    Transition.exec_nil] at hsame
  rw [hsame] at hoff
  have hon := hr.1.2
  rw [hoff.2.2] at hon
  cases hon

/-- Without a delay nothing is left from the start. -/
theorem not_countsDown_of_zero {p : ℕ} (hp : p < 40) {c : Controller} (hc : c.WellFormed db)
    (hdelay : (db.records p).timeDelay = 0#32) : ¬ CountsDown p c := by
  intro h
  obtain ⟨-, hpos, hle⟩ := (h [] trivial).1 (Nat.le_max_left 1 _)
  rw [Transition.exec_nil] at hpos hle
  rw [timeDelay_relay hc hp, hdelay] at hle
  rw [BitVec.lt_def] at hpos
  rw [BitVec.le_def] at hle
  omega

/-- A triggered output counts down exactly when the scan of the timer reaches its port
and its delay is not zero. -/
theorem countsDown_iff (db : Database) (p : ℕ) (hp : p < 40)
    (htype : (db.records p).type = 2#8 ∨ (db.records p).type = 3#8)
    (c : Controller) (hc : Reachable db c) (e : Event) (onoff : Bool)
    (hset : SetsOutput db p onoff c e) (hreset : (c.io.datap p).reset = 0#8) :
    CountsDown p (c.step e) ↔ p < testoutput27 ∧ (db.records p).timeDelay ≠ 0#32 := by
  have hwf := wellFormed_step hc.wellFormed e
  have hstart : ((c.step e).io.relay p).CountingSince 0 := by
    rw [relay_step hc.wellFormed e hp, action_of_setsOutput hset]
    apply Relay.countingSince_setOutput _ hreset
    rwa [← (Relay.setup_eq_of_eq (hc.wellFormed.setup hp)).2.2.2.1] at htype
  constructor
  · intro h
    refine ⟨?_, ?_⟩
    · by_contra hscan
      exact not_countsDown_of_le hp hscan hwf hstart h
    · intro hdelay
      exact not_countsDown_of_zero hp hwf hdelay h
  · intro h
    exact countsDown_of_lt h.1 hwf hstart h.2

/-- The starter of `odata`, triggered by its switch, counts its ten seconds down. -/
theorem countsDown_starter :
    CountsDown starter ((boot odata (fun _ => 0#8) 0).step (.monitorInputTask 0 0x20#8)) := by
  have hset : SetsOutput odata starter true (boot odata (fun _ => 0#8) 0)
      (.monitorInputTask 0 0x20#8) := .inl (by decide +kernel)
  exact (countsDown_iff odata starter (by decide) (by decide) _ (Reachable.boot odata _ _) _ true
    hset (by decide +kernel)).mpr (by decide)

/-- `odata` with an output of one second on the port after the last that is scanned. -/
def odataTimed : Database where
  records := Function.update odata.records testoutput27
    { odata.records testoutput27 with type := 2#8, inputPort := 9#8, timeDelay := 1#32 }
  port_eq := by decide

/-- The tick that should switch it off does not. -/
theorem not_countsDown_testoutput27 :
    let c := boot odataTimed (fun _ => 0#8) 0
    let e := Event.monitorInputTask 1 0x02#8
    SetsOutput odataTimed testoutput27 true c e ∧ (c.io.datap testoutput27).reset = 0#8 ∧
      ((c.step e).io.relay testoutput27).hw = true ∧
      (((c.step e).step .timerTask).io.relay testoutput27).hw = true ∧
      ¬ CountsDown testoutput27 (c.step e) := by
  intro c e
  have hon : (((c.step e).step .timerTask).io.relay testoutput27).hw = true := by
    simp only [c, e, boot, Database.initIps_olLoadConfig]
    decide +kernel
  refine ⟨.inl (by decide +kernel), by decide +kernel, ?_, hon, ?_⟩
  · simp only [c, e, boot, Database.initIps_olLoadConfig]
    decide +kernel
  · intro h
    have hdue : [].count Event.timerTask + 1 =
        max 1 ((c.step e).io.relay testoutput27).datap.timeDelay.toNat := by
      simp only [c, e, boot, Database.initIps_olLoadConfig]
      decide +kernel
    have hoff := ((h [] trivial).2 hdue).1
    rw [Transition.exec_nil, hon] at hoff
    cases hoff

end Controller

end TruckControl
