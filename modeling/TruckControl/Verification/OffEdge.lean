import TruckControl.Model.Odata
import TruckControl.Verification.Relay.Refinement

/-!
# OFF edges

An OFF edge switches off, or does nothing, except on an idle time-delay or blink
output: there `set_output` does not look at the direction of the edge.
-/

namespace TruckControl

open OutputType

namespace Relay

variable {r : Relay}

/-- A time-delay or blink output that waits for an edge. -/
def Idle (r : Relay) : Prop :=
  (r.datap.type = 2#8 ∨ r.datap.type = 3#8) ∧ r.datap.reset = 0#8

theorem setOutput_of_idle (h : r.Idle) (onoff : Bool) : (r.setOutput onoff).hw = true := by
  obtain ⟨htype, hreset⟩ := h
  have h0 : r.datap.type ≠ 0#8 := by rcases htype with h | h <;> simp [h]
  have h1 : r.datap.type ≠ 1#8 := by rcases htype with h | h <;> simp [h]
  simp [setOutput, h0, h1, htype, hreset]

/-- The outputs that an OFF edge should never switch on. -/
def OffType (d : OData) : Prop :=
  d.polarity = 0#8 ∧ (d.type = 0#8 ∨ d.type = 2#8 ∨ d.type = 3#8 ∨ d.type = 4#8)

instance (d : OData) : Decidable (OffType d) := inferInstanceAs (Decidable (_ ∧ _))

theorem setOutput_false_of_not_idle (htype : OffType r.datap) (hidle : ¬ r.Idle)
    (hoff : r.hw = false) : (r.setOutput false).hw = false := by
  obtain ⟨hpol, htype⟩ := htype
  have htimed (h : r.datap.type = 2#8 ∨ r.datap.type = 3#8) : r.setOutput false = r := by
    have h0 : r.datap.type ≠ 0#8 := by rcases h with h | h <;> simp [h]
    have h1 : r.datap.type ≠ 1#8 := by rcases h with h | h <;> simp [h]
    have hreset : r.datap.reset ≠ 0#8 := fun hreset => hidle ⟨h, hreset⟩
    simp [setOutput, h0, h1, h, hreset]
  rcases htype with h | h | h | h
  · simp [setOutput, h, hpol]
  · rw [htimed (.inl h), hoff]
  · rw [htimed (.inr h), hoff]
  · by_cases h0 : r.datap.reset = 0#8
    · simp [setOutput, h, h0]
    · by_cases h1 : r.datap.reset = 1#8
      · simp [setOutput, h, h1, hoff]
      · simp [setOutput, h, h0, h1, hoff]

end Relay

namespace Controller

variable {db : Database}

/-- An edge reaches the ports it drives and no others. -/
theorem action_of_edge_of_ne {c : Controller} {e : Event} {p index : ℕ} {onoff : Bool}
    (h : c.edge e = some (index, onoff)) (hp : db.input p ≠ index) :
    c.action db e p = .keep := by
  cases e with
  | monitorInputTask bank result => rw [action, h]; exact if_neg hp
  | monitorFakeInputTask bank => rw [action, h]; exact if_neg hp
  | _ => cases h

/-- An OFF edge keeps an output off, unless it drives the output and the output is an idle
time-delay or blink output. -/
theorem hwBit_off_edge {c : Controller} (hc : c.WellFormed db) {e : Event} {k : ℕ}
    (he : c.edge e = some (k, false)) {p : ℕ} (hp : p < 40)
    (htype : Relay.OffType (db.records p)) (hoff : c.io.hwBit p = false) :
    (c.step e).io.hwBit p = false ↔ ¬ (db.input p = k ∧ (c.io.relay p).Idle) := by
  have hstep := congrArg Relay.hw (relay_step hc e hp)
  change (c.step e).io.hwBit p = _ at hstep
  rw [hstep]
  by_cases hk : db.input p = k
  · rw [action_of_edge (hk ▸ he), Relay.act]
    have htype' : Relay.OffType (c.io.relay p).datap := by
      obtain ⟨-, -, hpol, htypeEq, -⟩ := Relay.setup_eq_of_eq (hc.setup hp)
      rwa [Relay.OffType, hpol, htypeEq]
    by_cases hidle : (c.io.relay p).Idle
    · simp [Relay.setOutput_of_idle hidle, hk, hidle]
    · simp [Relay.setOutput_false_of_not_idle htype' hidle hoff, hidle]
  · rw [action_of_edge_of_ne he hk, Relay.act]
    simp only [hk, false_and, not_false_eq_true, iff_true]
    exact hoff

/-- An OFF edge does not switch the output on. -/
def OffKeepsOff (p : ℕ) (c : Controller) (e : Event) : Prop :=
  ∀ k, c.edge e = some (k, false) → c.io.hwBit p = false → (c.step e).io.hwBit p = false

/-- No OFF edge of its own input meets the output off and idle. -/
def OffMissesIdle (db : Database) (p : ℕ) (c : Controller) (e : Event) : Prop :=
  ∀ k, c.edge e = some (k, false) → c.io.hwBit p = false →
    ¬ (db.input p = k ∧ (c.io.relay p).Idle)

/-- In a run, OFF edges never switch an output on exactly when none of them meets it off
and idle. -/
theorem off_edges_iff (db : Database) (p : ℕ) (hp : p < 40)
    (htype : Relay.OffType (db.records p)) (inports : Banks) (lightsOnDelay : ℕ)
    (es : List Event) :
    Transition.Meets step (OffKeepsOff p) (boot db inports lightsOnDelay) es ↔
      Transition.Meets step (OffMissesIdle db p) (boot db inports lightsOnDelay) es := by
  apply Transition.meets_congr (I := WellFormed db) (fun _ e hc => wellFormed_step hc e)
  · intro c e hc
    rw [OffKeepsOff, OffMissesIdle]
    constructor
    · intro h k he hoff
      exact (hwBit_off_edge hc he hp htype hoff).mp (h k he hoff)
    · intro h k he hoff
      exact (hwBit_off_edge hc he hp htype hoff).mpr (h k he hoff)
  · exact wellFormed_boot db inports lightsOnDelay

/-- Pressing and releasing the fan switch of `odata`. -/
theorem off_edges_odata :
    Transition.Meets step (OffKeepsOff coolingfan) (boot odata (fun _ => 0#8) 0)
      [.monitorInputTask 0 0x40#8, .monitorInputTask 0 0x00#8] := by
  refine (off_edges_iff odata coolingfan (by decide) (by decide) _ 0 _).mpr ?_
  have hidle (c : Controller) (hc : c.WellFormed odata) : ¬ (c.io.relay coolingfan).Idle := by
    intro h
    have htype := (Relay.setup_eq_of_eq (hc.setup (p := coolingfan) (by decide))).2.2.2.1
    have hzero : (odata.records coolingfan).type = 0#8 := by decide
    rw [Relay.Idle, htype, hzero] at h
    revert h
    simp
  have hboot := wellFormed_boot odata (fun _ => 0#8) 0
  exact ⟨fun k _ _ h => hidle _ hboot h.2, fun k _ _ h => hidle _ (wellFormed_step hboot _) h.2,
    trivial⟩

/-- The starter switch held until the starter has timed out, and then released. -/
theorem off_edge_starts_starter :
    let held := Transition.exec step (boot odata (fun _ => 0#8) 0)
      (.monitorInputTask 0 0x20#8 :: List.replicate 10 .timerTask)
    held.edge (.monitorInputTask 0 0x00#8) = some (5, false) ∧
      held.io.hwBit starter = false ∧
      (held.step (.monitorInputTask 0 0x00#8)).io.hwBit starter = true := by
  simp only [boot, initIps_odata]
  decide +kernel

end Controller

end TruckControl
