import TruckControl.Library.Transition
import TruckControl.Verification.Divider

/-!
# The reading of a sensor

The spacing of two edges of the sensor is counted, and the dividend is divided by the count.
-/

namespace TruckControl

namespace Sensor

open Transition

variable {clkCount : ℕ} {factor : BitVec 23} {s : Sensor}

/-! ## The units -/

theorem prd_clk_idle {c : PeriodCounter} (h : c.pstateReg = .idle) (si : Bool) :
    c.clk clkCount false si = { c with delayReg := si } := by
  simp only [PeriodCounter.clk, PeriodCounter.next, h, Bool.false_eq_true, if_false]

theorem prd_clk_start {c : PeriodCounter} (h : c.pstateReg = .idle) (si : Bool) :
    c.clk clkCount true si = { c with pstateReg := .waite, delayReg := si } := by
  simp only [PeriodCounter.clk, PeriodCounter.next, h, if_true]

theorem div_clk_idle {d : Div} (h : d.stateReg = .idle) (x y : BitVec 23) :
    d.clk false x y = d := by
  simp only [Div.clk, h, Bool.false_eq_true, if_false]

theorem div_clk_start {d : Div} (h : d.stateReg = .idle) (x y : BitVec 23) :
    d.clk true x y = { stateReg := .op, rhReg := 0, rlReg := y, dReg := x, nReg := 24 } := by
  simp only [Div.clk, h, if_true]

theorem div_clk_done {d : Div} (h : d.stateReg = .done) (start : Bool) (x y : BitVec 23) :
    d.clk start x y = { d with stateReg := .idle } := by
  simp only [Div.clk, h]

/-! ## The turns of `sensor_proc` -/

/-- What its states mean for the units that it starts. -/
def Valid (s : Sensor) : Prop :=
  match s.fstateReg, s.fstateNext with
  | .idle, .idle | .frq, .calc1 | .calc1, .calc1 | .calc1, .idle =>
      s.prdStart = false ∧ s.divStart = false ∧ s.prdCountUnit.pstateReg = .idle ∧
        s.divUnit.stateReg = .idle
  | .idle, .count =>
      s.prdStart = true ∧ s.divStart = false ∧ s.prdCountUnit.pstateReg = .idle ∧
        s.divUnit.stateReg = .idle
  | .count, .count =>
      s.divStart = false ∧ s.divUnit.stateReg = .idle ∧
        (s.prdCountUnit.pstateReg = .waite ∨
          s.prdStart = false ∧ s.prdCountUnit.pstateReg ≠ .idle)
  | .count, .frq =>
      s.prdStart = false ∧ s.divStart = true ∧ s.prdCountUnit.pstateReg = .idle ∧
        s.divUnit.stateReg = .idle
  | .frq, .frq =>
      s.prdStart = false ∧ s.prdCountUnit.pstateReg = .idle ∧ s.divUnit.stateReg ≠ .idle
  | _, _ => False

theorem valid_reset : reset.Valid := ⟨rfl, rfl, rfl, rfl⟩

/-- The period counter does not go back before it is done. -/
theorem prd_pstateReg_clk (clkCount : ℕ) {c : PeriodCounter} (h : c.pstateReg ≠ .idle)
    (hdone : c.pstateReg ≠ .done) (start si : Bool) :
    (c.clk clkCount start si).pstateReg ≠ .idle := by
  cases hstate : c.pstateReg with
  | idle => exact absurd hstate h
  | done => exact absurd hstate hdone
  | waite =>
      simp only [PeriodCounter.clk, PeriodCounter.next, hstate]
      split_ifs <;> simp [hstate]
  | count =>
      simp only [PeriodCounter.clk, PeriodCounter.next, hstate]
      split_ifs <;> simp

theorem div_stateReg_clk {d : Div} (h : d.stateReg ≠ .idle) (hdone : d.stateReg ≠ .done)
    (start : Bool) (x y : BitVec 23) : (d.clk start x y).stateReg ≠ .idle := by
  cases hstate : d.stateReg with
  | idle => exact absurd hstate h
  | done => exact absurd hstate hdone
  | op =>
      simp only [Div.clk, hstate]
      split_ifs <;> simp
  | last =>
      simp only [Div.clk, hstate]
      simp

theorem Valid.clk (h : s.Valid) (sensor1 : Bool) : (s.clk clkCount factor sensor1).Valid := by
  cases hreg : s.fstateReg <;> cases hnext : s.fstateNext <;>
    simp only [Valid, hreg, hnext] at h
  case idle.idle | calc1.calc1 | calc1.idle =>
    obtain ⟨hprd, hdiv, hperiod, hunit⟩ := h
    simp [Valid, Sensor.clk, fsm, hreg, hnext, hprd, hdiv, prd_clk_idle hperiod,
      div_clk_idle hunit, hperiod, hunit]
  case idle.count =>
    obtain ⟨hprd, hdiv, hperiod, hunit⟩ := h
    simp [Valid, Sensor.clk, fsm, hreg, hnext, hprd, hdiv, prd_clk_start hperiod,
      div_clk_idle hunit, hunit]
  case count.count =>
    obtain ⟨hdiv, hunit, hwaite | ⟨hprd, hperiod⟩⟩ := h
    · have hbusy := prd_pstateReg_clk clkCount (c := s.prdCountUnit)
        (by simp [hwaite]) (by simp [hwaite]) s.prdStart sensor1
      simp [Valid, Sensor.clk, fsm, hreg, hnext, hdiv, PeriodCounter.doneTick, hwaite,
        div_clk_idle hunit, hunit, hbusy]
    · by_cases hdone : s.prdCountUnit.pstateReg = .done
      · simp [Valid, Sensor.clk, fsm, hreg, hnext, hdiv, PeriodCounter.doneTick, hdone,
          div_clk_idle hunit, hunit, PeriodCounter.clk, PeriodCounter.next]
      · have hbusy := prd_pstateReg_clk clkCount hperiod hdone s.prdStart sensor1
        rw [hprd] at hbusy
        simp [Valid, Sensor.clk, fsm, hreg, hnext, hdiv, hprd, PeriodCounter.doneTick, hdone,
          div_clk_idle hunit, hunit, hbusy]
  case count.frq =>
    obtain ⟨hprd, hdiv, hperiod, hunit⟩ := h
    simp [Valid, Sensor.clk, fsm, hreg, hnext, hprd, hdiv, prd_clk_idle hperiod,
      div_clk_start hunit, hperiod, PeriodCounter.doneTick]
  case frq.frq =>
    obtain ⟨hprd, hperiod, hunit⟩ := h
    by_cases hdone : s.divUnit.stateReg = .done
    · cases hflag : s.firstFlag <;>
        simp [Valid, Sensor.clk, fsm, hreg, hnext, hprd, hflag, prd_clk_idle hperiod,
          div_clk_done hdone, hperiod, Div.doneTick, hdone]
    · have hbusy := div_stateReg_clk hunit hdone s.divStart
        (s.prdCountUnit.pReg.setWidth 23) factor
      simp [Valid, Sensor.clk, fsm, hreg, hnext, hprd, prd_clk_idle hperiod,
        hperiod, Div.doneTick, hdone, hbusy]
  case frq.calc1 =>
    obtain ⟨hprd, hdiv, hperiod, hunit⟩ := h
    simp [Valid, Sensor.clk, fsm, hreg, hnext, hprd, hdiv, prd_clk_idle hperiod,
      div_clk_idle hunit, hperiod, hunit, Div.doneTick]

/-- The samples of the sensor, one for each rising edge of the clock. -/
def run (clkCount : ℕ) (factor : BitVec 23) : Sensor → List Bool → Sensor :=
  exec (Sensor.clk clkCount factor)

theorem valid_run (samples : List Bool) : (reset.run clkCount factor samples).Valid :=
  inv_exec (I := Valid) (fun _ sensor1 h => h.clk sensor1) samples valid_reset

/-! ## Between the edges -/

/-- The period counter counts; `m` samples came after the first edge, and `last` is the last of
them. -/
structure Counting (clkCount m : ℕ) (last : Bool) (s : Sensor) : Prop where
  fstateReg : s.fstateReg = .count
  fstateNext : s.fstateNext = .count
  prdStart : s.prdStart = false
  divStart : s.divStart = false
  divUnit : s.divUnit.stateReg = .idle
  pstateReg : s.prdCountUnit.pstateReg = .count
  delayReg : s.prdCountUnit.delayReg = last
  tReg : s.prdCountUnit.tReg.toNat = m % clkCount
  pReg : s.prdCountUnit.pReg.toNat = m / clkCount % 2 ^ 17

/-- The first edge. -/
theorem Valid.counting (h : s.Valid) (clkCount : ℕ) (factor : BitVec 23)
    (hwaite : s.prdCountUnit.pstateReg = .waite) (hlow : s.prdCountUnit.delayReg = false) :
    Counting clkCount 0 true (s.clk clkCount factor true) := by
  have hturn : s.fstateReg = .count ∧ s.fstateNext = .count ∧ s.divStart = false ∧
      s.divUnit.stateReg = .idle := by
    cases hreg : s.fstateReg <;> cases hnext : s.fstateNext <;>
      simp [Valid, hreg, hnext, hwaite] at h
    exact ⟨rfl, rfl, h.1, h.2⟩
  obtain ⟨hreg, hnext, hdiv, hunit⟩ := hturn
  have hperiod : s.prdCountUnit.clk clkCount s.prdStart true =
      { s.prdCountUnit with pstateReg := .count, tReg := 0, pReg := 0, delayReg := true } := by
    simp [PeriodCounter.clk, PeriodCounter.next, PeriodCounter.edge, hwaite, hlow]
  have hfsm : s.fsm = { s with prdStart := false } := by
    simp [fsm, hreg, PeriodCounter.doneTick, hwaite]
  rw [Sensor.clk, hperiod, hdiv, div_clk_idle hunit, hfsm]
  exact ⟨hnext, hnext, rfl, hdiv, hunit, rfl, rfl, (Nat.zero_mod _).symm, by simp⟩

/-- Two nested counters count as one. -/
theorem tick_div_mod {c : ℕ} (hc : 0 < c) (m : ℕ) :
    (m % c = c - 1 → (m + 1) % c = 0 ∧ (m + 1) / c = m / c + 1) ∧
      (m % c ≠ c - 1 → (m + 1) % c = m % c + 1 ∧ (m + 1) / c = m / c) := by
  have hlt := Nat.mod_lt m hc
  have hm := Nat.div_add_mod m c
  constructor
  · intro heq
    have hnext : m + 1 = c * (m / c + 1) := by
      rw [Nat.mul_add, Nat.mul_one]
      omega
    rw [hnext]
    exact ⟨Nat.mul_mod_right c _, Nat.mul_div_cancel_left _ hc⟩
  · intro hne
    have hnext : m + 1 = (m % c + 1) + c * (m / c) := by omega
    constructor
    · rw [hnext, Nat.add_mul_mod_self_left, Nat.mod_eq_of_lt (by omega)]
    · rw [hnext, Nat.add_mul_div_left _ _ hc, Nat.div_eq_of_lt (by omega), Nat.zero_add]

/-- A sample without an edge. -/
theorem Counting.clk {m : ℕ} {last sensor1 : Bool} (h : Counting clkCount m last s)
    (factor : BitVec 23) (hc : 0 < clkCount) (hle : clkCount ≤ 2 ^ 16)
    (hedge : sensor1 = true → last = true) :
    Counting clkCount (m + 1) sensor1 (s.clk clkCount factor sensor1) := by
  have hnoEdge : s.prdCountUnit.edge sensor1 = false := by
    rw [PeriodCounter.edge, h.delayReg]
    cases sensor1 with
    | false => rw [Bool.and_false]
    | true => rw [hedge rfl, Bool.not_true, Bool.false_and]
  have hfsm : s.fsm = { s with prdStart := false } := by
    simp [fsm, h.fstateReg, PeriodCounter.doneTick, h.pstateReg]
  obtain ⟨htick, hcount⟩ := tick_div_mod hc m
  have hlt := Nat.mod_lt m hc
  rw [Sensor.clk, h.divStart, div_clk_idle h.divUnit, hfsm]
  by_cases hlast : m % clkCount = clkCount - 1
  · obtain ⟨hmod, hdiv⟩ := htick hlast
    have hperiod : s.prdCountUnit.clk clkCount s.prdStart sensor1 =
        { s.prdCountUnit with
          tReg := 0
          pReg := s.prdCountUnit.pReg + 1
          delayReg := sensor1 } := by
      simp [PeriodCounter.clk, PeriodCounter.next, h.pstateReg, hnoEdge, h.tReg, hlast]
    rw [hperiod]
    refine ⟨h.fstateNext, h.fstateNext, rfl, h.divStart, h.divUnit, h.pstateReg, rfl, ?_, ?_⟩
    · exact hmod.symm
    · rw [BitVec.toNat_add, h.pReg, hdiv]
      change (m / clkCount % 2 ^ 17 + 1) % 2 ^ 17 = _
      omega
  · obtain ⟨hmod, hdiv⟩ := hcount hlast
    have hperiod : s.prdCountUnit.clk clkCount s.prdStart sensor1 =
        { s.prdCountUnit with
          tReg := s.prdCountUnit.tReg + 1
          delayReg := sensor1 } := by
      simp [PeriodCounter.clk, PeriodCounter.next, h.pstateReg, hnoEdge, h.tReg, hlast]
    rw [hperiod]
    refine ⟨h.fstateNext, h.fstateNext, rfl, h.divStart, h.divUnit, h.pstateReg, rfl, ?_, ?_⟩
    · rw [BitVec.toNat_add, h.tReg, hmod]
      change (m % clkCount + 1) % 2 ^ 16 = _
      omega
    · rw [h.pReg, hdiv]

/-- The samples up to the next edge. -/
theorem Counting.run {m : ℕ} {last : Bool} (h : Counting clkCount m last s) (factor : BitVec 23)
    (hc : 0 < clkCount) (hle : clkCount ≤ 2 ^ 16) {samples : List Bool}
    (hfall : List.IsChain (fun a b => b = true → a = true) (last :: samples)) :
    Counting clkCount (m + samples.length) ((last :: samples).getLast (by simp))
      (s.run clkCount factor samples) := by
  induction samples generalizing m last s with
  | nil => exact h
  | cons sensor1 samples ih =>
      rw [List.isChain_cons_cons] at hfall
      have hrest := ih (h.clk factor hc hle hfall.1) hfall.2
      rw [List.getLast_cons (List.cons_ne_nil _ _), List.length_cons]
      rw [show m + (samples.length + 1) = m + 1 + samples.length by omega]
      exact hrest

/-! ## After the second edge -/

/-- The edges of the clock from the second edge of the sensor to the result; `p` is the period. -/
inductive Stage (dvnd p : ℕ) : ℕ → Sensor → Prop where
  | counted {s : Sensor} (hreg : s.fstateReg = .count) (hnext : s.fstateNext = .count)
      (hdiv : s.divStart = false) (hunit : s.divUnit.stateReg = .idle)
      (hdone : s.prdCountUnit.pstateReg = .done)
      (hp : s.prdCountUnit.pReg.toNat = p) : Stage dvnd p 0 s
  | starting {s : Sensor} (hreg : s.fstateReg = .count) (hnext : s.fstateNext = .frq)
      (hdiv : s.divStart = true) (hunit : s.divUnit.stateReg = .idle)
      (hidle : s.prdCountUnit.pstateReg = .idle)
      (hp : s.prdCountUnit.pReg.toNat = p) : Stage dvnd p 1 s
  | dividing {s : Sensor} {k q : ℕ} (hk : k ≤ 23) (hreg : s.fstateReg = .frq)
      (hnext : s.fstateNext = .frq) (hunit : Div.Dividing dvnd p k q s.divUnit) :
      Stage dvnd p (k + 2) s
  | divided {s : Sensor} (hreg : s.fstateReg = .frq) (hnext : s.fstateNext = .frq)
      (hdone : s.divUnit.stateReg = .done)
      (hrl : s.divUnit.rlReg.toNat = Div.quotient dvnd p) : Stage dvnd p 26 s
  | turning {s : Sensor} (hreg : s.fstateReg = .frq) (hnext : s.fstateNext = .calc1)
      (hdiv : s.divStart = false) (hunit : s.divUnit.stateReg = .idle)
      (hrl : s.divUnit.rlReg.toNat = Div.quotient dvnd p) : Stage dvnd p 27 s
  | publishing {s : Sensor} (hreg : s.fstateReg = .calc1)
      (hrl : s.divUnit.rlReg.toNat = Div.quotient dvnd p) : Stage dvnd p 28 s
  | published {s : Sensor} (hresult : s.result.toNat = Div.quotient dvnd p % 2 ^ 16) :
      Stage dvnd p 29 s

theorem Stage.clk {p k : ℕ} (h : Stage factor.toNat p k s) (hk : k < 29) (hp : p < 2 ^ 17)
    (sensor1 : Bool) : Stage factor.toNat p (k + 1) (s.clk clkCount factor sensor1) := by
  cases h with
  | counted hreg hnext hdiv hunit hdone hcount =>
      have hfsm : s.fsm = { s with prdStart := false, divStart := true, fstateNext := .frq } := by
        simp [fsm, hreg, PeriodCounter.doneTick, hdone]
      have hperiod : s.prdCountUnit.clk clkCount s.prdStart sensor1 =
          { s.prdCountUnit with pstateReg := .idle, delayReg := sensor1 } := by
        simp [PeriodCounter.clk, PeriodCounter.next, hdone]
      rw [Sensor.clk, hfsm, hperiod, hdiv, div_clk_idle hunit]
      exact .starting hnext rfl rfl hunit rfl hcount
  | starting hreg hnext hdiv hunit hidle hcount =>
      have hfsm : s.fsm = { s with prdStart := false } := by
        simp [fsm, hreg, PeriodCounter.doneTick, hidle]
      have hdvsr : (s.prdCountUnit.pReg.setWidth 23).toNat = p := by
        rw [BitVec.toNat_setWidth, hcount, Nat.mod_eq_of_lt (by omega)]
      have hstart := Div.dividing_start factor (s.prdCountUnit.pReg.setWidth 23)
      rw [hdvsr] at hstart
      rw [Sensor.clk, hfsm, hdiv, div_clk_start hunit]
      exact .dividing (Nat.zero_le 23) hnext hnext hstart
  | dividing hle hreg hnext hunit =>
      rename_i k q
      have hbusy : s.divUnit.doneTick = false := by
        rw [Div.doneTick, hunit.stateReg]
        split_ifs <;> rfl
      have hfsm : s.fsm = { s with divStart := false } := by
        simp [fsm, hreg, hbusy]
      rw [Sensor.clk, hfsm]
      by_cases hlast : k = 23
      · subst hlast
        obtain ⟨hdone, hrl⟩ := hunit.last factor.isLt s.divStart
          (s.prdCountUnit.pReg.setWidth 23) factor
        exact .divided hnext hnext hdone hrl
      · exact .dividing (by omega) hnext hnext
          (hunit.clk (by omega) (by omega) s.divStart (s.prdCountUnit.pReg.setWidth 23) factor)
  | divided hreg hnext hdone hrl =>
      have hfsm : s.fsm.fstateNext = .calc1 ∧ s.fsm.divStart = false := by
        cases hflag : s.firstFlag <;> simp [fsm, hreg, hflag, Div.doneTick, hdone]
      rw [Sensor.clk, div_clk_done hdone]
      exact .turning hnext hfsm.1 hfsm.2 rfl hrl
  | turning hreg hnext hdiv hunit hrl =>
      rw [Sensor.clk, hdiv, div_clk_idle hunit]
      exact .publishing hnext hrl
  | publishing hreg hrl =>
      have hfsm : s.fsm.result = s.divUnit.rlReg.setWidth 16 := by
        simp [fsm, hreg]
      refine .published ?_
      rw [Sensor.clk]
      change s.fsm.result.toNat = _
      rw [hfsm, BitVec.toNat_setWidth, hrl]
  | published hresult => omega

theorem Stage.run {p k : ℕ} (h : Stage factor.toNat p k s) (clkCount : ℕ) (hp : p < 2 ^ 17)
    {samples : List Bool} (hk : k + samples.length ≤ 29) :
    Stage factor.toNat p (k + samples.length) (s.run clkCount factor samples) := by
  induction samples generalizing k s with
  | nil => exact h
  | cons sensor1 samples ih =>
      rw [List.length_cons] at hk ⊢
      rw [show k + (samples.length + 1) = k + 1 + samples.length by omega]
      exact ih (h.clk (by omega) hp sensor1) (by omega)

/-- The second edge. -/
theorem Counting.stage {m : ℕ} (h : Counting clkCount m false s) (factor : BitVec 23) :
    Stage factor.toNat (m / clkCount % 2 ^ 17) 0 (s.clk clkCount factor true) := by
  have hfsm : s.fsm = { s with prdStart := false } := by
    simp [fsm, h.fstateReg, PeriodCounter.doneTick, h.pstateReg]
  have hperiod : s.prdCountUnit.clk clkCount s.prdStart true =
      { s.prdCountUnit with pstateReg := .done, delayReg := true } := by
    simp [PeriodCounter.clk, PeriodCounter.next, PeriodCounter.edge, h.pstateReg, h.delayReg]
  rw [Sensor.clk, hfsm, hperiod, h.divStart, div_clk_idle h.divUnit]
  exact .counted h.fstateNext h.fstateNext rfl h.divUnit rfl h.pReg

theorem Stage.result_eq {p : ℕ} (h : Stage factor.toNat p 29 s) :
    s.result.toNat = Div.quotient factor.toNat p % 2 ^ 16 := by
  cases h with
  | dividing hle _ _ _ => omega
  | published hresult => exact hresult

end Sensor

end TruckControl
