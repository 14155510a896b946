import TruckControl.Verification.AnalogResults

/-!
# How long a round takes

Each clock edge of a round takes one off the edges that are left, whatever the chips answer.
-/

namespace TruckControl

namespace MCP3002

variable {u : MCP3002} {c : Conversion} {channel : Bool} {i : McpIn}

/-! ## One conversion -/

/-- The edges that all states but one take: two for each count and two for the end. -/
def stateEdges : ℕ := 2 * mcpTimeDelay + 4

/-- The edges from the start of a state to the end of the conversion, when the chip has been sent
`p` bits and has answered with `q`. -/
def edgesFrom (p q : ℕ) : StateMCP3002 → ℕ
  | .mStart => 0
  | .mPreshift1 =>
      stateEdges * (3 * (4 - p) + 2) + (2 * (mcpTimeDelay / 32) + 4) +
        stateEdges * (3 * (11 - q) + 2)
  | .mPreshift2 =>
      stateEdges * (3 * (4 - p) + 1) + (2 * (mcpTimeDelay / 32) + 4) +
        stateEdges * (3 * (11 - q) + 2)
  | .mPreshift3 =>
      stateEdges * (3 * (4 - p) + 3) + (2 * (mcpTimeDelay / 32) + 4) +
        stateEdges * (3 * (11 - q) + 2)
  | .mShift1 => 2 * (mcpTimeDelay / 32) + 4 + stateEdges * (3 * (11 - q) + 2)
  | .mResults0 => stateEdges * (3 * (11 - q) + 2)
  | .mResults1 => stateEdges * (3 * (11 - q) + 1)
  | .mResults2 => stateEdges * (3 * (11 - q) + 3)

/-- The edges that are left of a conversion. -/
def edgesLeft (u : MCP3002) : ℕ :=
  if u.mcp3002Next = u.mcp3002Reg then
    edgesFrom u.preShift.toNat u.shift.toNat u.mcp3002Reg -
      (u.timeDelayReg2.toNat + u.timeDelayNext2.toNat)
  else 1 + edgesFrom u.preShift.toNat u.shift.toNat u.mcp3002Next

/-- The edges of a conversion. -/
def conversionEdges : ℕ := edgesFrom 0 0 .mPreshift1

theorem le_edgesFrom {stage : StateMCP3002} (h : stage ≠ .mStart) (p q : ℕ) :
    2 * limit stage + 4 ≤ edgesFrom p q stage := by
  cases stage <;> simp only [limit, edgesFrom, stateEdges, mcpTimeDelay]
  case mStart => exact absurd rfl h
  all_goals omega

theorem follows_ne {stage stage' : StateMCP3002} (h : follows stage stage' = true) :
    stage' ≠ stage ∧ stage' ≠ .mStart := by
  revert h
  cases stage <;> cases stage' <;> decide

/-- The end of a state takes two edges more than its counts. -/
theorem edgesFrom_clk (hreg : u.mcp3002Reg ≠ .mStart) (hskip : u.skip = false)
    (hskip2 : u.skip2 = false) (holds : Holds channel c u.mcp3002Reg u)
    (hover : u.timeDelayReg2.toNat > limit u.mcp3002Reg) (i : McpIn) :
    (u.clk i).mcp3002Next ≠ u.mcp3002Reg ∧
      edgesFrom u.preShift.toNat u.shift.toNat u.mcp3002Reg =
        2 * limit u.mcp3002Reg + 4 +
          edgesFrom (u.clk i).preShift.toNat (u.clk i).shift.toNat (u.clk i).mcp3002Next := by
  have hlength := holds.length
  have hshift := holds.shift
  have hpre := holds.preShift
  cases h : u.mcp3002Reg <;> simp only [h, limit] at hover hpre ⊢
  case mStart => exact absurd h hreg
  case mPreshift2 =>
    have hle : u.preShift.toNat ≤ 4 := hpre rfl
    by_cases hlast : u.preShift.toNat > 3
    · rw [clk_mPreshift2_last h hover hskip hlast]
      refine ⟨by simp, ?_⟩
      simp only [edgesFrom, stateEdges, mcpTimeDelay]
      omega
    · have hone : (u.preShift + 1).toNat = u.preShift.toNat + 1 := toNat_add_one (by omega)
      rw [clk_mPreshift2 h hover hskip hlast]
      refine ⟨by simp, ?_⟩
      simp only [edgesFrom, stateEdges, mcpTimeDelay, hone]
      omega
  case mResults1 =>
    by_cases hlast : u.shift.toNat > 10
    · rw [clk_mResults1_last h hover hskip2 hlast]
      refine ⟨by simp, ?_⟩
      simp only [edgesFrom, stateEdges, mcpTimeDelay]
      omega
    · have hone : (u.shift + 1).toNat = u.shift.toNat + 1 := toNat_add_one (by omega)
      rw [clk_mResults1 h hover hskip2 hlast]
      refine ⟨by simp, ?_⟩
      simp only [edgesFrom, stateEdges, mcpTimeDelay, hone]
      omega
  all_goals
    have hclk : (u.clk i).preShift = u.preShift ∧ (u.clk i).shift = u.shift ∧
        follows u.mcp3002Reg (u.clk i).mcp3002Next = true := by
      simp [clk, mcpCase, h, hover, follows]
    obtain ⟨hpre', hshift', hfollows⟩ := hclk
    rw [hpre', hshift']
    rw [h] at hfollows
    refine ⟨(follows_ne hfollows).1, ?_⟩
    cases hnext : (u.clk i).mcp3002Next <;> rw [hnext] at hfollows
    all_goals simp only [follows, Bool.false_eq_true] at hfollows
    all_goals simp only [edgesFrom, stateEdges, mcpTimeDelay]
    all_goals omega

/-- An edge of a conversion is one less. -/
theorem Converting.edgesLeft_clk (h : Converting channel c u) (i : McpIn) :
    u.edgesLeft = (u.clk i).edgesLeft + 1 ∧ 2 ≤ u.edgesLeft := by
  have hreg' : (u.clk i).mcp3002Reg = u.mcp3002Next := rfl
  have htime' : (u.clk i).timeDelayReg2 = u.timeDelayNext2 := rfl
  cases h with
  | leaving hfollows hover hzero hskip hskip2 hdone holds =>
      obtain ⟨hnext', hzero', -, -, -, -, hpre, -, hshift⟩ :=
        MCP3002.clk_leaving hfollows hover hskip hskip2 i
      obtain ⟨hne, hstart⟩ := follows_ne hfollows
      have hle := le_edgesFrom hstart u.preShift.toNat u.shift.toNat
      rw [edgesLeft, edgesLeft, if_neg hne, if_pos (hnext'.trans hreg'.symm), hreg', htime',
        hzero, hzero', hpre, hshift]
      have hnone : (0 : BitVec 25).toNat = 0 := rfl
      omega
  | counting hreg hnext hcount hskip hskip2 hdone holds =>
      have hle := le_edgesFrom hreg u.preShift.toNat u.shift.toNat
      have hcases := hcount.next
      have hbound := hcount.le
      by_cases htick : u.timeDelayReg2.toNat ≤ limit u.mcp3002Reg
      · have hclk : u.clk i = { u with
            mcp3002Reg := u.mcp3002Next
            timeDelayReg2 := u.timeDelayNext2
            timeDelayNext2 := u.timeDelayReg2 + 1 } := by
          rw [MCP3002.clk, mcpCase_of_le hreg htick]
        have hone := toNat_timeDelayReg2_add_one htick
        rw [edgesLeft, edgesLeft, hclk, if_pos hnext, if_pos rfl]
        simp only [hnext, hone]
        omega
      · have hover : u.timeDelayReg2.toNat > limit u.mcp3002Reg := Nat.lt_of_not_le htick
        rw [hnext] at holds
        obtain ⟨hne, hedges⟩ := edgesFrom_clk hreg hskip hskip2 holds hover i
        rw [edgesLeft, edgesLeft, if_pos hnext, hreg', hnext, if_neg hne]
        omega

theorem Starting.edgesLeft (h : u.Starting) : u.edgesLeft = conversionEdges + 1 := by
  have hne : u.mcp3002Next ≠ u.mcp3002Reg := by
    rw [h.reg, h.next]
    decide
  rw [MCP3002.edgesLeft, if_neg hne, h.next, h.preShift, h.shift, Nat.add_comm]
  rfl

theorem Starting.edgesLeft_clk (h : u.Starting) (henable : i.enable = true)
    (hdiff : i.diff = true) (hmsbf : i.msbf = true) : (u.clk i).edgesLeft = conversionEdges := by
  rw [clk_enable h.reg henable hdiff hmsbf h.first, MCP3002.edgesLeft, if_pos h.next.symm]
  simp only [h.next, h.timeNext]
  rfl

theorem Finished.edgesLeft (h : u.Finished) : u.edgesLeft = 1 := by
  have hne : u.mcp3002Next ≠ u.mcp3002Reg := by
    rw [h.reg, h.next]
    decide
  rw [MCP3002.edgesLeft, if_neg hne, h.next]
  rfl

end MCP3002

/-! ## One round -/

namespace McpChip

variable {c : McpChip} {r : Record} {start mcpDin channel : Bool}

/-- The edges that are left of the round of a chip. -/
def edgesLeft (c : McpChip) : ℕ :=
  match c.calcProc.mainReg, c.calcProc.mainNext with
  | .idle, .start1 => 2 * MCP3002.conversionEdges + 6
  | .start1, .start1 => c.mcpUnit.edgesLeft + MCP3002.conversionEdges + 4
  | .start1, .start2 => MCP3002.conversionEdges + 4
  | .start2, .start2 => MCP3002.conversionEdges + 3
  | .start2, .start3 => MCP3002.conversionEdges + 2
  | .start3, .start3 => c.mcpUnit.edgesLeft
  | _, _ => 0

/-- The edges of a round from the one on that accepts its pulse. -/
def roundEdges : ℕ := 2 * MCP3002.conversionEdges + 6

/-- The edges of a wait for a channel. -/
theorem edgesLeft_wait (hreg : c.calcProc.mainReg = waitState channel)
    (hnext : c.calcProc.mainNext = waitState channel) :
    c.edgesLeft = c.mcpUnit.edgesLeft +
      if channel then 0 else MCP3002.conversionEdges + 4 := by
  cases channel <;> simp [edgesLeft, hreg, hnext, waitState, Nat.add_assoc]

theorem edgesLeft_clk_wait (hreg : c.calcProc.mainReg = waitState channel)
    (hnext : c.calcProc.mainNext = waitState channel) (hdone : c.mcpUnit.doneFlag = false)
    (start mcpDin : Bool) :
    (c.clk start true true mcpDin).edgesLeft = (c.mcpUnit.clk (c.mcpIn mcpDin)).edgesLeft +
      if channel then 0 else MCP3002.conversionEdges + 4 := by
  have hat := at_clk_wait start mcpDin hreg hnext hdone
  exact edgesLeft_wait hat.mainReg hat.mainNext

theorem edgesLeft_resting (hat : c.At .idle .idle false) : c.edgesLeft = 0 := by
  simp [edgesLeft, hat.mainReg, hat.mainNext]

/-- An edge of a round is one less, and at the end the process is done. -/
theorem Tracks.edgesLeft_clk (h : Tracks c r) (hbusy : 0 < c.edgesLeft) (start mcpDin : Bool) :
    c.edgesLeft = (c.clk start true true mcpDin).edgesLeft + 1 ∧
      ((c.clk start true true mcpDin).edgesLeft = 0 →
        (c.clk start true true mcpDin).calcProc.procDone = true) := by
  have hunit : (c.clk start true true mcpDin).mcpUnit = c.mcpUnit.clk (c.mcpIn mcpDin) := rfl
  have hpos : 0 < MCP3002.conversionEdges := by decide
  cases h with
  | resting hat =>
      rw [edgesLeft_resting hat] at hbusy
      cases hbusy
  | accepted hat hchannel hproc hidle =>
      have hstarting := (hidle.clk_enable (i := c.mcpIn mcpDin) hat.enable rfl rfl).edgesLeft
      have hcalc : (c.clk start true true mcpDin).calcProc.mainReg = waitState false ∧
          (c.clk start true true mcpDin).calcProc.mainNext = waitState false := by
        cases start <;>
          simp [McpChip.clk, CalcProc.clk, CalcProc.calcCase, hat.mainReg, hat.mainNext, waitState]
      have hleft : c.edgesLeft = 2 * MCP3002.conversionEdges + 6 := by
        simp [edgesLeft, hat.mainReg, hat.mainNext]
      rw [hleft, edgesLeft_wait hcalc.1 hcalc.2, hunit, hstarting]
      simp only [Bool.false_eq_true, if_false]
      refine ⟨by omega, fun hzero => absurd hzero (by omega)⟩
  | starting channel hat hchannel hproc hstarting =>
      have hleft := hstarting.edgesLeft_clk (i := c.mcpIn mcpDin) hat.enable rfl rfl
      rw [edgesLeft_wait hat.mainReg hat.mainNext, hstarting.edgesLeft,
        edgesLeft_clk_wait hat.mainReg hat.mainNext hstarting.doneFlag, hleft]
      refine ⟨by omega, fun hzero => absurd hzero (by omega)⟩
  | converting channel hat hproc hconverting =>
      obtain ⟨hleft, htwo⟩ := hconverting.edgesLeft_clk (c.mcpIn mcpDin)
      rw [edgesLeft_wait hat.mainReg hat.mainNext,
        edgesLeft_clk_wait hat.mainReg hat.mainNext hconverting.doneFlag]
      refine ⟨by omega, fun hzero => absurd hzero (by omega)⟩
  | converted channel hat hproc hfinished =>
      have hcalc := calcProc_clk_store start mcpDin hat.mainReg hfinished.doneFlag
      rw [edgesLeft_wait hat.mainReg hat.mainNext, hfinished.edgesLeft]
      cases channel with
      | false => simp [edgesLeft, hcalc, hat.mainNext, waitState, nextState]; omega
      | true => simp [edgesLeft, hcalc, hat.mainNext, waitState, nextState]
  | storing channel hat hproc hidle hdone =>
      have hcalc := calcProc_clk_store start mcpDin hat.mainReg hdone
      cases channel with
      | false => simp [edgesLeft, hcalc, hat.mainReg, hat.mainNext, waitState, nextState]
      | true => simp [edgesLeft, hat.mainReg, hat.mainNext, waitState, nextState] at hbusy
  | between hat =>
      have hcalc := calcProc_clk_start2 start mcpDin hat.mainReg
      simp [edgesLeft, hcalc, hat.mainReg, hat.mainNext]
  | asked hat hproc hidle =>
      have hcalc := calcProc_clk_start2 start mcpDin hat.mainReg
      have hstarting := (hidle.clk_enable (i := c.mcpIn mcpDin) hat.enable rfl rfl).edgesLeft
      simp [edgesLeft, hcalc, hat.mainReg, hat.mainNext, hunit, hstarting]

/-- The edge that accepts a pulse. -/
theorem edgesLeft_clk_accepts (h : c.Accepts start) (mcpDin : Bool) :
    (c.clk start true true mcpDin).edgesLeft = roundEdges := by
  obtain ⟨hreg, hnext, rfl⟩ := h
  simp [edgesLeft, McpChip.clk, CalcProc.clk, CalcProc.calcCase, hreg, hnext, roundEdges]

end McpChip

/-! ## All four chips -/

namespace AnalogInputs

variable {startShift : Fin 4 → BitVec 3} {es : ℕ → AdcEdge}

theorem chips_run_succ (startShift : Fin 4 → BitVec 3) (es : ℕ → AdcEdge) (n : ℕ) (k : Fin 4) :
    (run startShift es (n + 1)).mcpWrapper.chips k =
      ((run startShift es n).mcpWrapper.chips k).clk (run startShift es n).mcpUnit.startMcp
        true true ((es n).mcpDin k) := by
  have hin := inStep_run startShift es n
  rw [run, clk, McpWrapper.chips_clk, hin.diff, hin.msbf]

/-- When no edge of its round is left a process is done. -/
theorem procDone_run {n left : ℕ} {k : Fin 4}
    (hleft : ((run startShift es n).mcpWrapper.chips k).edgesLeft = left + 1) :
    ((run startShift es (n + (left + 1))).mcpWrapper.chips k).calcProc.procDone = true := by
  induction left generalizing n with
  | zero =>
      obtain ⟨hclk, hdone⟩ := ((inStep_run startShift es n).tracks k).edgesLeft_clk
        (by omega) (run startShift es n).mcpUnit.startMcp ((es n).mcpDin k)
      rw [chips_run_succ]
      exact hdone (by omega)
  | succ left ih =>
      obtain ⟨hclk, -⟩ := ((inStep_run startShift es n).tracks k).edgesLeft_clk
        (by omega) (run startShift es n).mcpUnit.startMcp ((es n).mcpDin k)
      rw [← chips_run_succ] at hclk
      have hrest := ih (n := n + 1) (by omega)
      have hindex : n + 1 + (left + 1) = n + (left + 1 + 1) := by omega
      rw [hindex] at hrest
      exact hrest

/-- The round of every pulse that a process accepts is over after the same number of edges. -/
theorem roundOver_of_accepts {n : ℕ} {k : Fin 4}
    (h : ((run startShift es n).mcpWrapper.chips k).Accepts
      (run startShift es n).mcpUnit.startMcp) :
    (run startShift es (n + 1 + McpChip.roundEdges)).RoundOver := by
  have hin := inStep_run startShift es n
  intro k'
  have haccepts : ((run startShift es n).mcpWrapper.chips k').Accepts
      (run startShift es n).mcpUnit.startMcp :=
    (McpChip.accepts_congr ((hin.control k').trans (hin.control k).symm) _).mpr h
  have hleft : ((run startShift es (n + 1)).mcpWrapper.chips k').edgesLeft =
      McpChip.roundEdges := by
    rw [chips_run_succ]
    exact McpChip.edgesLeft_clk_accepts haccepts _
  exact procDone_run hleft

example : McpChip.roundEdges = 196530 := by decide

example : ((run (fun _ => 0) (fun _ => ⟨0, true, fun _ => false⟩) 3).mcpWrapper.chips 0).Accepts
    (run (fun _ => 0) (fun _ => ⟨0, true, fun _ => false⟩) 3).mcpUnit.startMcp := by decide

end AnalogInputs

end TruckControl
