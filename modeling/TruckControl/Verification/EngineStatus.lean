import TruckControl.Library.Ranking
import TruckControl.Model.EngineStatus
import TruckControl.Verification.FpgaCommands

/-!
# The status bit for a running engine

Wherever `rev_limit_unit` is, its two waits are over within a bounded number of clock edges.
-/

namespace TruckControl

namespace RevLimitUnit

variable {s : RevLimitUnit} {i : RevIn}

/-! ## The waits -/

/-- What the two registers of the timer have left to count. -/
def left (s : RevLimitUnit) : ℕ :=
  (timeDelay6 + 1 - s.timeDelayReg6.toNat) + (timeDelay6 + 1 - s.timeDelayNext6.toNat)

/-- The timer is up. -/
def Up (s : RevLimitUnit) : Prop := s.timeDelayReg6.toNat > timeDelay6

instance : DecidablePred Up := fun _ => inferInstanceAs (Decidable (_ > _))

theorem left_le (s : RevLimitUnit) : s.left ≤ 2 * timeDelay6 + 2 := by
  rw [left]
  omega

/-- In the first wait the process goes from one state to the other as the timer is up. -/
theorem clk_revStart1 (hreg : s.revReg = .revStart1) (hup : s.Up) (i : RevIn) :
    s.clk i =
      { s with
        revReg := s.revNext
        revNext := .revStart2
        timeDelayReg6 := s.timeDelayNext6
        timeDelayNext6 := 0 } := by
  rw [Up] at hup
  simp only [clk, revCase, hreg, if_pos hup]

theorem clk_revStart2 (hreg : s.revReg = .revStart2) (hup : s.Up) (i : RevIn) :
    s.clk i =
      { s with
        revReg := s.revNext
        revNext := .revDone
        timeDelayReg6 := s.timeDelayNext6
        timeDelayNext6 := 0
        stlvEngineRunning := gtInteger s.urpmResult timeDelay500Rpm } := by
  rw [Up] at hup
  simp only [clk, revCase, hreg, if_pos hup]

/-- Until then it counts. -/
theorem clk_wait (hreg : s.revReg = .revStart1 ∨ s.revReg = .revStart2) (hup : ¬ s.Up)
    (i : RevIn) :
    s.clk i =
      { s with
        revReg := s.revNext
        timeDelayReg6 := s.timeDelayNext6
        timeDelayNext6 := s.timeDelayReg6 + 1 } := by
  rw [Up] at hup
  rcases hreg with hreg | hreg <;> simp only [clk, revCase, hreg, if_neg hup]

theorem clk_revDone (hreg : s.revReg = .revDone) (i : RevIn) :
    s.clk i =
      { s with
        revReg := s.revNext
        revNext := .revIdle
        timeDelayReg6 := s.timeDelayNext6 } := by
  simp only [clk, revCase, hreg]

theorem clk_override_on (hreg : s.revReg = .revIdle) (hon : i.stlvRevLimitOverride = true) :
    s.clk i =
      { s with
        revReg := s.revNext
        revNext := .revIdle
        timeDelayReg6 := s.timeDelayNext6
        revLimit := true } := by
  simp only [clk, revCase, hreg, hon, if_true]

theorem left_wait (hup : ¬ s.Up) :
    (timeDelay6 + 1 - s.timeDelayNext6.toNat) +
      (timeDelay6 + 1 - (s.timeDelayReg6 + 1).toNat) + 1 = s.left := by
  rw [Up] at hup
  have hsucc : (s.timeDelayReg6 + 1).toNat = s.timeDelayReg6.toNat + 1 := by
    rw [BitVec.toNat_add, Nat.mod_eq_of_lt]
    · rfl
    · rw [timeDelay6] at hup
      change s.timeDelayReg6.toNat + 1 < _
      omega
  rw [hsucc, left]
  omega

/-! ## To `rev_idle` -/

/-- A bound on the edges until both registers of the state are `rev_idle`. -/
def restRank (s : RevLimitUnit) : ℕ :=
  match s.revReg, s.revNext with
  | .revIdle, .revIdle => 0
  | .revDone, .revIdle => 1
  | .revIdle, .revDone | .revDone, .revDone => 2
  | .revStart2, .revIdle | .revStart2, .revDone => 3
  | .revIdle, .revStart2 | .revDone, .revStart2 => 4
  | .revStart1, .revIdle | .revStart1, .revDone => 5
  | .revIdle, .revStart1 | .revDone, .revStart1 => 6
  | .revStart2, .revStart2 => s.left + 6
  | .revStart1, .revStart2 => s.left + (timeDelay6 + 2) + 6
  | .revStart1, .revStart1 | .revStart2, .revStart1 => s.left + (2 * timeDelay6 + 4) + 6

/-- Nothing is under way. -/
def AtRest (s : RevLimitUnit) : Prop := s.revReg = .revIdle ∧ s.revNext = .revIdle

theorem restRank_le (s : RevLimitUnit) : s.restRank ≤ 4 * timeDelay6 + 12 := by
  have hleft := s.left_le
  rw [restRank]
  split <;> omega

theorem restRank_clk (h : s.revReg ≠ .revIdle ∨ i.stlvRevLimitOverride = true)
    (hrest : ¬ s.AtRest) : (s.clk i).restRank < s.restRank := by
  cases hreg : s.revReg with
  | revIdle =>
      have hon : i.stlvRevLimitOverride = true := h.resolve_left (fun hne => hne hreg)
      rw [clk_override_on hreg hon]
      cases hnext : s.revNext with
      | revIdle => exact absurd ⟨hreg, hnext⟩ hrest
      | revStart1 | revStart2 | revDone => simp [restRank, hreg, hnext]
  | revDone =>
      rw [clk_revDone hreg]
      cases hnext : s.revNext <;> simp [restRank, hreg, hnext]
  | revStart1 =>
      by_cases hup : s.Up
      · rw [clk_revStart1 hreg hup]
        have hzero : s.timeDelayReg6.toNat > timeDelay6 := hup
        cases hnext : s.revNext <;> simp [restRank, hreg, hnext, left] <;> omega
      · have hwait := left_wait hup
        rw [clk_wait (Or.inl hreg) hup]
        cases hnext : s.revNext <;> simp [restRank, hreg, hnext, left] at hwait ⊢ <;> omega
  | revStart2 =>
      by_cases hup : s.Up
      · rw [clk_revStart2 hreg hup]
        cases hnext : s.revNext <;> simp [restRank, hreg, hnext]
      · have hwait := left_wait hup
        rw [clk_wait (Or.inr hreg) hup]
        cases hnext : s.revNext <;> simp [restRank, hreg, hnext, left] at hwait ⊢ <;> omega

/-! ## To a decision -/

/-- The next edge decides. -/
def AtDecision (s : RevLimitUnit) : Prop := s.revReg = .revStart2 ∧ s.Up

instance : DecidablePred AtDecision := fun _ => inferInstanceAs (Decidable (_ ∧ _))

theorem clk_override_off (hreg : s.revReg = .revIdle) (hoff : i.stlvRevLimitOverride = false) :
    ∃ limit, s.clk i =
      { s with
        revReg := s.revNext
        revNext := .revStart1
        timeDelayReg6 := s.timeDelayNext6
        urpmResult := i.rpmResult
        revLimit := limit } := by
  simp only [clk, revCase, hreg, hoff, Bool.false_eq_true, if_false]
  exact ⟨_, rfl⟩

/-- A bound on the edges until then, if the override is off. -/
def decisionRank (s : RevLimitUnit) : ℕ :=
  let waits := 4 * timeDelay6 + 6
  match s.revReg, s.revNext with
  | .revStart2, .revStart2 => s.left
  | .revStart1, .revStart2 => s.left + (timeDelay6 + 2)
  | .revStart1, .revStart1 | .revStart2, .revStart1 => s.left + (2 * timeDelay6 + 4)
  | .revIdle, .revStart1 | .revIdle, .revStart2 => waits + 1
  | .revIdle, .revIdle => waits + 2
  | .revStart1, .revIdle | .revStart2, .revIdle | .revDone, .revIdle => waits + 3
  | .revDone, .revStart1 | .revDone, .revStart2 | .revDone, .revDone => waits + 4
  | .revIdle, .revDone | .revStart1, .revDone | .revStart2, .revDone => waits + 5

theorem decisionRank_le (s : RevLimitUnit) : s.decisionRank ≤ 4 * timeDelay6 + 11 := by
  have hleft := s.left_le
  rw [decisionRank]
  split <;> omega

theorem decisionRank_clk (hoff : i.stlvRevLimitOverride = false) (hdecision : ¬ s.AtDecision) :
    (s.clk i).decisionRank < s.decisionRank := by
  cases hreg : s.revReg with
  | revIdle =>
      obtain ⟨limit, hclk⟩ := clk_override_off hreg hoff
      rw [hclk]
      cases hnext : s.revNext <;> simp [decisionRank, hreg, hnext, left] <;> omega
  | revDone =>
      rw [clk_revDone hreg]
      cases hnext : s.revNext <;> simp [decisionRank, hreg, hnext]
  | revStart1 =>
      by_cases hup : s.Up
      · rw [clk_revStart1 hreg hup]
        have hzero : s.timeDelayReg6.toNat > timeDelay6 := hup
        cases hnext : s.revNext <;> simp [decisionRank, hreg, hnext, left] <;> omega
      · have hwait := left_wait hup
        rw [clk_wait (Or.inl hreg) hup]
        cases hnext : s.revNext <;> simp [decisionRank, hreg, hnext, left] at hwait ⊢ <;> omega
  | revStart2 =>
      have hup : ¬ s.Up := fun h => hdecision ⟨hreg, h⟩
      have hwait := left_wait hup
      rw [clk_wait (Or.inr hreg) hup]
      cases hnext : s.revNext <;> simp [decisionRank, hreg, hnext, left] at hwait ⊢ <;> omega

/-! ## What is decided -/

/-- Sixteen million is more than seventeen bits hold. -/
theorem gtInteger_timeDelay500Rpm (x : BitVec 16) :
    gtInteger x timeDelay500Rpm = decide (9216 < x.toNat) := by
  have hx := x.isLt
  rw [gtInteger, BitVec.slt, BitVec.toInt_setWidth]
  rw [show (BitVec.ofNat 17 timeDelay500Rpm).toInt = 9216 from rfl]
  rw [Int.bmod_eq_of_le (by omega) (by omega)]
  simp only [decide_eq_decide]
  omega

theorem stlvEngineRunning_clk (s : RevLimitUnit) (i : RevIn) :
    (s.clk i).stlvEngineRunning =
      if s.AtDecision then gtInteger s.urpmResult timeDelay500Rpm else s.stlvEngineRunning := by
  cases hreg : s.revReg with
  | revIdle | revStart1 =>
      simp only [clk, revCase, hreg, AtDecision, reduceCtorEq, false_and, if_false]
      split_ifs <;> rfl
  | revDone => simp only [clk, revCase, hreg, AtDecision, reduceCtorEq, false_and, if_false]
  | revStart2 =>
      simp only [clk, revCase, hreg, AtDecision, Up, true_and]
      split_ifs <;> rfl

theorem urpmResult_clk (s : RevLimitUnit) (i : RevIn) :
    (s.clk i).urpmResult =
      if s.revReg = .revIdle ∧ i.stlvRevLimitOverride = false then i.rpmResult
      else s.urpmResult := by
  cases hreg : s.revReg with
  | revIdle =>
      cases hon : i.stlvRevLimitOverride with
      | true =>
          simp only [clk, revCase, hreg, hon, Bool.true_eq_false, and_false, if_true, if_false]
      | false => simp [clk, revCase, hreg, hon]
  | revStart1 | revStart2 =>
      simp only [clk, revCase, hreg, reduceCtorEq, false_and, if_false]
      split_ifs <;> rfl
  | revDone => simp only [clk, revCase, hreg, reduceCtorEq, false_and, if_false]

/-- The pass under way will come to a decision though the override is on. -/
def pending (s : RevLimitUnit) : Bool :=
  match s.revReg, s.revNext with
  | .revStart1, .revStart1 | .revStart1, .revStart2 => true
  | .revStart2, .revStart1 | .revStart2, .revStart2 => true
  | .revStart2, .revIdle | .revStart2, .revDone => s.Up
  | .revIdle, .revStart2 | .revDone, .revStart2 => s.timeDelayNext6.toNat > timeDelay6
  | _, _ => false

/-- The flag after that. -/
def finalFlag (s : RevLimitUnit) : Bool :=
  if s.pending then gtInteger s.urpmResult timeDelay500Rpm else s.stlvEngineRunning

theorem AtDecision.pending_eq (h : s.AtDecision) : s.pending = true := by
  obtain ⟨hreg, hup⟩ := h
  cases hnext : s.revNext <;> simp [pending, hreg, hnext, hup]

theorem AtRest.finalFlag_eq (h : s.AtRest) : s.finalFlag = s.stlvEngineRunning := by
  simp [finalFlag, pending, h.1, h.2]

theorem pending_clk (hon : i.stlvRevLimitOverride = true) (hdecision : ¬ s.AtDecision) :
    (s.clk i).pending = s.pending := by
  cases hreg : s.revReg with
  | revIdle =>
      rw [clk_override_on hreg hon]
      cases hnext : s.revNext <;> simp [pending, hreg, hnext, Up]
  | revDone =>
      rw [clk_revDone hreg]
      cases hnext : s.revNext <;> simp [pending, hreg, hnext, Up]
  | revStart1 =>
      by_cases hup : s.Up
      · rw [clk_revStart1 hreg hup]
        cases hnext : s.revNext <;> simp [pending, hreg, hnext]
      · rw [clk_wait (Or.inl hreg) hup]
        cases hnext : s.revNext <;> simp [pending, hreg, hnext]
  | revStart2 =>
      have hup : ¬ s.Up := fun h => hdecision ⟨hreg, h⟩
      rw [clk_wait (Or.inr hreg) hup]
      cases hnext : s.revNext <;> simp [pending, hreg, hnext, hup]

/-- With the override on it is settled what the flag will be. -/
theorem finalFlag_clk (hon : i.stlvRevLimitOverride = true) :
    (s.clk i).finalFlag = s.finalFlag := by
  have hurpm : (s.clk i).urpmResult = s.urpmResult := by
    rw [urpmResult_clk, hon]
    simp
  by_cases hdecision : s.AtDecision
  · rw [finalFlag, finalFlag, stlvEngineRunning_clk, hurpm, if_pos hdecision,
      if_pos hdecision.pending_eq, ite_self]
  · rw [finalFlag, finalFlag, stlvEngineRunning_clk, hurpm, if_neg hdecision,
      pending_clk hon hdecision]

end RevLimitUnit

namespace EngineStatus

open RevLimitUnit Transition

variable {s : EngineStatus} {rpm : BitVec 16} {override v : Bool}

/-- `stlv_status3(3)`. -/
def statusBit (s : EngineStatus) : Bool := s.link.calcProc1.stlvStatus3.getLsbD 3

/-! ## From the flag to the status bit -/

theorem stlvStatus3_mcmdCase (mcmd : UCHAR) (download : ℕ → UCHAR) (c : CalcSignals) :
    (c.mcmdCase mcmd download).stlvStatus3.getLsbD 3 = c.stlvStatus3.getLsbD 3 := by
  rw [CalcSignals.mcmdCase]
  cases Mcmd.ofByte mcmd with
  | none => rfl
  | some cmd =>
      cases cmd with
      | adcCtl | revLimitOverride | fuelPumpOverride =>
          exact (Byte.getLsbD_assign _ _ 3 _ (by decide)).trans (if_neg (by decide))
      | setAdcRate2 =>
          change ((download 0).extractLsb' 0 4 ++ c.stlvStatus3.extractLsb' 0 4).getLsbD 3 = _
          rw [BitVec.getLsbD_append, if_pos (by decide), BitVec.getLsbD_extractLsb']
          rfl
      | _ => rfl

theorem statusBit_clk (s : EngineStatus) (e : StatusEdge) :
    (s.clk e).statusBit =
      if s.link.calcProc1.mainReg1 = .idle1a then s.revLimitUnit.stlvEngineRunning
      else s.statusBit := by
  rw [statusBit, statusBit, clk, CommandLink.clk, CalcSignals.clk]
  cases hreg : s.link.calcProc1.mainReg1 with
  | idle1a =>
      have hassign := (Byte.getLsbD_assign s.link.calcProc1.stlvStatus3 3 3
        s.revLimitUnit.stlvEngineRunning (by decide)).trans (if_pos rfl)
      simp only [if_true]
      split_ifs
      · rw [stlvStatus3_mcmdCase]
        exact hassign
      · exact hassign
  | doMcmd | otherCmd => simp

/-- How many edges there are at most until `calc_proc1` is idle. -/
def idleRank (s : EngineStatus) : ℕ :=
  match s.link.calcProc1.mainReg1, s.link.calcProc1.mainNext1 with
  | .idle1a, _ => 0
  | _, .idle1a => 1
  | _, _ => 2

theorem idleRank_le (s : EngineStatus) : s.idleRank ≤ 2 := by
  rw [idleRank]
  split <;> omega

theorem idleRank_clk (e : StatusEdge) (hbusy : s.link.calcProc1.mainReg1 ≠ .idle1a) :
    (s.clk e).idleRank < s.idleRank := by
  have hclk : (s.clk e).link.calcProc1.mainReg1 = s.link.calcProc1.mainNext1 ∧
      (s.clk e).link.calcProc1.mainNext1 = .idle1a := by
    rw [clk, CommandLink.clk, CalcSignals.clk, CalcProc1.clk]
    cases hreg : s.link.calcProc1.mainReg1 with
    | idle1a => exact absurd hreg hbusy
    | doMcmd | otherCmd => exact ⟨rfl, rfl⟩
  rw [idleRank, idleRank, hclk.1, hclk.2]
  cases hreg : s.link.calcProc1.mainReg1 with
  | idle1a => exact absurd hreg hbusy
  | doMcmd | otherCmd => cases s.link.calcProc1.mainNext1 <;> simp

/-- The status bit follows a flag that stays. -/
theorem statusBit_exec {ok : EngineStatus → StatusEdge → Prop} {I : EngineStatus → Prop}
    (hinv : ∀ s e, I s → ok s e → I (s.clk e))
    (hflag : ∀ s, I s → s.revLimitUnit.stlvEngineRunning = v) (hs : I s) {es : List StatusEdge}
    (hm : Meets clk ok s es) (hlength : 3 ≤ es.length) :
    (exec clk s es).revLimitUnit.stlvEngineRunning = v ∧ (exec clk s es).statusBit = v := by
  have hrank := s.idleRank_le
  obtain ⟨fs, e, gs, rfl, -, hfs, hidle, he, hgs⟩ := exists_taken idleRank hinv
    (fun s e _ _ hbusy => idleRank_clk e hbusy) hs hm (by omega)
  have hbit : ((exec clk s fs).clk e).statusBit = v := by
    rw [statusBit_clk, if_pos hidle, hflag _ hfs]
  have hboth := inv_exec_of_meets (I := fun s => I s ∧ s.statusBit = v)
    (fun t e ht hok => ⟨hinv t e ht.1 hok, by
      rw [statusBit_clk, hflag t ht.1, ht.2, ite_self]⟩)
    ⟨hinv _ e hfs he, hbit⟩ hgs
  rw [exec_append, exec_concat]
  exact ⟨hflag _ hboth.1, hboth.2⟩

/-! ## Forty million edges -/

/-- The speed and the override are these. -/
def Held (rpm : BitVec 16) (override : Bool) (s : EngineStatus) (e : StatusEdge) : Prop :=
  e.rpmResult = rpm ∧ s.link.calcProc1.stlvRevLimitOverride = override

/-- A run in which they stay. -/
structure SteadyRun (rpm : BitVec 16) (override : Bool) (s : EngineStatus) where
  edges : List StatusEdge
  length_edges : edges.length = 40000000
  held : Meets clk (Held rpm override) s edges

/-- The state at its end. -/
def SteadyRun.last (r : SteadyRun rpm override s) : EngineStatus := exec clk s r.edges

/-- The flag that it comes to. -/
def settledFlag (rpm : BitVec 16) (override : Bool) (s : RevLimitUnit) : Bool :=
  if override then s.finalFlag else gtInteger rpm timeDelay500Rpm

/-- A speed that was sampled stays if it is the only one. -/
theorem urpmResult_held (t : EngineStatus) (e : StatusEdge)
    (ht : t.revLimitUnit.urpmResult = rpm) (he : Held rpm false t e) :
    (t.clk e).revLimitUnit.urpmResult = rpm := by
  rw [clk, urpmResult_clk, ht, revIn, he.1, ite_self]

/-- The next visit of `rev_idle` samples the speed. -/
theorem exists_sampled {es : List StatusEdge} (hm : Meets clk (Held rpm false) s es)
    (hlength : 4 * timeDelay6 + 12 < es.length) :
    ∃ fs gs, es = fs ++ gs ∧ fs.length ≤ 4 * timeDelay6 + 13 ∧
      (exec clk s fs).revLimitUnit.urpmResult = rpm ∧
      Meets clk (Held rpm false) (exec clk s fs) gs := by
  have hrest := s.revLimitUnit.restRank_le
  obtain ⟨fs, e, gs, rfl, hfs, -, hidle, he, hgs⟩ := exists_taken
    (fun t : EngineStatus => t.revLimitUnit.restRank) (I := fun _ => True)
    (G := fun t => t.revLimitUnit.revReg = .revIdle) (fun _ _ _ _ => trivial)
    (fun t e _ _ hreg => restRank_clk (Or.inl hreg) (fun h => hreg h.1)) trivial hm (by omega)
  refine ⟨fs ++ [e], gs, rfl, ?_, ?_, ?_⟩
  · rw [List.length_append, List.length_singleton]
    omega
  · rw [exec_concat, clk, urpmResult_clk, if_pos ⟨hidle, he.2⟩]
    exact he.1
  · rw [exec_concat]
    exact hgs

/-- And then a decision about it is made. -/
theorem exists_decided (hs : s.revLimitUnit.urpmResult = rpm) {es : List StatusEdge}
    (hm : Meets clk (Held rpm false) s es) (hlength : 4 * timeDelay6 + 11 < es.length) :
    ∃ fs gs, es = fs ++ gs ∧ fs.length ≤ 4 * timeDelay6 + 12 ∧
      ((exec clk s fs).revLimitUnit.urpmResult = rpm ∧
        (exec clk s fs).revLimitUnit.stlvEngineRunning = gtInteger rpm timeDelay500Rpm) ∧
      Meets clk (Held rpm false) (exec clk s fs) gs := by
  have hdecision := s.revLimitUnit.decisionRank_le
  obtain ⟨fs, e, gs, rfl, hfs, hsampled, hdecide, he, hgs⟩ := exists_taken
    (fun t : EngineStatus => t.revLimitUnit.decisionRank)
    (G := fun t => t.revLimitUnit.AtDecision) urpmResult_held
    (fun t e _ he hno => decisionRank_clk he.2 hno) hs hm (by omega)
  refine ⟨fs ++ [e], gs, rfl, ?_, ?_, ?_⟩
  · rw [List.length_append, List.length_singleton]
    omega
  · rw [exec_concat]
    refine ⟨urpmResult_held _ e hsampled he, ?_⟩
    rw [clk, stlvEngineRunning_clk, if_pos hdecide, hsampled]
  · rw [exec_concat]
    exact hgs

theorem last_off (r : SteadyRun rpm false s) :
    r.last.revLimitUnit.stlvEngineRunning = gtInteger rpm timeDelay500Rpm ∧
      r.last.statusBit = gtInteger rpm timeDelay500Rpm := by
  have htimer : timeDelay6 = 4191300 := rfl
  have hlength := r.length_edges
  obtain ⟨fs, gs, hsplit, hfs, hsampled, hgs⟩ := exists_sampled r.held (by omega)
  rw [hsplit, List.length_append] at hlength
  obtain ⟨fs', gs', rfl, hfs', hdecided, hgs'⟩ := exists_decided hsampled hgs (by omega)
  rw [List.length_append] at hlength
  rw [SteadyRun.last, hsplit, exec_append, exec_append]
  refine statusBit_exec (I := fun t => t.revLimitUnit.urpmResult = rpm ∧
    t.revLimitUnit.stlvEngineRunning = gtInteger rpm timeDelay500Rpm)
    (fun t e ht he => ⟨urpmResult_held t e ht.1 he, ?_⟩) (fun t ht => ht.2) hdecided hgs'
    (by omega)
  rw [clk, stlvEngineRunning_clk, ht.1, ht.2, ite_self]

/-- With the override on the process comes to rest, after the decision that is pending. -/
theorem last_on (r : SteadyRun rpm true s) :
    r.last.revLimitUnit.stlvEngineRunning = s.revLimitUnit.finalFlag ∧
      r.last.statusBit = s.revLimitUnit.finalFlag := by
  have htimer : timeDelay6 = 4191300 := rfl
  have hlength := r.length_edges
  have hrest := s.revLimitUnit.restRank_le
  obtain ⟨fs, gs, hsplit, hfs, hflag, hatRest, hgs⟩ := exists_reached
    (fun t : EngineStatus => t.revLimitUnit.restRank)
    (I := fun t => t.revLimitUnit.finalFlag = s.revLimitUnit.finalFlag)
    (G := fun t => t.revLimitUnit.AtRest)
    (fun t e ht he => (finalFlag_clk (i := t.revIn e.rpmResult) he.2).trans ht)
    (fun t e _ he hno => restRank_clk (i := t.revIn e.rpmResult) (Or.inr he.2) hno) rfl r.held
    (by omega)
  rw [hsplit, List.length_append] at hlength
  rw [SteadyRun.last, hsplit, exec_append]
  refine statusBit_exec (I := fun t => t.revLimitUnit.AtRest ∧
    t.revLimitUnit.stlvEngineRunning = s.revLimitUnit.finalFlag)
    (fun t e ht he => ⟨?_, ?_⟩) (fun t ht => ht.2) ⟨hatRest, ?_⟩ hgs (by omega)
  · rw [clk, clk_override_on ht.1.1 he.2]
    exact ⟨ht.1.2, rfl⟩
  · rw [clk, clk_override_on ht.1.1 he.2]
    exact ht.2
  · rw [← hatRest.finalFlag_eq]
    exact hflag

theorem last_eq (r : SteadyRun rpm override s) :
    r.last.revLimitUnit.stlvEngineRunning = settledFlag rpm override s.revLimitUnit ∧
      r.last.statusBit = settledFlag rpm override s.revLimitUnit := by
  cases override with
  | false => exact last_off r
  | true => exact last_on r

/-! ## The engine and the bit -/

/-- The flag and the status bit are set above 500 revolutions, and clear without any. -/
def Tells (rpm : BitVec 16) (s : EngineStatus) : Prop :=
  (500 < rpm.toNat → s.revLimitUnit.stlvEngineRunning = true ∧ s.statusBit = true) ∧
    (rpm = 0 → s.revLimitUnit.stlvEngineRunning = false ∧ s.statusBit = false)

/-- With the override off only the speed counts, and it is compared with 9216; with the override
on no speed does, but for one that is yet to be decided about. -/
def TellsWhen (rpm : BitVec 16) (override : Bool) (s : RevLimitUnit) : Prop :=
  if override then
    (500 < rpm.toNat → s.finalFlag = true) ∧ (rpm = 0 → s.finalFlag = false)
  else rpm.toNat ≤ 500 ∨ 9216 < rpm.toNat

theorem tells_last_iff (r : SteadyRun rpm override s) :
    Tells rpm r.last ↔ TellsWhen rpm override s.revLimitUnit := by
  obtain ⟨hflag, hbit⟩ := last_eq r
  rw [Tells, TellsWhen, hflag, hbit, settledFlag]
  cases override with
  | true => simp only [if_true, and_self]
  | false =>
      simp only [Bool.false_eq_true, if_false, and_self, gtInteger_timeDelay500Rpm,
        decide_eq_true_eq, decide_eq_false_iff_not]
      constructor
      · intro h
        by_cases hlow : rpm.toNat ≤ 500
        · exact Or.inl hlow
        · exact Or.inr (h.1 (by omega))
      · intro h
        refine ⟨fun hhigh => h.resolve_left (by omega), fun hzero => ?_⟩
        rw [hzero]
        decide

/-! ## At three thousand revolutions -/

/-- An edge at which no command comes. -/
def noCommand (rpm : BitVec 16) : StatusEdge := ⟨false, none, rpm⟩

/-- No command is under way. -/
def Uncommanded (override : Bool) (s : EngineStatus) : Prop :=
  s.link.calcProc1.stlvRevLimitOverride = override ∧ s.link.recvUart.startCalc = false ∧
    s.link.recvUart.stlvFlag = 0

theorem uncommanded_clk (h : Uncommanded override s) :
    Uncommanded override (s.clk (noCommand rpm)) := by
  obtain ⟨hoverride, hstart, hflag⟩ := h
  have hnone : s.link.doneRx ⟨false, none, s.revLimitUnit.stlvEngineRunning⟩ = none := by
    rw [CommandLink.doneRx, ite_self]
  rw [Uncommanded, clk, CommandLink.clk, noCommand, hnone]
  refine ⟨?_, ?_⟩
  · rw [CalcSignals.clk]
    cases s.link.calcProc1.mainReg1 with
    | idle1a => simp [hstart, hoverride]
    | doMcmd | otherCmd => exact hoverride
  · rw [RecvUart.clk, RecvUart.uartCase]
    cases s.link.recvUart.stateUartReg2 with
    | preIdle | next1 => exact ⟨hstart, hflag⟩
    | idle2 | done => exact ⟨rfl, hflag⟩
    | start1 => simp [hstart, hflag]

/-- Such edges from a reset. -/
def withoutCommands (c : CalcSignals) (rpm : BitVec 16) : SteadyRun rpm true (reset c) where
  edges := List.replicate 40000000 (noCommand rpm)
  length_edges := List.length_replicate
  held := by
    have hsame : Meets clk (fun _ e => e = noCommand rpm) (reset c)
        (List.replicate 40000000 (noCommand rpm)) :=
      meets_of_forall_mem (fun e => List.eq_of_mem_replicate) _
    refine meets_of_inv (I := Uncommanded true) (fun t e ht he => ?_) (fun t e ht he => ?_)
      ⟨rfl, rfl, rfl⟩ hsame
    · rw [he]
      exact uncommanded_clk ht
    · rw [he]
      exact ⟨rfl, ht.1⟩

/-- The override is on after a reset, so nothing is sampled. -/
theorem not_tells_afterReset :
    ¬ Tells 3000 (withoutCommands CommandLink.powerUp 3000).last := by
  have hflag := (last_on (withoutCommands CommandLink.powerUp 3000)).1
  intro h
  have hrunning := (h.1 (by decide)).1
  rw [hflag] at hrunning
  exact absurd hrunning (by decide)

end EngineStatus

end TruckControl
