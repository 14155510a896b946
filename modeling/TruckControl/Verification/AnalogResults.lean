import TruckControl.Verification.AnalogRounds

/-!
# The results of the analog inputs

No data reaches the control of a chip, so the four chips with their processes stay in step, and
what is copied when all of them are done is of one round.
-/

namespace TruckControl

/-! ## In step -/

namespace MCP3002

/-- A unit without its data. -/
def control (u : MCP3002) : MCP3002 :=
  { u with results := 0, startShift := 0, mcpDout := false, rawRegister := 0 }

theorem control_clk (u : MCP3002) (i : McpIn) :
    (u.clk i).control = (u.control.clk { i with mcpDin := false }).control := by
  cases h : u.mcp3002Reg <;> simp only [clk, mcpCase, control, h] <;> split_ifs <;> rfl

end MCP3002

namespace CalcProc

/-- A process without its data. -/
def control (s : CalcProc) : CalcProc := { s with rawRegisterA := 0, rawRegisterB := 0 }

theorem control_clk (s : CalcProc) (start doneFlag : Bool) (rawRegister : BitVec 10) :
    (s.clk start doneFlag rawRegister).control = (s.control.clk start doneFlag 0).control := by
  cases h : s.mainReg <;> simp only [clk, calcCase, control, h] <;> split_ifs <;> rfl

end CalcProc

namespace McpChip

variable {c d : McpChip}

/-- A chip and its process without their data. -/
def control (c : McpChip) : McpChip := ⟨c.calcProc.control, c.mcpUnit.control⟩

theorem control_clk (start diff msbf mcpDin : Bool) (c : McpChip) :
    (c.clk start diff msbf mcpDin).control = (c.control.clk start diff msbf false).control := by
  have hproc := c.calcProc.control_clk start c.mcpUnit.doneFlag c.mcpUnit.rawRegister
  have hunit := c.mcpUnit.control_clk
    ⟨c.calcProc.enable, diff, c.calcProc.channel, msbf, mcpDin⟩
  rw [control, clk, hproc, hunit]
  rfl

theorem control_clk_congr (h : c.control = d.control) (diff msbf b b' : Bool) :
    (c.clk start diff msbf b).control = (d.clk start diff msbf b').control := by
  rw [control_clk start diff msbf b c, control_clk start diff msbf b' d, h]

theorem accepts_congr (h : c.control = d.control) (start : Bool) :
    c.Accepts start ↔ d.Accepts start := by
  have hcontrol (c : McpChip) : c.Accepts start ↔ c.control.Accepts start := Iff.rfl
  rw [hcontrol c, hcontrol d, h]

end McpChip

/-! ## The four chips -/

theorem McpWrapper.chips_clk (start : Bool) (mcpDin : Fin 4 → Bool) (s : McpWrapper) (k : Fin 4) :
    (s.clk start mcpDin).chips k = (s.chips k).clk start s.diff s.msbf (mcpDin k) := by
  match k with
  | 0 | 1 | 2 | 3 => rfl

namespace AnalogInputs

variable {startShift : Fin 4 → BitVec 3} {es : ℕ → AdcEdge} {s : AnalogInputs}
  {rs : Fin 4 → Record}

/-- The records of the four chips in a run. -/
def records (startShift : Fin 4 → BitVec 3) (es : ℕ → AdcEdge) : ℕ → Fin 4 → Record
  | 0 => fun _ => .initial
  | n + 1 => fun k =>
      (records startShift es n k).note (run startShift es n).mcpUnit.startMcp ((es n).mcpDin k)
        ((run startShift es n).mcpWrapper.chips k)

/-- The four chips with their records. -/
structure InStep (s : AnalogInputs) (rs : Fin 4 → Record) : Prop where
  diff : s.mcpWrapper.diff = true
  msbf : s.mcpWrapper.msbf = true
  control : ∀ k, (s.mcpWrapper.chips k).control = (s.mcpWrapper.chips 0).control
  accepted : ∀ k, (rs k).accepted = (rs 0).accepted
  tracks : ∀ k, (s.mcpWrapper.chips k).Tracks (rs k)

theorem InStep.clk (h : InStep s rs) (e : AdcEdge) :
    InStep (s.clk e) fun k =>
      (rs k).note s.mcpUnit.startMcp (e.mcpDin k) (s.mcpWrapper.chips k) where
  diff := h.diff
  msbf := h.msbf
  control := by
    intro k
    rw [AnalogInputs.clk, McpWrapper.chips_clk, McpWrapper.chips_clk]
    exact McpChip.control_clk_congr (h.control k) _ _ _ _
  accepted := by
    intro k
    have haccepts := McpChip.accepts_congr (h.control k) s.mcpUnit.startMcp
    simp only [Record.note, haccepts, h.accepted k]
  tracks := by
    intro k
    rw [AnalogInputs.clk, McpWrapper.chips_clk, h.diff, h.msbf]
    exact (h.tracks k).clk _ _

theorem inStep_run (startShift : Fin 4 → BitVec 3) (es : ℕ → AdcEdge) (n : ℕ) :
    InStep (run startShift es n) (records startShift es n) := by
  induction n with
  | zero => exact ⟨rfl, rfl, fun _ => rfl, fun _ => rfl, fun k => McpChip.tracks_reset _⟩
  | succ n ih => exact ih.clk (es n)

/-! ## What is copied -/

/-- `results`. -/
def results (s : AnalogInputs) : ℕ → UCHAR := s.mcpWrapper.finishProc2.results

/-- A round is over: all four processes are done. -/
def RoundOver (s : AnalogInputs) : Prop :=
  ∀ k, (s.mcpWrapper.chips k).calcProc.procDone = true

/-- The results are of the conversions of both channels of each chip for one and the same
pulse. -/
def OneRound (results : ℕ → UCHAR) (rs : Fin 4 → Record) : Prop :=
  ∃ pulse, ∀ k : Fin 4, ∃ a ∈ (rs k).conversions, ∃ b ∈ (rs k).conversions,
    a.Of pulse false ∧ b.Of pulse true ∧
      results (2 * k) = upperBits a.value ∧ results (2 * k + 1) = upperBits b.value

theorem roundOver_iff (s : AnalogInputs) :
    s.RoundOver ↔ ((s.mcpWrapper.chips 0).calcProc.procDone &&
      (s.mcpWrapper.chips 1).calcProc.procDone && (s.mcpWrapper.chips 2).calcProc.procDone &&
        (s.mcpWrapper.chips 3).calcProc.procDone) = true := by
  simp only [RoundOver, Bool.and_eq_true]
  constructor
  · intro h
    exact ⟨⟨⟨h 0, h 1⟩, h 2⟩, h 3⟩
  · rintro ⟨⟨⟨h0, h1⟩, h2⟩, h3⟩ k
    match k with
    | 0 => exact h0
    | 1 => exact h1
    | 2 => exact h2
    | 3 => exact h3

theorem finishProc2_clk (s : AnalogInputs) (e : AdcEdge) :
    (s.clk e).mcpWrapper.finishProc2 =
      s.mcpWrapper.finishProc2.clk fun k => (s.mcpWrapper.chips k).calcProc := rfl

/-- The results change only when a round is over, and then to what the processes hold. -/
theorem results_clk (s : AnalogInputs) (e : AdcEdge) :
    (s.clk e).results = s.results ∨ s.RoundOver ∧
      (s.clk e).results =
        FinishProc2.copy (fun k => (s.mcpWrapper.chips k).calcProc) s.results := by
  rw [results, finishProc2_clk, FinishProc2.clk]
  cases hreg : s.mcpWrapper.finishProc2.finishReg with
  | finishDone => exact .inl (by simp [FinishProc2.finishCase, hreg, results])
  | finishIdle =>
      by_cases hover : s.RoundOver
      · exact .inr ⟨hover, by
          simp [FinishProc2.finishCase, hreg, (roundOver_iff s).mp hover, results]⟩
      · exact .inl (by
          simp only [FinishProc2.finishCase, hreg, if_neg (mt (roundOver_iff s).mpr hover),
            results])

/-- Until a round is over the process is at rest, and the first one that is over is copied. -/
theorem finish_clk (e : AdcEdge) (hreg : s.mcpWrapper.finishProc2.finishReg = .finishIdle)
    (hnext : s.mcpWrapper.finishProc2.finishNext = .finishIdle) :
    (s.RoundOver ∧ (s.clk e).results =
        FinishProc2.copy (fun k => (s.mcpWrapper.chips k).calcProc) s.results) ∨
      ¬ s.RoundOver ∧ (s.clk e).mcpWrapper.finishProc2.finishReg = .finishIdle ∧
        (s.clk e).mcpWrapper.finishProc2.finishNext = .finishIdle ∧
          (s.clk e).results = s.results := by
  rw [results, finishProc2_clk, FinishProc2.clk]
  by_cases hover : s.RoundOver
  · refine .inl ⟨hover, ?_⟩
    simp [FinishProc2.finishCase, hreg, (roundOver_iff s).mp hover, results]
  · refine .inr ⟨hover, hnext, ?_⟩
    simp only [FinishProc2.finishCase, hreg, hnext, if_neg (mt (roundOver_iff s).mpr hover),
      results, and_self]

/-- What is copied is of the last pulse that was accepted. -/
theorem InStep.oneRound (h : InStep s rs) (hover : s.RoundOver) (results : ℕ → UCHAR) :
    OneRound (FinishProc2.copy (fun k => (s.mcpWrapper.chips k).calcProc) results) rs := by
  refine ⟨(rs 0).accepted, ?_⟩
  intro k
  obtain ⟨⟨a, ha, hof, hvalue⟩, b, hb, hof', hvalue'⟩ := (h.tracks k).held (hover k)
  rw [h.accepted k] at hof hof'
  refine ⟨a, ha, b, hb, hof, hof', ?_, ?_⟩
  · rw [hvalue]
    match k with
    | 0 | 1 | 2 | 3 => rfl
  · rw [hvalue']
    match k with
    | 0 | 1 | 2 | 3 => rfl

/-- No conversion is forgotten. -/
theorem OneRound.mono {results : ℕ → UCHAR} (h : OneRound results rs) {rs' : Fin 4 → Record}
    (hsub : ∀ k, (rs k).conversions ⊆ (rs' k).conversions) : OneRound results rs' := by
  obtain ⟨pulse, hround⟩ := h
  refine ⟨pulse, ?_⟩
  intro k
  obtain ⟨a, ha, b, hb, hrest⟩ := hround k
  exact ⟨a, hsub k ha, b, hsub k hb, hrest⟩

theorem conversions_subset_note (r : Record) (start mcpDin : Bool) (c : McpChip) :
    r.conversions ⊆ (r.note start mcpDin c).conversions := by
  by_cases hfinishes : c.mcpUnit.Finishes
  · have hconversions : (r.note start mcpDin c).conversions = r.conversions ++ [r.current] :=
      if_pos hfinishes
    rw [hconversions]
    exact List.subset_append_left _ _
  · have hconversions : (r.note start mcpDin c).conversions = r.conversions := if_neg hfinishes
    rw [hconversions]
    exact List.Subset.refl _

/-- Before the first round is over, and from then on. -/
theorem results_run (startShift : Fin 4 → BitVec 3) (es : ℕ → AdcEdge) (n : ℕ) :
    OneRound (run startShift es n).results (records startShift es n) ∨
      (∀ m < n, ¬ (run startShift es m).RoundOver) ∧
        (run startShift es n).mcpWrapper.finishProc2.finishReg = .finishIdle ∧
          (run startShift es n).mcpWrapper.finishProc2.finishNext = .finishIdle ∧
            (run startShift es n).results = fun _ => 0 := by
  induction n with
  | zero => exact .inr ⟨fun m hm => absurd hm (Nat.not_lt_zero m), rfl, rfl, rfl⟩
  | succ n ih =>
      have hin := inStep_run startShift es n
      have hsub (k : Fin 4) : (records startShift es n k).conversions ⊆
          (records startShift es (n + 1) k).conversions :=
        conversions_subset_note _ _ _ _
      rw [run]
      rcases ih with hround | ⟨hnot, hreg, hnext, hzero⟩
      · left
        rcases results_clk (run startShift es n) (es n) with hsame | ⟨hover, hcopy⟩
        · rw [hsame]
          exact hround.mono hsub
        · rw [hcopy]
          exact (hin.oneRound hover _).mono hsub
      · rcases finish_clk (es n) hreg hnext with ⟨hover, hcopy⟩ | ⟨hnotNow, hreg', hnext', hsame⟩
        · left
          rw [hcopy]
          exact (hin.oneRound hover _).mono hsub
        · right
          refine ⟨?_, hreg', hnext', hsame.trans hzero⟩
          intro m hm
          rcases Nat.lt_succ_iff_lt_or_eq.mp hm with hlt | rfl
          · exact hnot m hlt
          · exact hnotNow

/-- From the end of the first round on the results are always those of one round. A pulse is
accepted for all chips or for none, and each chip makes one conversion of each channel for it. -/
theorem results_one_round (startShift : Fin 4 → BitVec 3) (es : ℕ → AdcEdge) (n : ℕ) :
    (OneRound (run startShift es n).results (records startShift es n) ∨
      (∀ m < n, ¬ (run startShift es m).RoundOver) ∧
        (run startShift es n).results = fun _ => 0) ∧
      ∀ k, (((run startShift es n).mcpWrapper.chips k).Accepts
          (run startShift es n).mcpUnit.startMcp ↔
        ((run startShift es n).mcpWrapper.chips 0).Accepts
          (run startShift es n).mcpUnit.startMcp) ∧
        ∃ m, (records startShift es n k).conversions.map (fun a => (a.pulse, a.request)) =
          schedule m := by
  have hin := inStep_run startShift es n
  refine ⟨?_, ?_⟩
  · rcases results_run startShift es n with hround | ⟨hnot, -, -, hzero⟩
    · exact .inl hround
    · exact .inr ⟨hnot, hzero⟩
  · intro k
    obtain ⟨_, m, -, htags⟩ := (hin.tracks k).stage
    exact ⟨McpChip.accepts_congr (hin.control k) _, m, htags⟩

end AnalogInputs

end TruckControl
