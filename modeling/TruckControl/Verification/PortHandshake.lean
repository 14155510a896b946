import TruckControl.Library.Waiting
import TruckControl.Model.ParallelPort

/-!
# The handshake of the parallel port

`pport_unit` goes through the same phases for every byte, of one clock edge or of many.
-/

namespace TruckControl

/-! ## The phases of a byte -/

/-- What `pport_unit` does with a byte: the byte is put on the pins, the strobe rises, and
it falls before the acknowledge is waited for. -/
inductive PortPhase where
  | quiet | latched | raised | strobe | fallen | waiting | answered
  deriving DecidableEq, Repr

namespace PportUnit

def phase (s : PportUnit) : PortPhase :=
  match s.pportReg, s.pportNext with
  | .ppPreidle, _ => .quiet
  | .ppIdle, .ppIdle => .quiet
  | .ppIdle, _ => .latched
  | .ppStart1, .ppStart1 => .latched
  | .ppStart1, _ => .raised
  | .ppStart2, .ppStart2 => .strobe
  | .ppStart2, _ => .fallen
  | .ppDone, .ppDone => .waiting
  | .ppDone, _ => .answered
  | .ppDone2, _ => .answered

/-- The state that a state of the process goes on to. -/
def following : PportType → PportType
  | .ppPreidle => .ppIdle
  | .ppIdle => .ppStart1
  | .ppStart1 => .ppStart2
  | .ppStart2 => .ppDone
  | .ppDone => .ppDone2
  | .ppDone2 => .ppIdle

/-- The combinations of the signals that occur. -/
structure Valid (s : PportUnit) : Prop where
  next : s.pportNext = s.pportReg ∨ s.pportNext = following s.pportReg
  ppCS : s.ppCS = true ↔ s.phase = .raised ∨ s.phase = .strobe
  skip : s.skip = true ↔ s.phase = .raised
  data : s.phase = .latched → s.ppData = s.upload s.sPort.toNat

theorem valid_reset : reset.Valid :=
  ⟨.inl rfl, by decide, by decide, fun h => absurd h (by decide)⟩

/-- One clock edge, seen from the other side of the port. -/
inductive ClkStep (s t : PportUnit) (ppAck : Bool) : Prop where
  | stay (hphase : t.phase = s.phase) (hne : s.phase ≠ .raised ∧ s.phase ≠ .fallen)
      (hack : s.phase = .waiting → ppAck = false)
      (hbelow : s.phase = .strobe → ¬ s.timeDelayReg.toNat > timeDelay8c)
      (hCS : t.ppCS = s.ppCS) (hskip : t.skip = s.skip)
      (hdata : s.phase ≠ .quiet → t.ppData = s.ppData) (hpresented : t.presented = s.presented)
  | latch (hs : s.phase = .quiet) (ht : t.phase = .latched) (hCS : t.ppCS = s.ppCS)
      (hskip : t.skip = s.skip) (hdata : t.ppData = s.upload s.sPort.toNat)
      (hpresented : t.presented = s.presented)
  | rise (hs : s.phase = .latched) (ht : t.phase = .raised) (hCS : t.ppCS = true)
      (hskip : t.skip = true) (hdata : t.ppData = s.ppData)
      (hpresented : t.presented = s.presented ++ [s.ppData])
  | go (hs : s.phase = .raised) (ht : t.phase = .strobe) (hCS : t.ppCS = true)
      (hskip : t.skip = false) (hdata : t.ppData = s.ppData)
      (hpresented : t.presented = s.presented)
  | fall (hs : s.phase = .strobe) (hover : s.timeDelayReg.toNat > timeDelay8c)
      (ht : t.phase = .fallen) (hCS : t.ppCS = false) (hskip : t.skip = s.skip)
      (hdata : t.ppData = s.ppData) (hpresented : t.presented = s.presented)
  | wait (hs : s.phase = .fallen) (ht : t.phase = .waiting) (hCS : t.ppCS = false)
      (hskip : t.skip = s.skip) (hdata : t.ppData = s.ppData)
      (hpresented : t.presented = s.presented)
  | answer (hs : s.phase = .waiting) (hack : ppAck = true) (ht : t.phase = .answered)
      (hCS : t.ppCS = s.ppCS) (hskip : t.skip = s.skip) (hpresented : t.presented = s.presented)
  | next (hs : s.phase = .answered) (ht : t.phase = .quiet) (hCS : t.ppCS = s.ppCS)
      (hskip : t.skip = s.skip) (hpresented : t.presented = s.presented)

variable {s : PportUnit}

/-! Each state of the process lasts for at least two clock edges: `pportNext` is assigned at
the first and taken over at the second. -/

theorem Valid.clkStep_ppPreidle (h : s.Valid) (hreg : s.pportReg = .ppPreidle) (i : PportIn)
    (ppAck : Bool) : ClkStep s (s.clk i ppAck) ppAck := by
  have hnext := h.next
  rw [hreg] at hnext
  by_cases hover : s.timeDelayReg.toNat > timeDelay7
  · have hcase : s.pportCase i ppAck = { s with timeDelayNext := 0, pportNext := .ppIdle } := by
      simp only [pportCase, hreg, if_pos hover]
    rcases hnext with hnext | hnext
    all_goals
      apply ClkStep.stay <;> simp [phase, PportUnit.clk, hcase, following, hreg, hnext]
  · have hcase : s.pportCase i ppAck = { s with timeDelayNext := s.timeDelayReg + 1 } := by
      simp only [pportCase, hreg, if_neg hover]
    rcases hnext with hnext | hnext
    all_goals
      apply ClkStep.stay <;> simp [phase, PportUnit.clk, hcase, following, hreg, hnext]

theorem Valid.clkStep_ppIdle (h : s.Valid) (hreg : s.pportReg = .ppIdle) (i : PportIn)
    (ppAck : Bool) : ClkStep s (s.clk i ppAck) ppAck := by
  have hcase : s.pportCase i ppAck =
      { s with ppData := s.upload s.sPort.toNat, pportNext := .ppStart1 } := by
    rw [pportCase, hreg]
  have hnext := h.next
  rw [hreg] at hnext
  rcases hnext with hnext | hnext
  · apply ClkStep.latch <;> simp [phase, PportUnit.clk, hcase, hreg, hnext]
  · have hphase : s.phase = .latched := by rw [phase, hreg, hnext]; rfl
    apply ClkStep.stay <;>
      simp [phase, PportUnit.clk, hcase, following, hreg, hnext, h.data hphase]

theorem Valid.clkStep_ppStart1 (h : s.Valid) (hreg : s.pportReg = .ppStart1) (i : PportIn)
    (ppAck : Bool) : ClkStep s (s.clk i ppAck) ppAck := by
  have hcase : s.pportCase i ppAck =
      { s with
        ppCS := true
        presented := if s.ppCS then s.presented else s.presented ++ [s.ppData]
        skip := !s.skip
        sPort := if s.skip then if s.sPort > 17 then 0 else s.sPort + 1 else s.sPort
        pportNext := .ppStart2 } := by
    rw [pportCase, hreg]
  have hnext := h.next
  have hCS := h.ppCS
  have hskip := h.skip
  rw [hreg] at hnext
  rcases hnext with hnext | hnext
  · have hphase : s.phase = .latched := by rw [phase, hreg, hnext]
    simp [hphase] at hCS hskip
    apply ClkStep.rise <;> simp [phase, PportUnit.clk, hcase, hreg, hnext, hCS, hskip]
  · have hphase : s.phase = .raised := by rw [phase, hreg, hnext]; rfl
    simp [hphase] at hCS hskip
    apply ClkStep.go <;> simp [phase, PportUnit.clk, hcase, following, hreg, hnext, hCS, hskip]

theorem Valid.clkStep_ppStart2 (h : s.Valid) (hreg : s.pportReg = .ppStart2) (i : PportIn)
    (ppAck : Bool) : ClkStep s (s.clk i ppAck) ppAck := by
  have hnext := h.next
  rw [hreg] at hnext
  by_cases hover : s.timeDelayReg.toNat > timeDelay8c
  · have hcase : s.pportCase i ppAck =
        { s with timeDelayNext := 0, ppCS := false, pportNext := .ppDone } := by
      simp only [pportCase, hreg, if_pos hover]
    rcases hnext with hnext | hnext
    · apply ClkStep.fall <;> simp [phase, PportUnit.clk, hcase, hreg, hnext, hover]
    · apply ClkStep.wait <;> simp [phase, PportUnit.clk, hcase, following, hreg, hnext]
  · have hcase : s.pportCase i ppAck = { s with timeDelayNext := s.timeDelayReg + 1 } := by
      simp only [pportCase, hreg, if_neg hover]
    rcases hnext with hnext | hnext
    · apply ClkStep.stay <;>
        simp [phase, PportUnit.clk, hcase, hreg, hnext, Nat.le_of_not_gt hover]
    · have hphase : s.phase = .fallen := by rw [phase, hreg, hnext]; rfl
      have hCS := h.ppCS
      simp [hphase] at hCS
      apply ClkStep.wait <;> simp [phase, PportUnit.clk, hcase, following, hreg, hnext, hCS]

theorem Valid.clkStep_ppDone (h : s.Valid) (hreg : s.pportReg = .ppDone) (i : PportIn)
    (ppAck : Bool) : ClkStep s (s.clk i ppAck) ppAck := by
  have hnext := h.next
  rw [hreg] at hnext
  cases ppAck with
  | true =>
      have hcase : s.pportCase i true = { s with pportNext := .ppDone2 } := by
        simp only [pportCase, hreg, if_true]
      rcases hnext with hnext | hnext
      · apply ClkStep.answer <;> simp [phase, PportUnit.clk, hcase, hreg, hnext]
      · apply ClkStep.stay <;> simp [phase, PportUnit.clk, hcase, following, hreg, hnext]
  | false =>
      have hcase : s.pportCase i false = s := by simp [pportCase, hreg]
      rcases hnext with hnext | hnext
      · apply ClkStep.stay <;> simp [phase, PportUnit.clk, hcase, hreg, hnext]
      · apply ClkStep.stay <;> simp [phase, PportUnit.clk, hcase, following, hreg, hnext]

theorem Valid.clkStep_ppDone2 (h : s.Valid) (hreg : s.pportReg = .ppDone2) (i : PportIn)
    (ppAck : Bool) : ClkStep s (s.clk i ppAck) ppAck := by
  have hnext := h.next
  rw [hreg] at hnext
  by_cases hover : s.timeDelayReg > i.sendDelay
  · have hcase : s.pportCase i ppAck =
        { s with timeDelayNext := 0, upload := sample i s.upload, pportNext := .ppIdle } := by
      simp only [pportCase, hreg, if_pos hover]
    rcases hnext with hnext | hnext
    · apply ClkStep.stay <;> simp [phase, PportUnit.clk, hcase, hreg, hnext]
    · apply ClkStep.next <;> simp [phase, PportUnit.clk, hcase, following, hreg, hnext]
  · have hcase : s.pportCase i ppAck = { s with timeDelayNext := s.timeDelayReg + 1 } := by
      simp only [pportCase, hreg, if_neg hover]
    rcases hnext with hnext | hnext
    · apply ClkStep.stay <;> simp [phase, PportUnit.clk, hcase, hreg, hnext]
    · apply ClkStep.next <;> simp [phase, PportUnit.clk, hcase, following, hreg, hnext]

theorem Valid.clkStep (h : s.Valid) (i : PportIn) (ppAck : Bool) :
    ClkStep s (s.clk i ppAck) ppAck := by
  cases hreg : s.pportReg with
  | ppPreidle => exact h.clkStep_ppPreidle hreg i ppAck
  | ppIdle => exact h.clkStep_ppIdle hreg i ppAck
  | ppStart1 => exact h.clkStep_ppStart1 hreg i ppAck
  | ppStart2 => exact h.clkStep_ppStart2 hreg i ppAck
  | ppDone => exact h.clkStep_ppDone hreg i ppAck
  | ppDone2 => exact h.clkStep_ppDone2 hreg i ppAck

theorem pportNext_pportCase (i : PportIn) (ppAck : Bool) :
    (s.pportCase i ppAck).pportNext = s.pportNext ∨
      (s.pportCase i ppAck).pportNext = following s.pportReg := by
  cases hreg : s.pportReg <;> simp only [pportCase, hreg, following]
  case ppIdle | ppStart1 => exact .inr trivial
  all_goals
    split_ifs
    · exact .inr rfl
    · exact .inl rfl

/-- The pins keep their byte until the acknowledge has been answered. -/
theorem ppData_clk (hquiet : s.phase ≠ .quiet) (hlatched : s.phase ≠ .latched) (i : PportIn)
    (ppAck : Bool) : (s.clk i ppAck).ppData = s.ppData := by
  cases hreg : s.pportReg <;> simp only [PportUnit.clk, pportCase, hreg]
  case ppIdle =>
    have hphase : s.phase = .quiet ∨ s.phase = .latched := by
      rw [phase, hreg]
      cases s.pportNext <;> decide
    exact absurd hphase (not_or.mpr ⟨hquiet, hlatched⟩)
  all_goals split_ifs <;> rfl

/-- The samples are taken after the acknowledge. -/
theorem upload_clk (s : PportUnit) (i : PportIn) (ppAck : Bool) :
    (s.clk i ppAck).upload = s.upload ∨
      s.phase = .answered ∧ (s.clk i ppAck).upload = sample i s.upload := by
  cases hreg : s.pportReg <;> simp only [PportUnit.clk, pportCase, hreg]
  case ppDone2 =>
    split_ifs
    · exact .inr ⟨by rw [phase, hreg], rfl⟩
    · exact .inl rfl
  case ppIdle | ppStart1 => exact .inl trivial
  all_goals
    left
    split_ifs <;> rfl

/-- The next byte is chosen while the strobe is there. -/
theorem Valid.sPort_clk (h : s.Valid) (i : PportIn) (ppAck : Bool) :
    (s.clk i ppAck).sPort =
      if s.phase = .raised then if s.sPort > 17 then 0 else s.sPort + 1 else s.sPort := by
  cases hreg : s.pportReg <;> simp only [PportUnit.clk, pportCase, hreg]
  case ppStart1 => simp only [h.skip]
  all_goals
    have hphase : s.phase ≠ .raised := by
      rw [phase, hreg]
      cases s.pportNext <;> decide
    rw [if_neg hphase]
    try split_ifs <;> rfl

theorem Valid.clk (h : s.Valid) (i : PportIn) (ppAck : Bool) : (s.clk i ppAck).Valid := by
  have hstep := h.clkStep i ppAck
  have hsPort := h.sPort_clk i ppAck
  have hupload := s.upload_clk i ppAck
  refine ⟨?_, ?_, ?_, ?_⟩
  · change (s.pportCase i ppAck).pportNext = s.pportNext ∨
      (s.pportCase i ppAck).pportNext = following s.pportNext
    rcases pportNext_pportCase i ppAck with hkept | hset
    · exact .inl hkept
    · rcases h.next with hsame | hfollowing
      · exact .inr (hset.trans (by rw [hsame]))
      · exact .inl (hset.trans hfollowing.symm)
  · cases hstep with
    | stay hphase hne hack hbelow hCS => rw [hphase, hCS, h.ppCS]
    | latch hs ht hCS | answer hs hack ht hCS | next hs ht hCS =>
        rw [hCS, h.ppCS, hs, ht]
        decide
    | rise hs ht hCS | go hs ht hCS | wait hs ht hCS => simp [hCS, ht]
    | fall hs hover ht hCS => simp [hCS, ht]
  · cases hstep with
    | stay hphase hne hack hbelow hCS hskip => rw [hphase, hskip, h.skip]
    | latch hs ht hCS hskip | answer hs hack ht hCS hskip | next hs ht hCS hskip
    | fall hs hover ht hCS hskip | wait hs ht hCS hskip =>
        rw [hskip, h.skip, hs, ht]
        decide
    | rise hs ht hCS hskip | go hs ht hCS hskip => simp [hskip, ht]
  · intro hlatched
    cases hstep with
    | stay hphase hne hack hbelow hCS hskip hdata =>
        have hs : s.phase = .latched := hphase ▸ hlatched
        rw [hs] at hsPort
        rcases hupload with hupload | ⟨hanswered, -⟩
        · rw [hdata (by simp [hs]), hupload, hsPort, h.data hs]
          rfl
        · rw [hs] at hanswered
          cases hanswered
    | latch hs ht hCS hskip hdata =>
        rw [hs] at hsPort
        rcases hupload with hupload | ⟨hanswered, -⟩
        · rw [hdata, hupload, hsPort]
          rfl
        · rw [hs] at hanswered
          cases hanswered
    | rise hs ht | go hs ht | wait hs ht | next hs ht | fall hs hover ht | answer hs hack ht =>
        rw [ht] at hlatched
        cases hlatched

theorem Valid.strobe_iff (h : s.Valid) :
    s.phase = .strobe ↔ s.pportReg = .ppStart2 ∧ s.ppCS = true := by
  have hreg : s.phase = .strobe ∨ s.phase = .fallen ↔ s.pportReg = .ppStart2 := by
    rw [phase]
    cases s.pportReg <;> cases s.pportNext <;> decide
  rw [h.ppCS, ← hreg]
  cases s.phase <;> decide

theorem Valid.next_eq_ppDone_iff (h : s.Valid) :
    s.pportNext = .ppDone ↔ s.phase = .fallen ∨ s.phase = .waiting := by
  have hnext := h.next
  rw [phase]
  revert hnext
  cases s.pportReg <;> cases s.pportNext <;> decide

theorem phase_eq_waiting_iff :
    s.phase = .waiting ↔ s.pportReg = .ppDone ∧ s.pportNext = .ppDone := by
  rw [phase]
  cases s.pportReg <;> cases s.pportNext <;> decide

end PportUnit

/-! ## Long waits -/

namespace PportUnit

variable {s : PportUnit}

/-- The timer at a count, with both of its registers. -/
def timedAt (k : ℕ) (s : PportUnit) : PportUnit :=
  { s with timeDelayReg := BitVec.ofNat 26 k, timeDelayNext := BitVec.ofNat 26 k }

/-- A state that waits for its timer counts every other clock edge. -/
theorem clk_wait {i : PportIn} {ppAck : Bool} (hnext : s.pportNext = s.pportReg) {n : ℕ}
    (hwait : ∀ k < n, ∀ t : PportUnit, t.pportReg = s.pportReg →
      t.timeDelayReg = BitVec.ofNat 26 k →
        t.pportCase i ppAck = { t with timeDelayNext := t.timeDelayReg + 1 }) :
    (PportUnit.clk i ppAck)^[2 * n] (s.timedAt 0) = s.timedAt n := by
  apply Waiting.iterate_mul fun k => s.timedAt k
  intro k hk
  have hone := hwait k hk
  simp only [Function.iterate_succ_apply, Function.iterate_zero_apply]
  rw [PportUnit.clk, PportUnit.clk, hone (s.timedAt k) rfl rfl, hone _ hnext rfl]
  simp [timedAt, hnext, BitVec.ofNat_add]

theorem clk_preidle (i : PportIn) (ppAck : Bool) (hreg : s.pportReg = .ppPreidle)
    (hnext : s.pportNext = .ppPreidle) :
    (PportUnit.clk i ppAck)^[2 * (timeDelay7 + 1)] (s.timedAt 0) = s.timedAt (timeDelay7 + 1) := by
  apply clk_wait (hnext.trans hreg.symm)
  intro k hk t ht hcount
  have hbelow : ¬ t.timeDelayReg.toNat > timeDelay7 := by
    rw [hcount, BitVec.toNat_ofNat]
    have hmod := Nat.mod_le k (2 ^ 26)
    omega
  simp only [pportCase, ht.trans hreg, if_neg hbelow]

theorem clk_strobe (i : PportIn) (ppAck : Bool) (hreg : s.pportReg = .ppStart2)
    (hnext : s.pportNext = .ppStart2) :
    (PportUnit.clk i ppAck)^[2 * (timeDelay8c + 1)] (s.timedAt 0) =
      s.timedAt (timeDelay8c + 1) := by
  apply clk_wait (hnext.trans hreg.symm)
  intro k hk t ht hcount
  have hbelow : ¬ t.timeDelayReg.toNat > timeDelay8c := by
    rw [hcount, BitVec.toNat_ofNat]
    have hmod := Nat.mod_le k (2 ^ 26)
    omega
  simp only [pportCase, ht.trans hreg, if_neg hbelow]

end PportUnit

/-! ## Both chips -/

namespace ParallelPort

variable {s : ParallelPort}

/-- The strobe ends with the next clock edge. -/
def StrobeEnds (s : ParallelPort) : Prop :=
  s.fpga.pportReg = .ppStart2 ∧ s.fpga.ppCS = true ∧ s.fpga.timeDelayReg.toNat > timeDelay8c

theorem strobeEnds_iff (h : s.fpga.Valid) :
    s.StrobeEnds ↔ s.fpga.phase = .strobe ∧ s.fpga.timeDelayReg.toNat > timeDelay8c := by
  rw [h.strobe_iff, StrobeEnds, and_assoc]

/-- The acknowledge is set between two delays of the task. -/
def AckPoint (s : ParallelPort) : Prop :=
  s.recv.ppAck = true ↔ s.recv.point = .started ∨ s.recv.point = .acked

theorem ackPoint_step (h : s.AckPoint) (e : PportEvent) : (s.step e).AckPoint := by
  cases e with
  | clk i => exact h
  | startRecv7200 serverUp => exact h
  | startRecvFPGA =>
      rw [AckPoint] at h ⊢
      cases hpoint : s.recv.point <;> rw [hpoint] at h <;>
        simp only [step, RecvFPGA.step, hpoint]
      case readPin k => split_ifs <;> simpa using h
      case loop | waitSet | waitReset => split_ifs <;> simpa [hpoint] using h
      case starting | started | process | acked => simp

theorem exec_clk (i : PportIn) (n : ℕ) (s : ParallelPort) :
    Transition.exec step s (List.replicate n (.clk i)) =
      { s with fpga := (PportUnit.clk i s.recv.ppAck)^[n] s.fpga } := by
  induction n generalizing s with
  | zero => rfl
  | succ n ih => rw [List.replicate_succ, Transition.exec_cons, ih]; rfl

/-- The delay of the FPGA after its reset. -/
theorem exec_preidle (hreg : s.fpga.pportReg = .ppPreidle) (hnext : s.fpga.pportNext = .ppPreidle)
    (htimer : s.fpga.timedAt 0 = s.fpga) (i : PportIn) :
    Transition.exec step s (List.replicate (2 * (timeDelay7 + 1)) (.clk i)) =
      { s with fpga := s.fpga.timedAt (timeDelay7 + 1) } := by
  have hwait := PportUnit.clk_preidle i s.recv.ppAck hreg hnext
  rw [htimer] at hwait
  rw [exec_clk, hwait]

/-- The strobe for its whole length. -/
theorem exec_strobe (hreg : s.fpga.pportReg = .ppStart2) (hnext : s.fpga.pportNext = .ppStart2)
    (htimer : s.fpga.timedAt 0 = s.fpga) (i : PportIn) :
    Transition.exec step s (List.replicate (2 * (timeDelay8c + 1)) (.clk i)) =
      { s with fpga := s.fpga.timedAt (timeDelay8c + 1) } := by
  have hwait := PportUnit.clk_strobe i s.recv.ppAck hreg hnext
  rw [htimer] at hwait
  rw [exec_clk, hwait]

theorem valid_step (h : s.fpga.Valid) (e : PportEvent) : (s.step e).fpga.Valid := by
  cases e with
  | clk i => exact h.clk i s.recv.ppAck
  | startRecvFPGA => exact h
  | startRecv7200 serverUp => exact h

end ParallelPort

end TruckControl
