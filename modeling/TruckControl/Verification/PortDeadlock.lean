import TruckControl.Verification.PortBytes

/-!
# The deadlock of the parallel port

A strobe that ends unseen, with no acknowledge to come, leaves the two chips waiting for
each other, and so does an acknowledge that the FPGA does not see.
-/

namespace TruckControl

namespace RecvFPGA

/-- The task is on the way to an acknowledge, or in one. -/
def acknowledges : RecvPoint → Bool
  | .loop | .waitSet => false
  | _ => true

end RecvFPGA

namespace ParallelPort

variable {s : ParallelPort}

/-- `pport_unit` waits for `PP_ACK` while `StartRecvFPGA` waits for `PP_CS`. -/
structure Deadlock (s : ParallelPort) : Prop where
  pportReg : s.fpga.pportReg = .ppDone
  pportNext : s.fpga.pportNext = .ppDone
  ppCS : s.fpga.ppCS = false
  ppAck : s.recv.ppAck = false
  serverUp : s.serverUp > 0
  point : s.recv.point = .waitSet

/-- A strobe does not end, but on the way to an acknowledge, and an acknowledge does not end
while the FPGA is to look at it. -/
def KeepsGoing (s : ParallelPort) : PportEvent → Prop
  | .clk _ => s.StrobeEnds → RecvFPGA.acknowledges s.recv.point = true
  | .startRecvFPGA =>
      s.recv.point = .started ∨ s.recv.point = .acked → s.fpga.pportNext ≠ .ppDone
  | .startRecv7200 _ => True

/-- The FPGA has ended a strobe, and nothing leads to its acknowledge any more. -/
structure Stuck (s : ParallelPort) : Prop where
  phase : s.fpga.phase = .fallen ∨ s.fpga.phase = .waiting
  point : RecvFPGA.acknowledges s.recv.point = false

/-- What holds in every run. -/
structure Sound (s : ParallelPort) : Prop where
  valid : s.fpga.Valid
  ack : s.AckPoint

theorem Sound.step (h : s.Sound) (e : PportEvent) : (s.step e).Sound :=
  ⟨valid_step h.valid e, ackPoint_step h.ack e⟩

/-! ## One step -/

theorem stuck_iff : s.Stuck ↔ (s.fpga.phase = .fallen ∨ s.fpga.phase = .waiting) ∧
    RecvFPGA.acknowledges s.recv.point = false :=
  ⟨fun h => ⟨h.phase, h.point⟩, fun h => ⟨h.1, h.2⟩⟩

theorem stuck_clk (h : s.Sound) (i : PportIn) :
    (s.step (.clk i)).Stuck ↔ s.Stuck ∨ ¬ s.KeepsGoing (.clk i) := by
  have hrecv : (s.step (.clk i)).recv = s.recv := rfl
  have hfpga : (s.step (.clk i)).fpga = s.fpga.clk i s.recv.ppAck := rfl
  rw [stuck_iff, stuck_iff, KeepsGoing, strobeEnds_iff h.valid, hrecv, hfpga]
  cases h.valid.clkStep i s.recv.ppAck with
  | stay hphase hne hack hbelow =>
      have hends : ¬ (s.fpga.phase = .strobe ∧ s.fpga.timeDelayReg.toNat > timeDelay8c) :=
        fun hends => hbelow hends.1 hends.2
      simp [hphase, hends]
  | latch hs ht | rise hs ht | go hs ht | wait hs ht | next hs ht => simp [hs, ht]
  | fall hs hover ht => simp [hs, ht, hover]
  | answer hs hset ht =>
      -- the acknowledge is high, so the task is in it
      have hpoint : RecvFPGA.acknowledges s.recv.point = true := by
        rcases h.ack.mp hset with hpoint | hpoint <;> rw [hpoint] <;> rfl
      simp [hs, ht, hpoint]

theorem stuck_startRecvFPGA (h : s.Sound) :
    (s.step .startRecvFPGA).Stuck ↔ s.Stuck ∨ ¬ s.KeepsGoing .startRecvFPGA := by
  have hfpga : (s.step .startRecvFPGA).fpga = s.fpga := rfl
  have hrecv : (s.step .startRecvFPGA).recv =
      s.recv.step s.serverUp s.fpga.ppCS s.fpga.ppData := rfl
  rw [stuck_iff, stuck_iff, KeepsGoing, ne_eq, h.valid.next_eq_ppDone_iff, hfpga, hrecv]
  cases hpoint : s.recv.point <;> simp only [RecvFPGA.step, hpoint]
  case started | acked => simp [RecvFPGA.acknowledges, or_iff_not_imp_left]
  case loop => split_ifs <;> simp [RecvFPGA.acknowledges, hpoint]
  case waitSet =>
    -- while the FPGA is done with a strobe, there is none to see
    by_cases hCS : s.fpga.ppCS = true
    · have hphase := h.valid.ppCS.mp hCS
      have hnot : ¬ (s.fpga.phase = .fallen ∨ s.fpga.phase = .waiting) := by
        rcases hphase with hp | hp <;> simp [hp]
      simp [hnot]
    · simp [hCS, hpoint]
  case starting | process => simp [RecvFPGA.acknowledges]
  case readPin k => split_ifs <;> simp [RecvFPGA.acknowledges]
  case waitReset => split_ifs <;> simp [RecvFPGA.acknowledges, hpoint]

theorem stuck_step (h : s.Sound) (e : PportEvent) :
    (s.step e).Stuck ↔ s.Stuck ∨ ¬ s.KeepsGoing e := by
  cases e with
  | clk i => exact stuck_clk h i
  | startRecvFPGA => exact stuck_startRecvFPGA h
  | startRecv7200 serverUp =>
      have hsame : (s.step (.startRecv7200 serverUp)).Stuck ↔ s.Stuck :=
        ⟨fun ht => ⟨ht.1, ht.2⟩, fun ht => ⟨ht.1, ht.2⟩⟩
      simp [hsame, KeepsGoing]

/-! ## Runs -/

theorem stuck_exec_iff (h : s.Sound) (es : List PportEvent) :
    (Transition.exec step s es).Stuck ↔ s.Stuck ∨ ¬ Transition.Meets step KeepsGoing s es := by
  induction es generalizing s with
  | nil => simp
  | cons e es ih =>
      rw [Transition.exec_cons, ih (h.step e), stuck_step h, Transition.meets_cons, or_assoc,
        not_and_or]

theorem Deadlock.stuck (h : s.Deadlock) : s.Stuck := by
  refine ⟨.inr (PportUnit.phase_eq_waiting_iff.mpr ⟨h.pportReg, h.pportNext⟩), ?_⟩
  rw [h.point]
  rfl

/-- With the server up, a step of each chip leads from there into the deadlock. -/
theorem Stuck.deadlock (h : s.Sound) (hstuck : s.Stuck) (i : PportIn) :
    (Transition.exec step s [.startRecv7200 1, .clk i, .startRecvFPGA]).Deadlock := by
  have hack : s.recv.ppAck = false := by
    rw [← Bool.not_eq_true]
    refine fun hset => ?_
    have hpoint := hstuck.point
    rcases h.ack.mp hset with hp | hp <;> rw [hp] at hpoint <;> cases hpoint
  have hwaiting : (s.fpga.clk i s.recv.ppAck).phase = .waiting := by
    have hphase := hstuck.phase
    cases h.valid.clkStep i s.recv.ppAck with
    | stay hsame hne => exact hsame.trans (hphase.resolve_left hne.2)
    | wait hs ht => exact ht
    | answer hs hset => rw [hack] at hset; cases hset
    | latch hs | rise hs | go hs | fall hs | next hs => simp [hs] at hphase
  obtain ⟨hreg, hnext⟩ := PportUnit.phase_eq_waiting_iff.mp hwaiting
  have hCS : (s.fpga.clk i s.recv.ppAck).ppCS = false := by
    rw [← Bool.not_eq_true, (h.valid.clk i s.recv.ppAck).ppCS, hwaiting]
    decide
  have hrecv : s.recv.step 1 (s.fpga.clk i s.recv.ppAck).ppCS
      (s.fpga.clk i s.recv.ppAck).ppData = { s.recv with point := .waitSet } := by
    have hpoint := hstuck.point
    rw [RecvFPGA.step]
    cases hp : s.recv.point <;> rw [hp] at hpoint
    case loop => rfl
    case waitSet => simp [hCS, ← hp]
    all_goals cases hpoint
  refine ⟨hreg, hnext, hCS, ?_, Nat.one_pos, ?_⟩
  · exact (congrArg RecvFPGA.ppAck hrecv).trans hack
  · exact congrArg RecvFPGA.point hrecv

theorem sound_start (buff ucbuff : ℕ → UCHAR) (serverUp : ℕ) : (start buff ucbuff serverUp).Sound :=
  ⟨(lossless_start buff ucbuff serverUp).valid, (lossless_start buff ucbuff serverUp).ack⟩

/-- No run comes to the deadlock as long as its steps keep the two chips going. Once a step
does not, every run that goes on comes to the deadlock, as soon as the server is up. -/
theorem port_deadlock (buff ucbuff : ℕ → UCHAR) (es : List PportEvent) :
    (Transition.Meets step KeepsGoing (start buff ucbuff 0) es →
      ¬ (Transition.exec step (start buff ucbuff 0) es).Deadlock) ∧
    (¬ Transition.Meets step KeepsGoing (start buff ucbuff 0) es → ∀ fs i,
      (Transition.exec step (start buff ucbuff 0)
        (es ++ fs ++ [.startRecv7200 1, .clk i, .startRecvFPGA])).Deadlock) := by
  have hsound := sound_start buff ucbuff 0
  have hfree : ¬ (start buff ucbuff 0).Stuck := fun h => by cases h.point
  refine ⟨?_, ?_⟩
  · intro hes hdead
    exact ((stuck_exec_iff hsound es).mp hdead.stuck).elim hfree fun hno => hno hes
  · intro hes fs i
    have hstuck := (stuck_exec_iff hsound es).mpr (.inr hes)
    have hsoundEs (es : List PportEvent) : (Transition.exec step (start buff ucbuff 0) es).Sound :=
      Transition.inv_exec (fun _ e h => h.step e) es hsound
    have hstill := (stuck_exec_iff (hsoundEs es) fs).mpr (.inl hstuck)
    rw [← Transition.exec_append] at hstill
    rw [Transition.exec_append]
    exact hstill.deadlock (hsoundEs (es ++ fs)) i

/-- The FPGA is powered after the start-up pulse, and its first strobe is over when the server
comes up. -/
def lateFpga : List PportEvent :=
  [.startRecvFPGA, .startRecvFPGA] ++ (List.replicate (2 * (timeDelay7 + 1)) (.clk quietIn) ++
    (List.replicate 6 (.clk quietIn) ++
      (List.replicate (2 * (timeDelay8c + 1)) (.clk quietIn) ++
        [.clk quietIn, .clk quietIn, .startRecv7200 1, .startRecvFPGA])))

/-- The STM32 after its pulse, and the FPGA in its first strobe. -/
def lateStrobe : ParallelPort :=
  Transition.exec step
    { Transition.exec step (start (fun _ => 0) (fun _ => 0) 0) [.startRecvFPGA, .startRecvFPGA] with
      fpga := PportUnit.reset.timedAt (timeDelay7 + 1) }
    (List.replicate 6 (.clk quietIn))

theorem exec_lateFpga :
    Transition.exec step (start (fun _ => 0) (fun _ => 0) 0) lateFpga =
      Transition.exec step { lateStrobe with fpga := lateStrobe.fpga.timedAt (timeDelay8c + 1) }
        [.clk quietIn, .clk quietIn, .startRecv7200 1, .startRecvFPGA] := by
  have hpreidle := exec_preidle
    (s := Transition.exec step (start (fun _ => 0) (fun _ => 0) 0) [.startRecvFPGA, .startRecvFPGA])
    rfl rfl rfl quietIn
  have hstrobe := exec_strobe (s := lateStrobe) rfl rfl rfl quietIn
  have hlate : Transition.exec step
      { Transition.exec step (start (fun _ => 0) (fun _ => 0) 0)
          [.startRecvFPGA, .startRecvFPGA] with
        fpga := (Transition.exec step (start (fun _ => 0) (fun _ => 0) 0)
          [.startRecvFPGA, .startRecvFPGA]).fpga.timedAt (timeDelay7 + 1) }
      (List.replicate 6 (.clk quietIn)) = lateStrobe := rfl
  rw [lateFpga, Transition.exec_append, Transition.exec_append, hpreidle, Transition.exec_append,
    hlate, Transition.exec_append, hstrobe]

theorem port_deadlock_lateFpga :
    (Transition.exec step (start (fun _ => 0) (fun _ => 0) 0) lateFpga).Deadlock := by
  rw [exec_lateFpga]
  exact ⟨rfl, rfl, rfl, rfl, by decide +kernel, rfl⟩

end ParallelPort

end TruckControl
