import Mathlib.Tactic.IntervalCases
import TruckControl.Verification.FpgaCommands
import TruckControl.Verification.UartRx

/-!
# Messages on the line to the FPGA

Every frame that comes while `recv_uart` waits gives one byte, and between two bytes seven
clocks with `DataReady` are enough for it to wait again.
-/

namespace TruckControl

/-! ## `recv_uart` from byte to byte -/

namespace RecvUart

/-- Its states, with the next state and `start_rx`. -/
inductive Pace : StateUart2 → StateUart2 → Bool → Prop where
  | waking : Pace .preIdle .preIdle false
  | woken : Pace .preIdle .idle2 false
  | idle : Pace .idle2 .idle2 false
  | asked : Pace .idle2 .next1 true
  | waiting : Pace .next1 .next1 true
  | taken : Pace .next1 .start1 false
  | checking : Pace .start1 .start1 false
  | checked : Pace .start1 .done false
  | done : Pace .done .done false
  | leaving : Pace .done .idle2 false

def Paced (u : RecvUart) : Prop := Pace u.stateUartReg2 u.stateUartNext2 u.startRx

/-- How many clocks with `DataReady` it takes until the next byte is waited for. -/
def clocksToWait (u : RecvUart) : ℕ :=
  match u.stateUartReg2, u.stateUartNext2 with
  | .next1, .next1 => 0
  | .idle2, .next1 => 1
  | .idle2, _ => 2
  | .preIdle, .idle2 | .done, .idle2 => 3
  | .preIdle, _ | .done, _ => 4
  | .start1, .done => 5
  | .start1, _ => 6
  | .next1, _ => 7

/-- A byte is waited for. -/
structure Waits (u : RecvUart) : Prop where
  reg : u.stateUartReg2 = .next1
  next : u.stateUartNext2 = .next1
  startRx : u.startRx = true

variable {u : RecvUart}

theorem Paced.waits (h : u.Paced) (hzero : u.clocksToWait = 0) : u.Waits := by
  obtain ⟨reg, next, startRx, mcmd, startCalc, incParams, stlvFlag, download⟩ := u
  cases h with
  | waiting => exact ⟨rfl, rfl, rfl⟩
  | _ => cases hzero

/-- Every clock leads to one of these states, and with `DataReady` closer to the wait. -/
theorem Paced.clk (h : u.Paced) (dataReady : Bool) (rx : Option FpgaByte) :
    (u.clk dataReady rx).Paced ∧ (dataReady = true → rx = none →
      (u.clk dataReady rx).clocksToWait = u.clocksToWait - 1) := by
  obtain ⟨reg, next, startRx, mcmd, startCalc, incParams, stlvFlag, download⟩ := u
  cases h with
  | waking => exact ⟨.woken, fun _ _ => rfl⟩
  | woken => exact ⟨.idle, fun _ _ => rfl⟩
  | idle =>
      cases dataReady with
      | false => exact ⟨.idle, nofun⟩
      | true => exact ⟨.asked, fun _ _ => rfl⟩
  | asked =>
      cases dataReady with
      | false => exact ⟨.waiting, nofun⟩
      | true => exact ⟨.waiting, fun _ _ => rfl⟩
  | waiting =>
      cases rx with
      | none => exact ⟨.waiting, fun _ _ => rfl⟩
      | some b =>
          refine ⟨?_, nofun⟩
          cases hcmd : b.cmdParam with
          | true | false =>
              simp only [Paced, RecvUart.clk, uartCase, hcmd, if_true, if_false,
                Bool.false_eq_true]
              exact .taken
  | taken =>
      cases rx with
      | none => exact ⟨.checking, fun _ _ => rfl⟩
      | some b =>
          refine ⟨?_, nofun⟩
          cases hcmd : b.cmdParam with
          | true | false =>
              simp only [Paced, RecvUart.clk, uartCase, hcmd, if_true, if_false,
                Bool.false_eq_true]
              exact .checking
  | checking => exact ⟨.checked, fun _ _ => rfl⟩
  | checked => exact ⟨.done, fun _ _ => rfl⟩
  | done => exact ⟨.leaving, fun _ _ => rfl⟩
  | leaving => exact ⟨.idle, fun _ _ => rfl⟩

theorem Waits.clk (h : u.Waits) (dataReady : Bool) : u.clk dataReady none = u := by
  obtain ⟨hreg, hnext, hstart⟩ := h
  rw [RecvUart.clk, uartCase, hreg]
  obtain ⟨reg, next, startRx, mcmd, startCalc, incParams, stlvFlag, download⟩ := u
  simp only at hreg hnext
  rw [hreg, hnext]

end RecvUart

/-! ## The ticks -/

namespace CommandLink

/-- The counter of the ticks, and the tick that is delayed by one clock. -/
structure Ticking (s : CommandLink) : Prop where
  lt : s.rReg < dvsrMu19200
  tick2 : s.tick2 = true → s.rReg = 0

/-- How many clocks there are before the next tick. -/
def untilTick (s : CommandLink) : ℕ := if s.tick2 then 0 else dvsrMu19200 - s.rReg

variable {s : CommandLink}

theorem Ticking.clk (h : s.Ticking) (e : FpgaEdge) : (s.clk e).Ticking := by
  have hlt := h.lt
  have hzero : 0 < dvsrMu19200 := by decide
  refine ⟨?_, ?_⟩
  · simp only [CommandLink.clk, modM]
    split <;> omega
  · intro htick
    simp only [CommandLink.clk, Bool.and_eq_true, maxTick, decide_eq_true_eq] at htick
    exact if_pos htick.2

theorem Ticking.untilTick_clk (h : s.Ticking) (hstart : s.recvUart.startRx = true)
    (e : FpgaEdge) :
    (s.clk e).untilTick = if s.untilTick = 0 then 162 else s.untilTick - 1 := by
  have hlt := h.lt
  have htick := h.tick2
  rw [dvsrMu19200] at hlt
  simp only [untilTick, CommandLink.clk, hstart, Bool.true_and, maxTick, modM, dvsrMu19200]
  by_cases htick2 : s.tick2 = true
  · simp [htick2, htick htick2]
  · by_cases hend : s.rReg = 162
    · simp [htick2, hend]
    · have hpos : ¬ 163 - s.rReg = 0 := by omega
      simp only [htick2, hend, hpos, decide_false, Bool.false_eq_true, if_false]
      omega

end CommandLink

/-! ## A frame -/

/-- A byte as it is on the line from the start of its frame on: each bit for a period of the
ticks at least, wherever they fall. -/
structure IsFrame (byte : UCHAR) (levels : List Bool) : Prop where
  start : levels[0]? = some false
  bits : ∀ n < 8, ∀ j, (23 + 16 * n) * 163 < j → j ≤ (24 + 16 * n) * 163 →
    levels[j]? = some (byte.getLsbD n)
  stop : ∀ j, 151 * 163 + 1 < j → j < levels.length → levels[j]? = some true
  length : 152 * 163 < levels.length

namespace CommandLine

variable {s s₀ : CommandLine} {b : FpgaByte} {old : UCHAR} {es : List LineEdge}

/-- Between two bytes. -/
structure Between (s : CommandLine) : Prop where
  idle : s.uartRx.stateRegRx = .idle
  ticking : s.link.Ticking
  paced : s.link.recvUart.Paced

/-- In a frame, `j` clocks after its start: the first tick was `first` clocks after it. -/
structure InFrame (b : FpgaByte) (old : UCHAR) (u₀ : RecvUart) (first j : ℕ) (s : CommandLine) :
    Prop where
  busy : s.uartRx.stateRegRx ≠ .idle
  reads : s.uartRx.Reads b.dataRx old
  ticking : s.link.Ticking
  ticks : first + s.uartRx.ticks * 163 = j + s.link.untilTick
  recvUart : s.link.recvUart = u₀

/-- With no byte there is none that the other processes get. -/
theorem doneRx_of_idle (h : s.uartRx.stateRegRx = .idle) (e : LineEdge) :
    s.link.doneRx (s.fpgaEdge e) = none := by
  have hawaits : s.uartRx.awaitsTick = false := by simp [UartRx.awaitsTick, h]
  rw [CommandLink.doneRx, fpgaEdge, hawaits]
  exact ite_self _

/-- The line is high. -/
theorem Between.clk (h : s.Between) {e : LineEdge} (he : e.rx = true) :
    (s.clk e).Between ∧ s.link.doneRx (s.fpgaEdge e) = none := by
  have hnone := doneRx_of_idle h.idle e
  refine ⟨⟨?_, h.ticking.clk _, ?_⟩, hnone⟩
  · rw [CommandLine.clk, he, UartRx.clk_idle h.idle]
    exact h.idle
  · exact (h.paced.clk _ _).1

/-- The start bit, while `recv_uart` waits. -/
theorem Between.start (h : s.Between) (hwaits : s.link.recvUart.Waits) {e : LineEdge}
    (he : e.rx = false) :
    s.link.doneRx (s.fpgaEdge e) = none ∧ ∃ first, 0 < first ∧ first ≤ 163 ∧
      (s.clk e).InFrame b s.uartRx.bReg s.link.recvUart first 1 := by
  have hnone := doneRx_of_idle h.idle e
  have huart : s.uartRx.clk s.link.tick2 e.rx =
      { s.uartRx with stateRegRx := .start, sReg := 0 } := by
    rw [he, UartRx.clk, h.idle]
    rfl
  have hticks : (s.clk e).uartRx.ticks = 0 := by
    rw [CommandLine.clk, huart]
    rfl
  have huntil := h.ticking.untilTick_clk hwaits.startRx (s.fpgaEdge e)
  have hlt := h.ticking.lt
  refine ⟨hnone, 1 + (s.clk e).link.untilTick, by omega, ?_, ?_, ?_, h.ticking.clk _, ?_, ?_⟩
  · change 1 + (s.link.clk (s.fpgaEdge e)).untilTick ≤ 163
    rw [huntil]
    split
    · omega
    · have hle : s.link.untilTick ≤ 163 := by
        rw [CommandLink.untilTick, dvsrMu19200]
        split <;> omega
      omega
  · rw [CommandLine.clk, huart]
    simp
  · rw [CommandLine.clk, huart]
    exact ⟨by change (0 : BitVec 4).toNat < 8; decide, rfl⟩
  · rw [hticks]
    omega
  · change s.link.recvUart.clk e.dataReady (s.link.doneRx (s.fpgaEdge e)) = s.link.recvUart
    rw [hnone]
    exact hwaits.clk e.dataReady

/-- A clock in a frame, up to the last tick, with which the byte is complete. -/
theorem InFrame.clk {u₀ : RecvUart} {first j : ℕ} (h : s.InFrame b old u₀ first j)
    (hu₀ : u₀.Waits) (hpaced : u₀.Paced) (hfirst : 0 < first) (hle : first ≤ 163) {e : LineEdge}
    (hbits : ∀ n < 8, (23 + 16 * n) * 163 < j → j ≤ (24 + 16 * n) * 163 →
      e.rx = b.dataRx.getLsbD n) (hcmd : e.cmdParam = b.cmdParam) :
    (s.clk e).InFrame b old u₀ first (j + 1) ∧ s.link.doneRx (s.fpgaEdge e) = none ∨
      (s.clk e).Between ∧ s.link.doneRx (s.fpgaEdge e) = some b ∧ first + 151 * 163 = j := by
  have hticks := h.ticks
  have hlt := UartRx.ticks_lt h.busy
  have hstart : s.link.recvUart.startRx = true := by
    rw [h.recvUart]
    exact hu₀.startRx
  have huntil := h.ticking.untilTick_clk hstart (s.fpgaEdge e)
  have hrecv : s.link.doneRx (s.fpgaEdge e) = none →
      (s.clk e).link.recvUart = u₀ := by
    intro hnone
    change s.link.recvUart.clk e.dataReady (s.link.doneRx (s.fpgaEdge e)) = u₀
    rw [hnone, h.recvUart]
    exact hu₀.clk e.dataReady
  by_cases htick : s.link.tick2 = true
  · have hzero : s.link.untilTick = 0 := if_pos htick
    rw [hzero, if_pos rfl] at huntil
    rw [hzero, Nat.add_zero] at hticks
    obtain ⟨hreads, hnext⟩ := h.reads.tick h.busy e.rx (by
      intro n hn hticks'
      rw [hticks'] at hticks
      exact hbits n hn (by omega) (by omega))
    have huart : (s.clk e).uartRx = s.uartRx.clk true e.rx := by rw [CommandLine.clk, htick]
    by_cases hlast : s.uartRx.ticks = 151
    · right
      have hawaits : s.uartRx.awaitsTick = true := UartRx.awaitsTick_iff.mpr hlast
      have hstop : s.uartRx.stateRegRx = .stop ∧ s.uartRx.sReg = 15 :=
        of_decide_eq_true hawaits
      have hbyte : s.uartRx.bReg = b.dataRx := by
        have hreads := h.reads
        rw [UartRx.Reads, hstop.1] at hreads
        exact hreads
      refine ⟨⟨?_, h.ticking.clk _, ?_⟩, ?_, by omega⟩
      · rw [huart, UartRx.clk, hstop.1, hstop.2]
        rfl
      · change (s.link.recvUart.clk _ _).Paced
        rw [h.recvUart]
        exact (hpaced.clk _ _).1
      · simp [CommandLink.doneRx, htick, fpgaEdge, hawaits, hbyte, hcmd]
    · left
      have hawaits : s.uartRx.awaitsTick = false := by
        rw [← Bool.not_eq_true, UartRx.awaitsTick_iff]
        exact hlast
      have hnone : s.link.doneRx (s.fpgaEdge e) = none := by
        simp [CommandLink.doneRx, fpgaEdge, hawaits]
      refine ⟨⟨?_, ?_, h.ticking.clk _, ?_, hrecv hnone⟩, hnone⟩
      · intro hidle
        have hend : (s.uartRx.clk true e.rx).ticks = 152 := by
          rw [huart] at hidle
          rw [UartRx.ticks, hidle]
        omega
      · rw [huart]
        exact hreads
      · change first + (s.clk e).uartRx.ticks * 163 =
          j + 1 + (s.link.clk (s.fpgaEdge e)).untilTick
        rw [huart, hnext, huntil]
        omega
  · left
    have hfalse : s.link.tick2 = false := Bool.not_eq_true _ ▸ htick
    have hnone : s.link.doneRx (s.fpgaEdge e) = none := by
      rw [CommandLink.doneRx, if_neg htick]
    have huart : (s.clk e).uartRx = s.uartRx := by
      rw [CommandLine.clk, hfalse]
      exact UartRx.clk_of_not_tick h.busy e.rx
    have hpos : s.link.untilTick ≠ 0 := by
      have hrReg := h.ticking.lt
      rw [CommandLink.untilTick, if_neg htick]
      omega
    rw [if_neg hpos] at huntil
    refine ⟨⟨?_, ?_, h.ticking.clk _, ?_, hrecv hnone⟩, hnone⟩
    · rw [huart]
      exact h.busy
    · rw [huart]
      exact h.reads
    · change first + (s.clk e).uartRx.ticks * 163 =
        j + 1 + (s.link.clk (s.fpgaEdge e)).untilTick
      rw [huart, huntil]
      omega

/-! ## Runs -/

/-- The bytes that the other processes get in a run. -/
def received (s : CommandLine) (es : List LineEdge) : List FpgaByte :=
  s.link.received (s.fpgaEdges es)

theorem link_exec (s : CommandLine) (es : List LineEdge) :
    (s.after es).link = Transition.exec CommandLink.clk s.link (s.fpgaEdges es) := by
  induction es generalizing s with
  | nil => rfl
  | cons e es ih => exact ih (s.clk e)

theorem after_append (s : CommandLine) (es fs : List LineEdge) :
    s.after (es ++ fs) = (s.after es).after fs :=
  List.foldl_append

theorem after_concat (s : CommandLine) (es : List LineEdge) (e : LineEdge) :
    s.after (es ++ [e]) = (s.after es).clk e :=
  s.after_append es [e]

theorem fpgaEdges_append (s : CommandLine) (es fs : List LineEdge) :
    s.fpgaEdges (es ++ fs) = s.fpgaEdges es ++ (s.after es).fpgaEdges fs := by
  induction es generalizing s with
  | nil => rfl
  | cons e es ih => exact congrArg (s.fpgaEdge e :: ·) (ih (s.clk e))

theorem received_append (s : CommandLine) (es fs : List LineEdge) :
    s.received (es ++ fs) = s.received es ++ (s.after es).received fs := by
  rw [received, fpgaEdges_append, CommandLink.received_append, ← link_exec]
  rfl

theorem received_concat (s : CommandLine) (es : List LineEdge) (e : LineEdge) :
    s.received (es ++ [e]) = s.received es ++
      ((s.after es).link.doneRx ((s.after es).fpgaEdge e)).toList := by
  rw [received_append]
  exact congrArg _ (List.append_nil _)

/-- While the line is high nothing comes. -/
theorem Between.exec (h : s.Between) (hes : ∀ e ∈ es, e.rx = true) :
    (s.after es).Between ∧ s.received es = [] := by
  induction es using List.reverseRecOn with
  | nil => exact ⟨h, rfl⟩
  | append_singleton es e ih =>
      obtain ⟨hbetween, hnone⟩ := ih fun e' he' => hes e' (List.mem_append_left [e] he')
      obtain ⟨hnext, hdone⟩ := hbetween.clk (hes e (List.mem_append_right es List.mem_cons_self))
      rw [after_concat, received_concat, hnone, hdone]
      exact ⟨hnext, rfl⟩

/-- And seven clocks with `DataReady` are enough for a byte to be waited for. -/
theorem Between.waits (h : s.Between) (hlength : 7 ≤ es.length)
    (hes : ∀ e ∈ es, e.rx = true ∧ e.dataReady = true) :
    (s.after es).link.recvUart.Waits := by
  have hrx : ∀ e ∈ es, e.rx = true := fun e he => (hes e he).1
  have hclocks : (s.after es).link.recvUart.clocksToWait ≤ 7 - es.length := by
    clear hlength
    induction es using List.reverseRecOn with
    | nil =>
        change s.link.recvUart.clocksToWait ≤ 7
        rw [RecvUart.clocksToWait]
        split <;> decide
    | append_singleton es e ih =>
        have hes' : ∀ e' ∈ es, e'.rx = true ∧ e'.dataReady = true :=
          fun e' he' => hes e' (List.mem_append_left [e] he')
        have hold := ih hes' fun e' he' => (hes' e' he').1
        obtain ⟨hbetween, -⟩ := h.exec fun e' he' => (hes' e' he').1
        obtain ⟨hhigh, hready⟩ := hes e (List.mem_append_right es List.mem_cons_self)
        obtain ⟨-, hdone⟩ := hbetween.clk hhigh
        have hclk := (hbetween.paced.clk e.dataReady
          ((s.after es).link.doneRx ((s.after es).fpgaEdge e))).2
          hready hdone
        rw [after_concat, List.length_append, List.length_singleton]
        change ((s.after es).link.recvUart.clk e.dataReady _).clocksToWait ≤ _
        rw [hclk]
        omega
  refine (h.exec hrx).1.paced.waits ?_
  omega

/-- The frame of a byte gives this byte, and leaves the receiver as it was. -/
theorem Between.frame (h : s.Between) (hwaits : s.link.recvUart.Waits)
    (hframe : IsFrame b.dataRx (es.map LineEdge.rx)) (hcmd : ∀ e ∈ es, e.cmdParam = b.cmdParam) :
    (s.after es).Between ∧ s.received es = [b] := by
  have hlong := hframe.length
  rw [List.length_map] at hlong
  have hlevel {j : ℕ} {v : Bool} (hj : j < es.length)
      (hv : (es.map LineEdge.rx)[j]? = some v) : es[j].rx = v := by
    simpa [hj] using hv
  have htake {j : ℕ} (hj : j < es.length) : es.take (j + 1) = es.take j ++ [es[j]] :=
    List.take_succ_eq_append_getElem hj
  have hpos : 0 < es.length := by omega
  obtain ⟨hnone, first, hfirst, hle, hbegun⟩ :=
    h.start (b := b) hwaits (e := es[0]) (hlevel hpos hframe.start)
  -- the frame clock by clock: the byte is not complete yet, or the line is high since
  have hrun (j : ℕ) (hj : j < es.length) :
      (s.after (es.take (j + 1))).InFrame b s.uartRx.bReg s.link.recvUart first
          (j + 1) ∧ s.received (es.take (j + 1)) = [] ∨
        (s.after (es.take (j + 1))).Between ∧
          s.received (es.take (j + 1)) = [b] ∧ first + 151 * 163 ≤ j := by
    induction j with
    | zero =>
        rw [htake hj, List.take_zero, after_concat, received_concat]
        refine .inl ⟨hbegun, ?_⟩
        change ([] : List FpgaByte) ++ (s.link.doneRx (s.fpgaEdge es[0])).toList = []
        rw [hnone]
        rfl
    | succ j ih =>
        rw [htake hj, after_concat, received_concat]
        rcases ih (by omega) with ⟨hin, hempty⟩ | ⟨hbetween, hgot, hafter⟩
        · rw [hempty]
          have hbits (n : ℕ) (hn : n < 8) (hlo : (23 + 16 * n) * 163 < j + 1)
              (hhi : j + 1 ≤ (24 + 16 * n) * 163) : es[j + 1].rx = b.dataRx.getLsbD n :=
            hlevel hj (hframe.bits n hn (j + 1) hlo hhi)
          have hclk := hin.clk hwaits h.paced hfirst hle hbits
            (hcmd es[j + 1] (List.getElem_mem hj))
          rcases hclk with ⟨hnext, hdone⟩ | ⟨hnext, hdone, hlast⟩
          · rw [hdone]
            exact .inl ⟨hnext, rfl⟩
          · rw [hdone]
            exact .inr ⟨hnext, rfl, by omega⟩
        · have hhigh : es[j + 1].rx = true := by
            refine hlevel hj (hframe.stop (j + 1) (by omega) ?_)
            rwa [List.length_map]
          obtain ⟨hnext, hdone⟩ := hbetween.clk hhigh
          rw [hgot, hdone]
          exact .inr ⟨hnext, rfl, by omega⟩
  have hlast := hrun (es.length - 1) (by omega)
  rw [Nat.sub_add_cancel hpos, List.take_length] at hlast
  rcases hlast with ⟨hin, -⟩ | ⟨hbetween, hgot, -⟩
  · have hticks := hin.ticks
    have hlt := UartRx.ticks_lt hin.busy
    omega
  · exact ⟨hbetween, hgot⟩

/-! ## Messages -/

/-- What there is on the line and on the pins when bytes are sent: before each of them
`DataReady` is set for seven clocks at least, and `CmdParam` holds while it is sent. -/
inductive Sends : List FpgaByte → List LineEdge → Prop where
  | quiet (es : List LineEdge) (hes : ∀ e ∈ es, e.rx = true) : Sends [] es
  | byte (b : FpgaByte) {bs : List FpgaByte} (gap ready frame : List LineEdge)
      {rest : List LineEdge} (hgap : ∀ e ∈ gap, e.rx = true) (hlength : 7 ≤ ready.length)
      (hready : ∀ e ∈ ready, e.rx = true ∧ e.dataReady = true)
      (hframe : IsFrame b.dataRx (frame.map LineEdge.rx))
      (hcmd : ∀ e ∈ frame, e.cmdParam = b.cmdParam) (hrest : Sends bs rest) :
      Sends (b :: bs) (gap ++ ready ++ frame ++ rest)

theorem Between.sends {bs : List FpgaByte} (h : s.Between) (hsends : Sends bs es) :
    (s.after es).Between ∧ s.received es = bs := by
  induction hsends generalizing s with
  | quiet es hes => exact h.exec hes
  | byte b gap ready frame hgap hlength hready hframe hcmd hrest ih =>
      obtain ⟨hbefore, hnone⟩ := h.exec hgap
      obtain ⟨hbegin, hnone'⟩ := hbefore.exec fun e he => (hready e he).1
      have hwaits := hbefore.waits hlength hready
      obtain ⟨hbetween, hgot⟩ := hbegin.frame hwaits hframe hcmd
      obtain ⟨hend, hgots⟩ := ih hbetween
      refine ⟨?_, ?_⟩
      · rw [after_append, after_append, after_append]
        exact hend
      · simp only [received_append, after_append, hnone, hnone', hgot, hgots]
        rfl

theorem between_reset (s₀ : CalcSignals) : (reset s₀).Between where
  idle := rfl
  ticking := ⟨Nat.succ_pos 162, nofun⟩
  paced := .waking

/-- Whatever is sent comes: from the reset on, every byte with the value of `CmdParam` that
goes with it, once and in order. `DataReady` is set for seven clocks before each frame. -/
theorem received_of_sends (s₀ : CalcSignals) {bs : List FpgaByte} (hsends : Sends bs es) :
    (reset s₀).received es = bs :=
  ((between_reset s₀).sends hsends).2

/-- What the last of the messages that name the register says, or what was there before. -/
def lastRate (vs : List (BitVec 64)) (r : RateReg) (before : BitVec 26) : BitVec 26 :=
  match vs.reverse.find? fun v => v.setWidth 8 = r.cmd with
  | some v => r.table (((v >>> 8).setWidth 8).extractLsb' 0 4)
  | none => before

theorem rates_foldl (vs : List (BitVec 64)) (m : RateLoad) (r : RateReg) :
    ((vs.flatMap startSendFPGA).foldl RateLoad.recvByte m).rates r =
      lastRate vs r (m.rates r) := by
  induction vs using List.reverseRecOn with
  | nil => rfl
  | append_singleton vs v ih =>
      rw [List.flatMap_append, List.flatMap_singleton, List.foldl_append,
        RateLoad.recvBytes_startSendFPGA, setRates, lastRate, List.reverse_concat, List.find?_cons]
      by_cases hcmd : v.setWidth 8 = r.cmd
      · simp [hcmd]
      · rw [if_neg hcmd, ih, lastRate]
        simp [hcmd]

theorem Between.pause (h : s.Between) (hlength : 4 ≤ es.length) (hes : ∀ e ∈ es, e.rx = true) :
    CommandLink.Pause (s.fpgaEdges es) := by
  have hpause : (s.fpgaEdges es).length = es.length ∧ ∀ e ∈ s.fpgaEdges es, e.rx = none := by
    clear hlength
    induction es generalizing s with
    | nil => exact ⟨rfl, nofun⟩
    | cons e es ih =>
        obtain ⟨hhigh, hrest⟩ := List.forall_mem_cons.mp hes
        obtain ⟨hlen, hnone⟩ := ih (h.clk hhigh).1 hrest
        refine ⟨congrArg (· + 1) hlen, List.forall_mem_cons.mpr ⟨?_, hnone⟩⟩
        have hawaits : s.uartRx.awaitsTick = false := by simp [UartRx.awaitsTick, h.idle]
        simp only [fpgaEdge, hawaits, Bool.false_eq_true, if_false]
  exact ⟨hpause.1.symm ▸ hlength, hpause.2⟩

/-- Any sequence of messages on the line, from the reset on: each register with a table has
the entry for the parameter of the last message that names it. -/
theorem rates_of_sends (s₀ : CalcSignals) {vs : List (BitVec 64)} {pause : List LineEdge}
    (hsends : Sends (vs.flatMap startSendFPGA) es) (hlength : 4 ≤ pause.length)
    (hpause : ∀ e ∈ pause, e.rx = true) (r : RateReg) :
    ((reset s₀).after (es ++ pause)).link.calcProc1.rate r = lastRate vs r (s₀.reset.rate r) := by
  obtain ⟨hbetween, hgot⟩ := (between_reset s₀).sends hsends
  have hinv := (CommandLink.inv_reset s₀).exec ((reset s₀).fpgaEdges es)
  have hnothing : ¬ Pending (CommandLink.reset s₀).recvUart := by
    rintro ⟨-, ⟨hreg, -⟩ | hreg | ⟨hreg, -⟩⟩ <;> cases hreg
  have hload : (CommandLink.reset s₀).load.rates = s₀.reset.rate := by
    simp only [CommandLink.load, rateLoad, if_neg hnothing]
    rfl
  have hquiet := hbetween.pause hlength hpause
  have hsettled := hinv.1.settled hquiet
  have hend := (hinv.1.exec (((reset s₀).after es).fpgaEdges pause)).2
  rw [CommandLink.received_of_none hquiet.2, List.foldl_nil, hinv.2] at hend
  rw [link_exec, fpgaEdges_append, Transition.exec_append]
  refine (congrFun hsettled r).symm.trans ?_
  rw [hend]
  change ((received (reset s₀) es).foldl RateLoad.recvByte _).rates r = _
  rw [hgot, rates_foldl, hload]

/-! ## Bits of equal length -/

/-- What is on the line `j` clocks after the start of a frame with `bitTime` clocks for a bit. -/
def level (bitTime : ℕ) (byte : UCHAR) (j : ℕ) : Bool :=
  match j / bitTime with
  | 0 => false
  | n + 1 => if n < 8 then byte.getLsbD n else true

/-- From 18,282 to 20,177 bits in a second, at 50 MHz. -/
theorem isFrame_of_bitTime {bitTime : ℕ} (hlo : 2478 ≤ bitTime) (hhi : bitTime ≤ 2735)
    (byte : UCHAR) : IsFrame byte ((List.range (10 * bitTime)).map (level bitTime byte)) := by
  have hget {j : ℕ} (hj : j < 10 * bitTime) :
      ((List.range (10 * bitTime)).map (level bitTime byte))[j]? = some (level bitTime byte j) := by
    simp [hj]
  refine ⟨?_, ?_, ?_, ?_⟩
  · rw [hget (by omega), level, Nat.zero_div]
  · intro n hn j hafter hbefore
    have hdiv : j / bitTime = n + 1 := by
      apply Nat.div_eq_of_lt_le
      · interval_cases n <;> omega
      · interval_cases n <;> omega
    have hj : j < 10 * bitTime := by omega
    rw [hget hj, level, hdiv]
    exact congrArg some (if_pos hn)
  · intro j hafter hj
    rw [List.length_map, List.length_range] at hj
    have hdiv : 9 ≤ j / bitTime := (Nat.le_div_iff_mul_le (by omega)).mpr (by omega)
    obtain ⟨n, hn⟩ : ∃ n, j / bitTime = n + 9 := ⟨j / bitTime - 9, by omega⟩
    rw [hget hj, level, hn]
    exact congrArg some (if_neg (by omega))
  · rw [List.length_map, List.length_range]
    omega

/-- A byte after seven clocks with `DataReady`, at the nominal rate. -/
def sendByte (b : FpgaByte) : List LineEdge :=
  [] ++ List.replicate 7 ⟨true, b.cmdParam, true, false⟩ ++
    ((List.range (10 * 2604)).map (level 2604 b.dataRx)).map fun rx => ⟨true, b.cmdParam, rx, false⟩

theorem sends_sendByte (bs : List FpgaByte) : Sends bs (bs.flatMap sendByte) := by
  induction bs with
  | nil => exact .quiet [] nofun
  | cons b bs ih =>
      have hframe := isFrame_of_bitTime (by decide : 2478 ≤ 2604) (by decide) b.dataRx
      refine .byte b [] _ _ nofun (Nat.le_refl 7) ?_ ?_ ?_ ih
      · intro e he
        rw [List.eq_of_mem_replicate he]
        exact ⟨rfl, rfl⟩
      · rw [List.map_map]
        exact (List.map_id _).symm ▸ hframe
      · intro e he
        obtain ⟨rx, -, rfl⟩ := List.mem_map.mp he
        rfl

theorem received_of_sends_message :
    (reset CommandLink.powerUp).received ((startSendFPGA 0xFF0902).flatMap sendByte) =
      startSendFPGA 0xFF0902 :=
  received_of_sends CommandLink.powerUp (sends_sendByte _)

theorem rates_of_sends_two :
    let vs : List (BitVec 64) := [0x0302, 0x0902]
    let s := (reset CommandLink.powerUp).after ((vs.flatMap startSendFPGA).flatMap sendByte ++
      List.replicate 4 ⟨false, false, true, false⟩)
    s.link.calcProc1.rate .rpmMphDelay =
      lastRate vs .rpmMphDelay (CommandLink.powerUp.reset.rate .rpmMphDelay) := by
  refine rates_of_sends CommandLink.powerUp (sends_sendByte _) (by simp) ?_ .rpmMphDelay
  intro e he
  rw [List.eq_of_mem_replicate he]

end CommandLine

end TruckControl
