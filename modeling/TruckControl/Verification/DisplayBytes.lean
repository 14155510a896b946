import Mathlib.Algebra.Group.Nat.Defs
import TruckControl.Model.DisplaySender
import TruckControl.Verification.FpgaCommands

/-!
# When the bytes for the display are sent

`send_mph_rpm_unit` starts a byte without a look at `uart_tx`. A byte on the line is over
after as many clock edges as it has ticks left, whatever happens.
-/

namespace TruckControl

/-! ## The byte on the line -/

namespace UartTx

/-- The ticks until the stop bit is over. -/
def ticksLeft (u : UartTx) : ℕ :=
  match u.startRegRx with
  | .idle => 0
  | .start => 160 - u.sReg.toNat
  | .data => 144 - 16 * u.nReg.toNat - u.sReg.toNat
  | .stop => 16 - u.sReg.toNat

theorem ticksLeft_pos {u : UartTx} (h : u.startRegRx ≠ .idle) : 0 < u.ticksLeft := by
  have hs := u.sReg.isLt
  have hn := u.nReg.isLt
  rw [ticksLeft]
  cases hstate : u.startRegRx with
  | idle => exact absurd hstate h
  | start | data | stop => simp only; omega

theorem ticksLeft_le (u : UartTx) : u.ticksLeft ≤ 160 := by
  rw [ticksLeft]
  cases u.startRegRx <;> simp only <;> omega

theorem ticksLeft_clk_idle {u : UartTx} (h : u.startRegRx = .idle) (txStart sTick : Bool)
    (din : UCHAR) : (u.clk txStart sTick din).ticksLeft = if txStart then 160 else 0 := by
  cases txStart with
  | true => simp [clk, h, ticksLeft]
  | false => simp [clk, h, ticksLeft]

theorem toNat_sReg_succ {u : UartTx} (h : u.sReg ≠ 15) : (u.sReg + 1).toNat = u.sReg.toNat + 1 := by
  have hlt := u.sReg.isLt
  have hne : u.sReg.toNat ≠ 15 := fun heq => h (BitVec.eq_of_toNat_eq heq)
  rw [BitVec.toNat_add]
  exact Nat.mod_eq_of_lt (by simp; omega)

theorem toNat_nReg_succ {u : UartTx} (h : u.nReg ≠ 7) : (u.nReg + 1).toNat = u.nReg.toNat + 1 := by
  have hlt := u.nReg.isLt
  have hne : u.nReg.toNat ≠ 7 := fun heq => h (BitVec.eq_of_toNat_eq heq)
  rw [BitVec.toNat_add]
  exact Nat.mod_eq_of_lt (by simp; omega)

/-- A byte on the line goes on by its ticks alone. -/
theorem ticksLeft_clk {u : UartTx} (h : u.startRegRx ≠ .idle) (txStart sTick : Bool)
    (din : UCHAR) : (u.clk txStart sTick din).ticksLeft = u.ticksLeft - sTick.toNat := by
  cases hstate : u.startRegRx with
  | idle => exact absurd hstate h
  | start | stop =>
      cases sTick with
      | false => simp [clk, ticksLeft, hstate]
      | true =>
          by_cases hs : u.sReg = 15
          · simp [clk, ticksLeft, hstate, hs]
          · simp only [clk, ticksLeft, hstate, if_true, if_neg hs, toNat_sReg_succ hs,
              Bool.toNat_true]
            omega
  | data =>
      cases sTick with
      | false => simp [clk, ticksLeft, hstate]
      | true =>
          by_cases hs : u.sReg = 15
          · by_cases hn : u.nReg = 7
            · simp [clk, ticksLeft, hstate, hs, hn]
            · have hlt := u.nReg.isLt
              simp only [clk, ticksLeft, hstate, if_true, if_neg hn, toNat_nReg_succ hn,
                Bool.toNat_true, hs]
              simp
              omega
          · simp only [clk, ticksLeft, hstate, if_true, if_neg hs, toNat_sReg_succ hs,
              Bool.toNat_true]
            omega

/-- The clock edges until it is over, when the counter of the ticks is at `rReg`. -/
def clocksLeft (rReg : ℕ) (u : UartTx) : ℕ := dvsrMu19200 * u.ticksLeft - rReg

theorem clocksLeft_eq_zero_iff {rReg : ℕ} (hr : rReg < dvsrMu19200) (u : UartTx) :
    u.clocksLeft rReg = 0 ↔ u.startRegRx = .idle := by
  have hdvsr : dvsrMu19200 = 163 := rfl
  constructor
  · intro hzero
    by_contra hbusy
    have hpos := ticksLeft_pos hbusy
    rw [clocksLeft, hdvsr] at hzero
    omega
  · intro hidle
    simp [clocksLeft, ticksLeft, hidle]

theorem modM_lt {rReg : ℕ} (hr : rReg < dvsrMu19200) : modM rReg < dvsrMu19200 := by
  have hdvsr : dvsrMu19200 = 163 := rfl
  rw [modM]
  split_ifs <;> omega

theorem clocksLeft_clk {rReg : ℕ} (hr : rReg < dvsrMu19200) {u : UartTx} (txStart : Bool)
    (din : UCHAR) (h : u.startRegRx = .idle → txStart = false) :
    (u.clk txStart (maxTick rReg) din).clocksLeft (modM rReg) = u.clocksLeft rReg - 1 := by
  have hdvsr : dvsrMu19200 = 163 := rfl
  by_cases hidle : u.startRegRx = .idle
  · have hnone : u.ticksLeft = 0 := by rw [ticksLeft, hidle]
    rw [clocksLeft, clocksLeft, ticksLeft_clk_idle hidle, h hidle, hnone]
    simp
  · have hpos := ticksLeft_pos hidle
    rw [clocksLeft, clocksLeft, ticksLeft_clk hidle, modM, maxTick, hdvsr]
    split_ifs with hmax
    · simp only [hmax, decide_true, Bool.toNat_true]
      omega
    · simp only [hmax, decide_false, Bool.toNat_false]
      omega

/-- A byte that is taken has 160 ticks, and the first may come at once. -/
theorem clocksLeft_clk_start (rReg : ℕ) {u : UartTx} (h : u.startRegRx = .idle) (din : UCHAR) :
    (u.clk true (maxTick rReg) din).clocksLeft (modM rReg) = 26080 - modM rReg := by
  rw [clocksLeft, ticksLeft_clk_idle h]
  rfl

end UartTx

/-! ## The start of a byte -/

namespace DisplaySender

variable {s : DisplaySender} {e : DisplayEdge}

/-- The clock edges until the byte on the line is over. -/
def clocksLeft (s : DisplaySender) : ℕ := s.uartTx.clocksLeft s.rReg

/-- `uart_tx` sees the first of the two edges of a pulse of `start_tx`. -/
def Pulse (s : DisplaySender) : Prop :=
  s.led.stateLedReg = .ledStartXmit ∧ s.led.startTx = true

/-- The byte is transmitted. -/
def Taken (s : DisplaySender) : Prop := s.Pulse → s.uartTx.startRegRx = .idle

/-- `if time_delay_reg1 > rpm_mph_delay`. -/
def Over (s : DisplaySender) : Prop :=
  s.led.timeDelayReg1.toNat > s.link.calcProc1.rpmMphDelay.toNat

/-- A delay ends, three edges before its pulse. -/
def DelayEnds (s : DisplaySender) : Prop :=
  s.led.stateLedReg = .ledDelay ∧ s.led.stateLedNext = .ledDelay ∧ s.Over

/-- A delay ends only when the byte on the line is as good as over. -/
def Finished (s : DisplaySender) : Prop := s.DelayEnds → s.clocksLeft ≤ 3

theorem rReg_run (s₀ : CalcSignals) (skip2 : Bool) (es : ℕ → DisplayEdge) (n : ℕ) :
    (run s₀ skip2 es n).rReg < dvsrMu19200 := by
  induction n with
  | zero => exact Nat.succ_pos _
  | succ n ih => exact UartTx.modM_lt ih

/-- Without a start the byte on the line goes on. -/
theorem clocksLeft_clk (hr : s.rReg < dvsrMu19200)
    (h : s.uartTx.startRegRx = .idle → s.led.startTx = false) (e : DisplayEdge) :
    (s.clk e).clocksLeft = s.clocksLeft - 1 :=
  UartTx.clocksLeft_clk hr s.led.startTx s.led.dataTx h

theorem clocksLeft_le_clk (hr : s.rReg < dvsrMu19200) (e : DisplayEdge) :
    s.clocksLeft ≤ (s.clk e).clocksLeft + 1 := by
  by_cases hidle : s.uartTx.startRegRx = .idle
  · have hzero := (UartTx.clocksLeft_eq_zero_iff hr s.uartTx).mpr hidle
    rw [clocksLeft, hzero]
    exact Nat.zero_le _
  · rw [clocksLeft_clk hr (fun h => absurd h hidle) e]
    omega

/-- The three edges after the end of a delay. -/
theorem DelayEnds.pulse (h : s.DelayEnds) (e e' e'' : DisplayEdge) :
    (((s.clk e).clk e').clk e'').Pulse := by
  obtain ⟨hreg, hnext, hover⟩ := h
  rw [Over] at hover
  have hfirst : (s.clk e).led.stateLedReg = .ledDelay ∧
      (s.clk e).led.stateLedNext = .ledStartXmit := by
    simp [clk, LedUnit.clk, LedUnit.ledCase, ledIn, hreg, hnext, hover]
  have hsecond : ((s.clk e).clk e').led.stateLedReg = .ledStartXmit ∧
      ((s.clk e).clk e').led.stateLedNext = .ledStartXmit := by
    generalize s.clk e = t at hfirst ⊢
    simp only [clk, LedUnit.clk, LedUnit.ledCase, hfirst.1, hfirst.2]
    split_ifs <;> simp
  generalize (s.clk e).clk e' = t at hsecond ⊢
  simp [Pulse, clk, LedUnit.clk, LedUnit.ledCase, hsecond]

/-- What holds in a run in which delays end only when the byte on the line is over. -/
inductive InTime (s : DisplaySender) : Prop where
  | resting (hreg : s.led.stateLedReg = .ledIdle)
      (hnext : s.led.stateLedNext = .ledIdle ∨ s.led.stateLedNext = .ledStart)
      (hstart : s.led.startTx = false)
  | sampling (hreg : s.led.stateLedReg = .ledStart)
      (hnext : s.led.stateLedNext = .ledStart ∨ s.led.stateLedNext = .ledDelay)
      (hstart : s.led.startTx = false)
  | delaying (hreg : s.led.stateLedReg = .ledDelay) (hnext : s.led.stateLedNext = .ledDelay)
      (hstart : s.led.startTx = false)
  | ending (hreg : s.led.stateLedReg = .ledDelay) (hnext : s.led.stateLedNext = .ledStartXmit)
      (hstart : s.led.startTx = false) (hleft : s.clocksLeft ≤ 2)
  | starting (hreg : s.led.stateLedReg = .ledStartXmit)
      (hnext : s.led.stateLedNext = .ledStartXmit)
      (hstart : s.led.startTx = false) (hleft : s.clocksLeft ≤ 1)
  | pulse (hreg : s.led.stateLedReg = .ledStartXmit) (hnext : s.led.stateLedNext = .ledDone)
      (hstart : s.led.startTx = true) (hleft : s.clocksLeft = 0)
  | started (hreg : s.led.stateLedReg = .ledDone) (hnext : s.led.stateLedNext = .ledDone)
      (hbusy : s.uartTx.startRegRx ≠ .idle)
  | leaving (hreg : s.led.stateLedReg = .ledDone) (hnext : s.led.stateLedNext = .ledIdle)
      (hstart : s.led.startTx = false)

theorem InTime.clk (h : s.InTime) (hr : s.rReg < dvsrMu19200) (hfinished : s.Finished)
    (e : DisplayEdge) : (s.clk e).InTime := by
  cases h with
  | resting hreg hnext hstart =>
      rcases hnext with hnext | hnext
      · refine .resting hnext (.inr ?_) ?_ <;>
          simp [DisplaySender.clk, LedUnit.clk, LedUnit.ledCase, hreg]
      · refine .sampling hnext (.inl ?_) ?_ <;>
          simp [DisplaySender.clk, LedUnit.clk, LedUnit.ledCase, hreg]
  | sampling hreg hnext hstart =>
      rcases hnext with hnext | hnext
      · refine .sampling hnext (.inr ?_) ?_ <;>
          simp [DisplaySender.clk, LedUnit.clk, LedUnit.ledCase, hreg, hstart]
      · refine .delaying hnext ?_ ?_ <;>
          simp [DisplaySender.clk, LedUnit.clk, LedUnit.ledCase, hreg, hstart]
  | delaying hreg hnext hstart =>
      by_cases hover : s.Over
      · have hleft := hfinished ⟨hreg, hnext, hover⟩
        rw [Over] at hover
        refine .ending hnext ?_ ?_ ?_
        · simp [DisplaySender.clk, LedUnit.clk, LedUnit.ledCase, ledIn, hreg, hover]
        · simp [DisplaySender.clk, LedUnit.clk, LedUnit.ledCase, ledIn, hreg, hover, hstart]
        · rw [clocksLeft_clk hr (fun _ => hstart) e]
          omega
      · rw [Over] at hover
        refine .delaying hnext ?_ ?_ <;>
          simp [DisplaySender.clk, LedUnit.clk, LedUnit.ledCase, ledIn, hreg, hnext, hover,
            hstart]
  | ending hreg hnext hstart hleft =>
      refine .starting hnext ?_ ?_ ?_
      · simp only [DisplaySender.clk, LedUnit.clk, LedUnit.ledCase, hreg]
        split_ifs <;> simp [hnext]
      · simp only [DisplaySender.clk, LedUnit.clk, LedUnit.ledCase, hreg]
        split_ifs <;> simp [hstart]
      · rw [clocksLeft_clk hr (fun _ => hstart) e]
        omega
  | starting hreg hnext hstart hleft =>
      refine .pulse hnext ?_ ?_ ?_
      · simp [DisplaySender.clk, LedUnit.clk, LedUnit.ledCase, hreg]
      · simp [DisplaySender.clk, LedUnit.clk, LedUnit.ledCase, hreg]
      · rw [clocksLeft_clk hr (fun _ => hstart) e]
        omega
  | pulse hreg hnext hstart hleft =>
      have hidle := (UartTx.clocksLeft_eq_zero_iff hr s.uartTx).mp hleft
      refine .started hnext ?_ ?_
      · simp [DisplaySender.clk, LedUnit.clk, LedUnit.ledCase, hreg]
      · simp [DisplaySender.clk, UartTx.clk, hidle, hstart]
  | started hreg hnext hbusy =>
      refine .leaving hnext ?_ ?_ <;>
        simp [DisplaySender.clk, LedUnit.clk, LedUnit.ledCase, hreg]
  | leaving hreg hnext hstart =>
      refine .resting hnext (.inl ?_) ?_ <;>
        simp [DisplaySender.clk, LedUnit.clk, LedUnit.ledCase, hreg]

theorem InTime.taken (h : s.InTime) (hr : s.rReg < dvsrMu19200) : s.Taken := by
  rintro ⟨hreg, hpulse⟩
  cases h with
  | pulse _ _ _ hleft => exact (UartTx.clocksLeft_eq_zero_iff hr s.uartTx).mp hleft
  | starting _ _ hstart =>
      rw [hpulse] at hstart
      cases hstart
  | resting hreg' | sampling hreg' | delaying hreg' | ending hreg' | started hreg'
  | leaving hreg' =>
      rw [hreg] at hreg'
      cases hreg'

variable {s₀ : CalcSignals} {skip2 : Bool} {es : ℕ → DisplayEdge}

theorem inTime_run (h : ∀ n, (run s₀ skip2 es n).Finished) (n : ℕ) :
    (run s₀ skip2 es n).InTime := by
  induction n with
  | zero => exact .resting rfl (.inl rfl) rfl
  | succ n ih => exact ih.clk (rReg_run s₀ skip2 es n) (h n) (es n)

/-- No byte is dropped in a run exactly if its delays end only when the byte on the line is
as good as over. -/
theorem taken_iff_finished :
    (∀ n, (run s₀ skip2 es n).Taken) ↔ ∀ n, (run s₀ skip2 es n).Finished := by
  constructor
  · intro h n hends
    have hidle := h (n + 3) (hends.pulse (es n) (es (n + 1)) (es (n + 2)))
    have hzero : (run s₀ skip2 es (n + 3)).clocksLeft = 0 :=
      (UartTx.clocksLeft_eq_zero_iff (rReg_run s₀ skip2 es (n + 3)) _).mpr hidle
    have hrun (m : ℕ) :
        (run s₀ skip2 es m).clocksLeft ≤ (run s₀ skip2 es (m + 1)).clocksLeft + 1 :=
      clocksLeft_le_clk (rReg_run s₀ skip2 es m) (es m)
    have hsecond : (run s₀ skip2 es (n + 1)).clocksLeft ≤
        (run s₀ skip2 es (n + 2)).clocksLeft + 1 := hrun (n + 1)
    have hthird : (run s₀ skip2 es (n + 2)).clocksLeft ≤
        (run s₀ skip2 es (n + 3)).clocksLeft + 1 := hrun (n + 2)
    exact (hrun n).trans (by omega)
  · intro h n
    exact (inTime_run h n).taken (rReg_run s₀ skip2 es n)

/-! ## Delays that are long enough -/

/-- The edges since the last byte was started, for a sender that is not about to start one. -/
def elapsed (l : LedUnit) : ℕ :=
  match l.stateLedReg, l.stateLedNext with
  | .ledDone, .ledDone => 0
  | .ledDone, _ => 1
  | .ledIdle, .ledIdle => 2
  | .ledIdle, _ => 3
  | .ledStart, .ledStart => 4
  | .ledStart, _ => 5
  | .ledDelay, .ledDelay => 6 + l.timeDelayReg1.toNat + l.timeDelayNext1.toNat
  | _, _ => 0

/-- A delay counts far enough, and its second edge sees the same. -/
structure LongDelay (s : DisplaySender) : Prop where
  ends : s.DelayEnds → 13036 ≤ s.led.timeDelayReg1.toNat
  stays : s.led.stateLedReg = .ledDelay → s.led.stateLedNext = .ledStartXmit → s.Over

theorem clocksLeft_le (s : DisplaySender) : s.clocksLeft ≤ 26080 := by
  have hticks := s.uartTx.ticksLeft_le
  have hdvsr : dvsrMu19200 = 163 := rfl
  rw [clocksLeft, UartTx.clocksLeft, hdvsr]
  omega

/-- The timer is at rest outside a delay, and the byte on the line is as far as the sender. -/
structure Paced (s : DisplaySender) : Prop where
  inTime : s.InTime
  atRest : s.led.stateLedReg ≠ .ledDelay →
    s.led.timeDelayReg1 = 0 ∧ s.led.timeDelayNext1 = 0
  counting : s.led.stateLedReg = .ledDelay → s.led.stateLedNext = .ledDelay →
    s.led.timeDelayNext1 = s.led.timeDelayReg1 ∨
      s.led.timeDelayNext1 = s.led.timeDelayReg1 + 1
  counted : s.led.stateLedReg = .ledDelay → s.led.stateLedNext = .ledStartXmit →
    s.led.timeDelayNext1 = 0
  left : s.clocksLeft ≤ 26080 - elapsed s.led

theorem Paced.finished (h : s.Paced) (hlong : s.LongDelay) : s.Finished := by
  intro hends
  obtain ⟨hreg, hnext, hover⟩ := hends
  have hcount := hlong.ends ⟨hreg, hnext, hover⟩
  have hleft := h.left
  have helapsed : elapsed s.led =
      6 + s.led.timeDelayReg1.toNat + s.led.timeDelayNext1.toNat := by
    rw [elapsed, hreg, hnext]
  rcases h.counting hreg hnext with heq | heq
  · rw [helapsed, heq] at hleft
    omega
  · rw [helapsed, heq, BitVec.toNat_add] at hleft
    have hlt := s.led.timeDelayReg1.isLt
    have hone : (1 : BitVec 25).toNat = 1 := rfl
    rw [hone] at hleft
    omega

/-- An edge adds one at most, but for those at a pulse. -/
theorem Paced.elapsed_clk (h : s.Paced) (hreg : s.led.stateLedReg ≠ .ledStartXmit)
    (e : DisplayEdge) : elapsed (s.clk e).led ≤ elapsed s.led + 1 := by
  cases h.inTime with
  | resting hreg' hnext | sampling hreg' hnext =>
      have htimer := h.atRest (by rw [hreg']; decide)
      rcases hnext with hnext | hnext <;>
        simp [DisplaySender.clk, LedUnit.clk, LedUnit.ledCase, elapsed, hreg', hnext, htimer]
  | delaying hreg' hnext =>
      have hone : (1 : BitVec 25).toNat = 1 := rfl
      have hmod := Nat.mod_le (s.led.timeDelayReg1.toNat + 1) (2 ^ 25)
      by_cases hover : s.Over
      · rw [Over] at hover
        simp [DisplaySender.clk, LedUnit.clk, LedUnit.ledCase, ledIn, elapsed, hreg', hnext, hover]
      · rw [Over] at hover
        simp only [DisplaySender.clk, LedUnit.clk, LedUnit.ledCase, ledIn, elapsed, hreg', hnext,
          if_neg hover, BitVec.toNat_add, hone]
        omega
  | ending hreg' hnext =>
      simp [DisplaySender.clk, LedUnit.clk, LedUnit.ledCase, elapsed, hreg', hnext]
  | starting hreg' | pulse hreg' => exact absurd hreg' hreg
  | started hreg' hnext | leaving hreg' hnext =>
      simp [DisplaySender.clk, LedUnit.clk, LedUnit.ledCase, elapsed, hreg', hnext]

/-- The timer after an edge outside a delay. -/
theorem Paced.atRest_clk (h : s.Paced) (hreg : s.led.stateLedReg ≠ .ledDelay)
    (e : DisplayEdge) :
    (s.clk e).led.timeDelayReg1 = 0 ∧ (s.clk e).led.timeDelayNext1 = 0 := by
  obtain ⟨htimer, htimer'⟩ := h.atRest hreg
  cases hreg' : s.led.stateLedReg with
  | ledDelay => exact absurd hreg' hreg
  | ledIdle | ledStart | ledStartXmit | ledDone =>
      simp [DisplaySender.clk, LedUnit.clk, LedUnit.ledCase, hreg', htimer']

theorem InTime.next_eq_ledDelay (h : s.InTime) (hnext : s.led.stateLedNext = .ledDelay) :
    s.led.stateLedReg = .ledStart ∨ s.led.stateLedReg = .ledDelay := by
  cases h with
  | sampling hreg => exact .inl hreg
  | delaying hreg => exact .inr hreg
  | resting _ hnext' => rcases hnext' with hnext' | hnext' <;> simp [hnext] at hnext'
  | ending _ hnext' | starting _ hnext' | pulse _ hnext' | started _ hnext'
  | leaving _ hnext' => simp [hnext] at hnext'

theorem InTime.startTx_of_idle (h : s.InTime) (hreg : s.led.stateLedReg ≠ .ledStartXmit)
    (hidle : s.uartTx.startRegRx = .idle) : s.led.startTx = false := by
  cases h with
  | resting _ _ hstart | sampling _ _ hstart | delaying _ _ hstart | ending _ _ hstart
  | leaving _ _ hstart => exact hstart
  | starting hreg' | pulse hreg' => exact absurd hreg' hreg
  | started _ _ hbusy => exact absurd hidle hbusy

theorem Paced.clk (h : s.Paced) (hr : s.rReg < dvsrMu19200) (hlong : s.LongDelay)
    (e : DisplayEdge) : (s.clk e).Paced where
  inTime := h.inTime.clk hr (h.finished hlong) e
  atRest := by
    intro hleaving
    by_cases hreg : s.led.stateLedReg = .ledDelay
    · have hnext : s.led.stateLedNext = .ledStartXmit := by
        cases h.inTime with
        | delaying _ hnext => exact absurd hnext hleaving
        | ending _ hnext => exact hnext
        | resting hreg' | sampling hreg' | starting hreg' | pulse hreg' | started hreg'
        | leaving hreg' => simp [hreg] at hreg'
      have hover := hlong.stays hreg hnext
      have hcounted := h.counted hreg hnext
      rw [Over] at hover
      simp [DisplaySender.clk, LedUnit.clk, LedUnit.ledCase, ledIn, hreg, hover, hcounted]
    · exact h.atRest_clk hreg e
  counting := by
    intro hnext hnext'
    rcases h.inTime.next_eq_ledDelay hnext with hreg | hreg
    · obtain ⟨htimer, htimer'⟩ := h.atRest_clk (by rw [hreg]; decide) e
      exact .inl (htimer'.trans htimer.symm)
    · by_cases hover : s.Over
      · rw [Over] at hover
        simp [DisplaySender.clk, LedUnit.clk, LedUnit.ledCase, ledIn, hreg, hover] at hnext'
      · rw [Over] at hover
        rcases h.counting hreg hnext with heq | heq <;>
          simp [DisplaySender.clk, LedUnit.clk, LedUnit.ledCase, ledIn, hreg, hover, heq]
  counted := by
    intro hnext hnext'
    rcases h.inTime.next_eq_ledDelay hnext with hreg | hreg
    · exact (h.atRest_clk (by rw [hreg]; decide) e).2
    · by_cases hover : s.Over
      · rw [Over] at hover
        simp [DisplaySender.clk, LedUnit.clk, LedUnit.ledCase, ledIn, hreg, hover]
      · have hdelay : s.led.stateLedNext = .ledDelay := hnext
        rw [Over] at hover
        have hstays : (s.clk e).led.stateLedNext = .ledDelay := by
          simp [DisplaySender.clk, LedUnit.clk, LedUnit.ledCase, ledIn, hreg, hover, hdelay]
        simp [hstays] at hnext'
  left := by
    by_cases hreg : s.led.stateLedReg = .ledStartXmit
    · have hzero : elapsed (s.clk e).led = 0 := by
        cases h.inTime with
        | starting _ hnext | pulse _ hnext =>
            simp [DisplaySender.clk, LedUnit.clk, LedUnit.ledCase, elapsed, hreg, hnext]
        | resting hreg' | sampling hreg' | delaying hreg' | ending hreg' | started hreg'
        | leaving hreg' => simp [hreg] at hreg'
      rw [hzero]
      exact clocksLeft_le _
    · have helapsed := h.elapsed_clk hreg e
      have hleft := h.left
      rw [clocksLeft_clk hr (h.inTime.startTx_of_idle hreg) e]
      omega

/-- In a run whose delays are long enough no delay ends too early. -/
theorem finished_of_longDelay (h : ∀ n, (run s₀ skip2 es n).LongDelay) (n : ℕ) :
    (run s₀ skip2 es n).Finished := by
  have hpaced : (run s₀ skip2 es n).Paced := by
    induction n with
    | zero =>
        exact ⟨.resting rfl (.inl rfl) rfl, fun _ => ⟨rfl, rfl⟩, fun _ _ => .inl rfl,
          fun _ _ => rfl, Nat.zero_le _⟩
    | succ n ih => exact ih.clk (rReg_run s₀ skip2 es n) (h n) (es n)
  exact hpaced.finished (h n)

end DisplaySender

/-! ## A rate that does not change -/

namespace LedUnit

/-- The states and the timer. -/
def control (l : LedUnit) : StateLed × StateLed × BitVec 25 × BitVec 25 :=
  (l.stateLedReg, l.stateLedNext, l.timeDelayReg1, l.timeDelayNext1)

/-- A clock edge as they see it. -/
def controlClk (d : ℕ) :
    StateLed × StateLed × BitVec 25 × BitVec 25 → StateLed × StateLed × BitVec 25 × BitVec 25
  | (.ledIdle, next, _, t') => (next, .ledStart, t', t')
  | (.ledStart, next, _, t') => (next, .ledDelay, t', t')
  | (.ledDelay, next, t, t') =>
      if t.toNat > d then (next, .ledStartXmit, t', 0) else (next, next, t', t + 1)
  | (.ledStartXmit, next, _, t') => (next, .ledDone, t', t')
  | (.ledDone, next, _, t') => (next, .ledIdle, t', t')

theorem control_clk (i : LedIn) (l : LedUnit) :
    (l.clk i).control = controlClk i.rpmMphDelay.toNat l.control := by
  cases hreg : l.stateLedReg with
  | ledIdle | ledStart | ledStartXmit | ledDone =>
      simp [control, clk, ledCase, controlClk, hreg]
  | ledDelay =>
      simp only [control, clk, ledCase, controlClk, hreg]
      split_ifs <;> rfl

/-- They after `k` edges since a byte was started, at a constant rate. -/
def steadyAt (d k : ℕ) : StateLed × StateLed × BitVec 25 × BitVec 25 :=
  if k = 0 then (.ledDone, .ledDone, 0, 0)
  else if k = 1 then (.ledDone, .ledIdle, 0, 0)
  else if k = 2 then (.ledIdle, .ledIdle, 0, 0)
  else if k = 3 then (.ledIdle, .ledStart, 0, 0)
  else if k = 4 then (.ledStart, .ledStart, 0, 0)
  else if k = 5 then (.ledStart, .ledDelay, 0, 0)
  else if k ≤ 2 * d + 8 then
    (.ledDelay, .ledDelay, .ofNat 25 ((k - 6) / 2), .ofNat 25 ((k - 5) / 2))
  else if k = 2 * d + 9 then (.ledDelay, .ledStartXmit, .ofNat 25 (d + 1), 0)
  else if k = 2 * d + 10 then (.ledStartXmit, .ledStartXmit, 0, 0)
  else (.ledStartXmit, .ledDone, 0, 0)

theorem steadyAt_delay {d k : ℕ} (h6 : 6 ≤ k) (hk : k ≤ 2 * d + 8) :
    steadyAt d k =
      (.ledDelay, .ledDelay, .ofNat 25 ((k - 6) / 2), .ofNat 25 ((k - 5) / 2)) := by
  rw [steadyAt, if_neg (by omega), if_neg (by omega), if_neg (by omega), if_neg (by omega),
    if_neg (by omega), if_neg (by omega), if_pos hk]

theorem steadyAt_end (d : ℕ) :
    steadyAt d (2 * d + 9) = (.ledDelay, .ledStartXmit, .ofNat 25 (d + 1), 0) ∧
      steadyAt d (2 * d + 10) = (.ledStartXmit, .ledStartXmit, 0, 0) ∧
        steadyAt d (2 * d + 11) = (.ledStartXmit, .ledDone, 0, 0) := by
  refine ⟨?_, ?_, ?_⟩ <;> simp [steadyAt]

/-- The sender has a period of `2 * d + 12` edges. -/
theorem controlClk_steadyAt {d k : ℕ} (hd : d + 1 < 2 ^ 25) (hk : k < 2 * d + 12) :
    controlClk d (steadyAt d k) = steadyAt d (if k = 2 * d + 11 then 0 else k + 1) := by
  have hcount {c : ℕ} (hc : c ≤ d + 1) : (BitVec.ofNat 25 c).toNat = c := by
    rw [BitVec.toNat_ofNat]
    exact Nat.mod_eq_of_lt (by omega)
  obtain ⟨hend, hstart, hpulse⟩ := steadyAt_end d
  rcases Nat.lt_or_ge k 6 with h6 | h6
  · rw [if_neg (by omega)]
    have hzero : steadyAt d 6 = (.ledDelay, .ledDelay, 0, 0) := by
      rw [steadyAt_delay (by omega) (by omega)]
      rfl
    rcases Nat.lt_or_ge k 5 with h5 | h5
    · obtain rfl | rfl | rfl | rfl | rfl : k = 0 ∨ k = 1 ∨ k = 2 ∨ k = 3 ∨ k = 4 := by omega
      all_goals rfl
    · obtain rfl : k = 5 := by omega
      exact hzero.symm
  · rcases Nat.lt_or_ge (2 * d + 8) k with hlate | hdelay
    · obtain rfl | rfl | rfl : k = 2 * d + 9 ∨ k = 2 * d + 10 ∨ k = 2 * d + 11 := by omega
      · rw [if_neg (by omega), hend, hstart, controlClk, hcount (by omega), if_pos (by omega)]
      · rw [if_neg (by omega), hstart, hpulse]
        rfl
      · rw [if_pos rfl, hpulse]
        rfl
    · rw [if_neg (by omega), steadyAt_delay h6 hdelay, controlClk, hcount (by omega)]
      rcases Nat.lt_or_ge k (2 * d + 8) with hlt | hge
      · rw [if_neg (by omega), steadyAt_delay (by omega) (by omega)]
        have hnext : (k + 1 - 6) / 2 = (k - 5) / 2 := by omega
        have hcounted : (k + 1 - 5) / 2 = (k - 6) / 2 + 1 := by omega
        rw [hnext, hcounted, BitVec.ofNat_add]
        rfl
      · obtain rfl : k = 2 * d + 8 := by omega
        have hlast : (2 * d + 8 - 5) / 2 = d + 1 := by omega
        rw [if_pos (by omega), hlast, hend]

end LedUnit

namespace DisplaySender

variable {s : DisplaySender} {s₀ : CalcSignals} {skip2 : Bool} {es : ℕ → DisplayEdge} {d k n : ℕ}

/-- The rate, as a count of the timer. -/
def rate (s : DisplaySender) : ℕ := s.link.calcProc1.rpmMphDelay.toNat

theorem control_clk (hd : d + 1 < 2 ^ 25) (hrate : s.rate = d) (hk : k < 2 * d + 12)
    (h : s.led.control = LedUnit.steadyAt d k) (e : DisplayEdge) :
    (s.clk e).led.control = LedUnit.steadyAt d (if k = 2 * d + 11 then 0 else k + 1) := by
  have hdelay : (s.ledIn e).rpmMphDelay.toNat = d := hrate
  have hclk : (s.clk e).led = s.led.clk (s.ledIn e) := rfl
  rw [hclk, LedUnit.control_clk, h, hdelay, LedUnit.controlClk_steadyAt hd hk]

theorem longDelay_of_steady (hd : d + 1 < 2 ^ 25) (hlong : 13035 ≤ d) (hrate : s.rate = d)
    (h : s.led.control = LedUnit.steadyAt d k) : s.LongDelay := by
  refine ⟨?_, ?_⟩
  · rintro ⟨hreg, hnext, hover⟩
    rw [Over, ← rate, hrate] at hover
    omega
  · intro hreg hnext
    simp only [LedUnit.control, LedUnit.steadyAt, hreg, hnext] at h
    have hlast : s.led.timeDelayReg1 = .ofNat 25 (d + 1) := by
      split_ifs at h <;> simp_all
    rw [Over, ← rate, hrate, hlast, BitVec.toNat_ofNat, Nat.mod_eq_of_lt hd]
    omega

/-- From a clock on at which the rate stays, and is slow enough, no delay is too short. -/
theorem longDelay_of_constant_from (hd : d + 1 < 2 ^ 25) (hlong : 13035 ≤ d) (hk : k < 2 * d + 12)
    (h : (run s₀ skip2 es n).led.control = LedUnit.steadyAt d k)
    (hrate : ∀ i ≥ n, (run s₀ skip2 es i).rate = d) {i : ℕ} (hi : n ≤ i) :
    (run s₀ skip2 es i).LongDelay := by
  have hsteady : ∃ k < 2 * d + 12, (run s₀ skip2 es i).led.control = LedUnit.steadyAt d k := by
    induction i, hi using Nat.le_induction with
    | base => exact ⟨k, hk, h⟩
    | succ i hi ih =>
        obtain ⟨k, hk, hcontrol⟩ := ih
        refine ⟨_, ?_, control_clk hd (hrate i hi) hk hcontrol (es i)⟩
        split_ifs <;> omega
  obtain ⟨k, -, hcontrol⟩ := hsteady
  exact longDelay_of_steady hd hlong (hrate i hi) hcontrol

/-- At a rate that stays, and is slow enough, no delay is too short. -/
theorem longDelay_of_constant (hd : d + 1 < 2 ^ 25) (hlong : 13035 ≤ d)
    (hrate : ∀ n, (run s₀ skip2 es n).rate = d) (n : ℕ) : (run s₀ skip2 es n).LongDelay :=
  longDelay_of_constant_from (n := 0) (k := 2) hd hlong (by omega) rfl (fun i _ => hrate i)
    (Nat.zero_le n)

theorem control_run (hd : d + 1 < 2 ^ 25) (hrate : ∀ i ≥ n, (run s₀ skip2 es i).rate = d)
    (h : (run s₀ skip2 es n).led.control = LedUnit.steadyAt d k) {m : ℕ}
    (hm : k + m ≤ 2 * d + 11) :
    (run s₀ skip2 es (n + m)).led.control = LedUnit.steadyAt d (k + m) := by
  induction m with
  | zero => exact h
  | succ m ih =>
      have hclk := control_clk hd (hrate (n + m) (by omega)) (by omega) (ih (by omega)) (es (n + m))
      rw [if_neg (by omega)] at hclk
      exact hclk

theorem clocksLeft_run (s₀ : CalcSignals) (skip2 : Bool) (es : ℕ → DisplayEdge) (n m : ℕ) :
    (run s₀ skip2 es n).clocksLeft ≤ (run s₀ skip2 es (n + m)).clocksLeft + m := by
  induction m with
  | zero => exact Nat.le_refl _
  | succ m ih =>
      have hclk : (run s₀ skip2 es (n + m)).clocksLeft ≤
          (run s₀ skip2 es (n + (m + 1))).clocksLeft + 1 :=
        clocksLeft_le_clk (rReg_run s₀ skip2 es (n + m)) (es (n + m))
      omega

theorem delayEnds_of_steady (hd : d + 1 < 2 ^ 25) (hrate : s.rate = d)
    (h : s.led.control = LedUnit.steadyAt d (2 * d + 8)) : s.DelayEnds := by
  rw [LedUnit.steadyAt_delay (by omega) (Nat.le_refl _), LedUnit.control] at h
  obtain ⟨hreg, hnext, hcount, -⟩ := by simpa using h
  refine ⟨hreg, hnext, ?_⟩
  rw [Over, ← rate, hrate, hcount, BitVec.toNat_ofNat, Nat.mod_eq_of_lt (by omega)]
  omega

/-- After a byte that is taken the line is busy for 159 ticks at least. -/
theorem clocksLeft_clk_pulse (hr : s.rReg < dvsrMu19200) (hpulse : s.Pulse)
    (hidle : s.uartTx.startRegRx = .idle) (e : DisplayEdge) : 25918 ≤ (s.clk e).clocksLeft := by
  have hstart : (s.clk e).clocksLeft = 26080 - modM s.rReg := by
    have htaken := UartTx.clocksLeft_clk_start s.rReg hidle s.led.dataTx
    rw [← hpulse.2] at htaken
    exact htaken
  have hmod := UartTx.modM_lt hr
  have hdvsr : dvsrMu19200 = 163 := rfl
  omega

/-- At a rate that stays, and is too fast, a byte is dropped. -/
theorem not_taken_of_constant (hfast : d ≤ 12950) (hrate : ∀ i ≥ n, (run s₀ skip2 es i).rate = d)
    (hk : k ≤ 2 * d + 8) (h : (run s₀ skip2 es n).led.control = LedUnit.steadyAt d k) :
    ¬ ∀ i, (run s₀ skip2 es i).Taken := by
  intro htaken
  have hd : d + 1 < 2 ^ 25 := by omega
  have hfinished := taken_iff_finished.mp htaken
  obtain ⟨m, hm⟩ := Nat.exists_eq_add_of_le hk
  have hends : (run s₀ skip2 es (n + m)).DelayEnds := by
    refine delayEnds_of_steady hd (hrate (n + m) (by omega)) ?_
    rw [hm]
    exact control_run hd hrate h (by omega)
  have hpulse : (run s₀ skip2 es (n + m + 3)).Pulse := hends.pulse _ _ _
  have hbusy : 25918 ≤ (run s₀ skip2 es (n + m + 4)).clocksLeft :=
    clocksLeft_clk_pulse (rReg_run s₀ skip2 es _) hpulse (htaken _ hpulse) (es (n + m + 3))
  have hstarted : (run s₀ skip2 es (n + m + 4)).led.control = LedUnit.steadyAt d 0 := by
    have hlast := control_run hd hrate h (m := m + 3) (by omega)
    have hclk := control_clk hd (hrate (n + (m + 3)) (by omega)) (by omega) hlast
      (es (n + (m + 3)))
    rw [if_pos (by omega)] at hclk
    exact hclk
  -- the next delay ends while the byte is still on the line
  have hnext := control_run hd (fun i hi => hrate i (by omega)) hstarted (m := 2 * d + 8) (by omega)
  rw [Nat.zero_add] at hnext
  have hleft := hfinished _ (delayEnds_of_steady hd (hrate _ (by omega)) hnext)
  have hrun := clocksLeft_run s₀ skip2 es (n + m + 4) (2 * d + 8)
  omega

/-- No byte of a run is dropped exactly if its delays end only when the byte on the line is as
good as over, and so if each of them counts far enough. -/
theorem bytes_taken_iff (s₀ : CalcSignals) (skip2 : Bool) (es : ℕ → DisplayEdge) :
    ((∀ n, (run s₀ skip2 es n).Taken) ↔ ∀ n, (run s₀ skip2 es n).Finished) ∧
      ((∀ n, (run s₀ skip2 es n).LongDelay) → ∀ n, (run s₀ skip2 es n).Taken) :=
  ⟨taken_iff_finished, fun h => taken_iff_finished.mpr (finished_of_longDelay h)⟩

/-! ## Two rates of the table -/

/-- An edge at which nothing comes. -/
def quietEdge : DisplayEdge := ⟨⟨false, none, false⟩, 0, 0⟩

/-- No byte of a command comes at this edge. -/
def Quiet (e : DisplayEdge) : Prop := e.toFpgaEdge = ⟨false, none, false⟩

/-- `recv_uart` has not been told of a byte, and no command is under way. -/
structure AtEase (s : DisplaySender) : Prop where
  reg : s.link.recvUart.stateUartReg2 = .preIdle ∨ s.link.recvUart.stateUartReg2 = .idle2
  next : s.link.recvUart.stateUartNext2 = .preIdle ∨ s.link.recvUart.stateUartNext2 = .idle2
  startCalc : s.link.recvUart.startCalc = false

theorem AtEase.clk (h : s.AtEase) {e : DisplayEdge} (he : Quiet e) : (s.clk e).AtEase := by
  obtain ⟨link, rpmResult, mphResult⟩ := e
  obtain rfl : link = ⟨false, none, false⟩ := he
  refine ⟨h.next, ?_, ?_⟩
  · rcases h.reg with hreg | hreg
    · simp [DisplaySender.clk, CommandLink.clk, RecvUart.clk, RecvUart.uartCase, hreg]
    · simpa [DisplaySender.clk, CommandLink.clk, RecvUart.clk, RecvUart.uartCase, hreg]
        using h.next
  · rcases h.reg with hreg | hreg <;>
      simp [DisplaySender.clk, CommandLink.clk, RecvUart.clk, RecvUart.uartCase, hreg,
        h.startCalc]

theorem AtEase.rate_clk (h : s.AtEase) {e : DisplayEdge} (he : Quiet e) :
    (s.clk e).rate = s.rate := by
  obtain ⟨link, rpmResult, mphResult⟩ := e
  obtain rfl : link = ⟨false, none, false⟩ := he
  have hrate := CalcSignals.rate_clk_of_not_startCalc (c := s.link.calcProc1) h.startCalc false
  exact congrArg BitVec.toNat (congrFun hrate .rpmMphDelay)

/-- The rate stays while nothing comes. -/
theorem AtEase.rate_run (h : (run s₀ skip2 es n).AtEase) (hquiet : ∀ i ≥ n, Quiet (es i))
    {i : ℕ} (hi : n ≤ i) :
    (run s₀ skip2 es i).AtEase ∧ (run s₀ skip2 es i).rate = (run s₀ skip2 es n).rate := by
  induction i, hi using Nat.le_induction with
  | base => exact ⟨h, rfl⟩
  | succ i hi ih => exact ⟨ih.1.clk (hquiet i hi), (ih.1.rate_clk (hquiet i hi)).trans ih.2⟩

/-- A value sent with a tick of the line for each byte, and nothing after it. -/
def sendThenQuiet (v : BitVec 64) (n : ℕ) : DisplayEdge :=
  match (startSendFPGA v)[(n - 4) / dvsrMu19200]? with
  | some b => ⟨⟨true, some b, false⟩, 0, 0⟩
  | none => quietEdge

theorem quiet_sendThenQuiet (v : BitVec 64) {n : ℕ} (hn : 1475 ≤ n) :
    Quiet (sendThenQuiet v n) := by
  have hdvsr : dvsrMu19200 = 163 := rfl
  have hlength : (startSendFPGA v).length = 9 := rfl
  rw [Quiet, sendThenQuiet, List.getElem?_eq_none]
  · rfl
  · rw [hlength, hdvsr]
    omega

/-- The delay of the parameter 0, as it may be left from before the reset. -/
def slowest : CalcSignals := { CommandLink.powerUp with rpmMphDelay := 4194303 }

/-- The same while the engine turns. -/
def sendWhileTurning (v : BitVec 64) (n : ℕ) : DisplayEdge :=
  { sendThenQuiet v n with
    rpmResult := if n % 2 = 0 then 500 else 501
    mphResult := if n % 2 = 0 then 40 else 41 }

/-- What is decided along a run, clock by clock. -/
theorem meets_run (ok : DisplaySender → DisplayEdge → Prop) (m : ℕ) :
    Transition.Meets DisplaySender.clk ok (reset s₀ skip2) ((List.range m).map es) ↔
      ∀ n < m, ok (run s₀ skip2 es n) (es n) := by
  have hexec (n : ℕ) : Transition.exec DisplaySender.clk (reset s₀ skip2)
      ((List.range n).map es) = run s₀ skip2 es n := by
    induction n with
    | zero => rfl
    | succ n ih =>
        rw [List.range_succ, List.map_append, Transition.exec_append, ih]
        rfl
  induction m with
  | zero => simp
  | succ m ih =>
      rw [List.range_succ, List.map_append, Transition.meets_append, hexec, List.map_singleton,
        Transition.meets_cons, Nat.forall_lt_succ_right]
      exact and_congr ih (and_iff_left trivial)

/-- The delay goes from that of the parameter 0 to that of 9 while the first is counted. -/
theorem longDelay_sendWhileTurning (n : ℕ) :
    (run slowest false (sendWhileTurning 0x0902) n).LongDelay := by
  have hbefore : ∀ n < 1475, (run slowest false (sendWhileTurning 0x0902) n).led.stateLedNext ≠
        .ledStartXmit ∧
      (run slowest false (sendWhileTurning 0x0902) n).led.timeDelayReg1.toNat ≤
        (run slowest false (sendWhileTurning 0x0902) n).rate :=
    (meets_run (fun s _ => s.led.stateLedNext ≠ .ledStartXmit ∧
      s.led.timeDelayReg1.toNat ≤ s.rate) 1475).mp (by decide +kernel)
  have hrun : (run slowest false (sendWhileTurning 0x0902) 1475).link.recvUart.stateUartReg2 =
        .idle2 ∧
      (run slowest false (sendWhileTurning 0x0902) 1475).link.recvUart.stateUartNext2 = .idle2 ∧
        (run slowest false (sendWhileTurning 0x0902) 1475).link.recvUart.startCalc = false ∧
          (run slowest false (sendWhileTurning 0x0902) 1475).rate = 18750 ∧
            (run slowest false (sendWhileTurning 0x0902) 1475).led.control =
              LedUnit.steadyAt 18750 1477 := by decide +kernel
  obtain ⟨hreg, hnext, hcalc, hrate, hcontrol⟩ := hrun
  rcases Nat.lt_or_ge n 1475 with hn | hn
  · obtain ⟨hne, hle⟩ := hbefore n hn
    exact ⟨fun hends => absurd hle (Nat.not_le.mpr hends.2.2), fun _ h => absurd h hne⟩
  · have hease : (run slowest false (sendWhileTurning 0x0902) 1475).AtEase :=
      ⟨.inr hreg, .inr hnext, hcalc⟩
    refine longDelay_of_constant_from (by decide) (by decide) (by decide) hcontrol ?_ hn
    intro i hi
    exact (hease.rate_run (fun _ hj => quiet_sendThenQuiet 0x0902 hj) hi).2.trans hrate

theorem bytes_taken_sendWhileTurning :
    ∀ n, (run slowest false (sendWhileTurning 0x0902) n).Taken :=
  (bytes_taken_iff slowest false _).2 longDelay_sendWhileTurning

/-- After the message no command is under way, and no byte has been sent. -/
theorem run_slowest :
    (run slowest false (sendThenQuiet 0x0A02) 1475).AtEase ∧
      (run slowest false (sendThenQuiet 0x0A02) 1475).rate = 12500 ∧
        (run slowest false (sendThenQuiet 0x0A02) 1475).led.control =
          LedUnit.steadyAt 12500 1477 := by
  have hrun : (run slowest false (sendThenQuiet 0x0A02) 1475).link.recvUart.stateUartReg2 = .idle2 ∧
      (run slowest false (sendThenQuiet 0x0A02) 1475).link.recvUart.stateUartNext2 = .idle2 ∧
        (run slowest false (sendThenQuiet 0x0A02) 1475).link.recvUart.startCalc = false ∧
          (run slowest false (sendThenQuiet 0x0A02) 1475).rate = 12500 ∧
            (run slowest false (sendThenQuiet 0x0A02) 1475).led.control =
              LedUnit.steadyAt 12500 1477 := by decide +kernel
  exact ⟨⟨.inr hrun.1, .inr hrun.2.1, hrun.2.2.1⟩, hrun.2.2.2⟩

/-- At the rate of the parameter 10 a byte is dropped. -/
theorem not_bytes_taken_slowest :
    ¬ ∀ n, (run slowest false (sendThenQuiet 0x0A02) n).Taken := by
  obtain ⟨hease, hrate, hcontrol⟩ := run_slowest
  refine not_taken_of_constant (d := 12500) (by decide) ?_ (by decide) hcontrol
  intro i hi
  rw [(hease.rate_run (fun _ hn => quiet_sendThenQuiet 0x0A02 hn) hi).2, hrate]

end DisplaySender

end TruckControl
