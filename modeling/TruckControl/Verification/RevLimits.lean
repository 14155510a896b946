import TruckControl.Library.Transition
import TruckControl.Verification.FpgaLimits

/-!
# The rev limits of the FPGA and those of the server

Everything that is under way is followed to the limits it will come to.
-/

namespace TruckControl

/-! ## The limits to come -/

namespace RevLimits

/-- The limits once everything under way has been processed. -/
def future (s : RevLimits) : Limits :=
  let bytes := s.line.foldl FpgaLoad.recvByte (fpgaLoad s.recvUart s.calcProc1)
  let values := (s.sendFpga ++ s.toSend).foldl Limits.setValue bytes.limits
  s.toStm32.foldl Limits.setFrame values

/-- Nothing is lost, and the limits to come are `l`. -/
structure Heading (l : Limits) (s : RevLimits) : Prop where
  inStep : InStep s.recvUart s.calcProc1
  future : s.future = l

/-- The selection of a high limit in a message. -/
def highOf : RevEvent → Option UINT
  | .highRevLimit msgBuf => some (word msgBuf 2)
  | .updateConfig msgBuf => some (word msgBuf 6)
  | _ => none

/-- The selection of a low limit in a message. -/
def lowOf : RevEvent → Option UINT
  | .lowRevLimit msgBuf => some (word msgBuf 2)
  | .updateConfig msgBuf => some (word msgBuf 8)
  | _ => none

/-- The selection that counts, in the last message that has one. -/
def last (sel : RevEvent → Option UINT) (es : List RevEvent) : Option UINT :=
  es.foldl (fun i e => (sel e).or i) none

/-- The limits that the messages of an event set. -/
def after (l : Limits) (e : RevEvent) : Limits where
  high := match highOf e with
    | some i => hrevLimit ((i.setWidth 8).extractLsb' 0 4)
    | none => l.high
  low := match lowOf e with
    | some i => lrevLimit ((i.setWidth 8).extractLsb' 0 4)
    | none => l.low

theorem lost_queue {s : RevLimits} (h : s.lost = true) (v : BitVec 64) :
    (s.queue v).lost = true := by
  rw [queue]
  split_ifs
  · exact h
  · rfl

theorem lost_step {s : RevLimits} (h : s.lost = true) (e : RevEvent) : (s.step e).lost = true := by
  cases e with
  | highRevLimit | lowRevLimit | updateConfig => exact h
  | otherCmd cmd ucbuff => exact lost_queue h _
  | xQueueSend =>
      rw [step]
      split
      · exact h
      · exact lost_queue (by exact h) _
  | startRecv7200 ucbuff | startSendFPGA =>
      rw [step]
      split <;> exact h
  | clk dataReady doneRx =>
      simp only [step]
      split
      · simp [clk, h]
      · exact h

/-- A message adds a frame at the end of what is under way. -/
theorem Heading.send {l : Limits} {s : RevLimits} (h : s.Heading l) (host : HostConfig)
    (frame : SendSerial) :
    { s with host := host, toStm32 := s.toStm32 ++ [frame] }.Heading (l.setFrame frame) := by
  refine ⟨h.inStep, ?_⟩
  rw [← h.future]
  simp [RevLimits.future]

/-- A value that is not refused, in front of those that are still to be put on the queue. -/
theorem future_queue (s : RevLimits) (v : BitVec 64) (hroom : (s.queue v).lost = false) :
    (s.queue v).future =
      s.toStm32.foldl Limits.setFrame
        (s.toSend.foldl Limits.setValue
          ((s.sendFpga.foldl Limits.setValue (s.line.foldl FpgaLoad.recvByte
            (fpgaLoad s.recvUart s.calcProc1)).limits).setValue v)) := by
  rw [queue] at hroom ⊢
  split_ifs with hlen
  · simp [RevLimits.future]
  · rw [if_neg hlen] at hroom
    cases hroom

theorem queue_fpga (s : RevLimits) (v : BitVec 64) :
    (s.queue v).recvUart = s.recvUart ∧ (s.queue v).calcProc1 = s.calcProc1 := by
  rw [queue]
  split_ifs <;> exact ⟨rfl, rfl⟩

/-- The queue takes a value that is the next of those to come. -/
theorem Heading.queue {l : Limits} {s : RevLimits} {v : BitVec 64}
    (hinStep : InStep s.recvUart s.calcProc1) (hroom : (s.queue v).lost = false)
    (hfuture : s.toStm32.foldl Limits.setFrame
      (s.toSend.foldl Limits.setValue
        ((s.sendFpga.foldl Limits.setValue (s.line.foldl FpgaLoad.recvByte
          (fpgaLoad s.recvUart s.calcProc1)).limits).setValue v)) = l) :
    (s.queue v).Heading l := by
  obtain ⟨huart, hcalc⟩ := queue_fpga s v
  refine ⟨?_, ?_⟩
  · rw [huart, hcalc]
    exact hinStep
  · rw [future_queue s v hroom]
    exact hfuture

theorem Heading.clk {l : Limits} {s : RevLimits} (h : s.Heading l) (dataReady doneRx : Bool)
    (hnone : (s.step (.clk dataReady doneRx)).lost = false) :
    (s.step (.clk dataReady doneRx)).Heading l := by
  have hfuture := h.future
  simp only [RevLimits.step] at hnone ⊢
  split at hnone
  · rename_i b rest hline
    have hlisten : Listening s.recvUart := by
      simp only [RevLimits.clk, Bool.or_eq_false_iff, Bool.not_eq_false',
        decide_eq_true_eq] at hnone
      exact hnone.2
    obtain ⟨hinStep, hload⟩ := h.inStep.recvByte hlisten dataReady b
    refine ⟨hinStep, ?_⟩
    simp only [RevLimits.future, hline, List.foldl_cons] at hfuture
    simp only [RevLimits.future, RevLimits.clk, hload]
    exact hfuture
  · obtain ⟨hinStep, hload⟩ := h.inStep.clk dataReady
    refine ⟨hinStep, ?_⟩
    simp only [RevLimits.future] at hfuture
    simp only [RevLimits.future, RevLimits.clk, hload]
    exact hfuture

/-- What an event that loses nothing does to the limits to come. -/
theorem Heading.step {l : Limits} {s : RevLimits} (h : s.Heading l) (e : RevEvent)
    (hnone : (s.step e).lost = false) : (s.step e).Heading (after l e) := by
  cases e with
  | highRevLimit msgBuf =>
      have hsend := h.send (s.host.highRevLimit msgBuf).1 (s.host.highRevLimit msgBuf).2
      rw [Limits.setFrame_highRevLimit] at hsend
      exact hsend
  | lowRevLimit msgBuf =>
      have hsend := h.send (s.host.lowRevLimit msgBuf).1 (s.host.lowRevLimit msgBuf).2
      rw [Limits.setFrame_lowRevLimit] at hsend
      exact hsend
  | updateConfig msgBuf =>
      have hsend := h.send (s.host.updateConfig msgBuf).1 (s.host.updateConfig msgBuf).2
      rw [Limits.setFrame_updateConfig] at hsend
      exact hsend
  | startRecv7200 ucbuff =>
      have hfuture := h.future
      simp only [RevLimits.step]
      split
      · rename_i frame rest hsend hframes
        refine ⟨h.inStep, ?_⟩
        simp only [RevLimits.future, hsend, hframes, List.append_nil, List.foldl_cons] at hfuture
        simp only [RevLimits.future, List.foldl_append, Limits.setValues_frame]
        exact hfuture
      · exact h
  | xQueueSend =>
      have hfuture := h.future
      simp only [RevLimits.step] at hnone ⊢
      split at hnone
      · exact h
      · rename_i v rest hsend
        simp only [RevLimits.future, hsend, List.foldl_append, List.foldl_cons] at hfuture
        exact Heading.queue h.inStep hnone hfuture
  | otherCmd cmd ucbuff =>
      have hfuture := h.future
      simp only [RevLimits.step] at hnone ⊢
      simp only [RevLimits.future, List.foldl_append] at hfuture
      refine Heading.queue h.inStep hnone ?_
      rw [Limits.setValue_otherCmd]
      exact hfuture
  | startSendFPGA =>
      have hfuture := h.future
      simp only [RevLimits.step]
      split
      · rename_i v rest hline hqueue
        refine ⟨h.inStep, ?_⟩
        simp only [RevLimits.future, hline, hqueue, List.foldl_nil, List.cons_append,
          List.foldl_cons] at hfuture
        simp only [RevLimits.future, FpgaLoad.recvBytes_startSendFPGA]
        exact hfuture
      · exact h
  | clk dataReady doneRx => exact h.clk dataReady doneRx hnone

/-! ## Runs -/

/-- The limits that selections stand for, before any selection those of the reset. -/
def limitsOf (high low : Option UINT) : Limits where
  high := match high with
    | some i => hrevLimit ((i.setWidth 8).extractLsb' 0 4)
    | none => 4200
  low := match low with
    | some i => lrevLimit ((i.setWidth 8).extractLsb' 0 4)
    | none => 3700

/-- What is known of a state after messages with these last selections. -/
structure Tracks (high low : Option UINT) (s : RevLimits) : Prop where
  heading : s.lost = false → s.Heading (limitsOf high low)
  actualHigh : ∀ i, high = some i → s.host.actualHighRevLimit = hiRev.getD i.toNat 0
  actualLow : ∀ i, low = some i → s.host.actualLowRevLimit = loRev.getD i.toNat 0

theorem tracks_start (host : HostConfig) : (start host).Tracks none none := by
  refine ⟨fun _ => ⟨.waking rfl (.inl rfl) rfl ⟨rfl, rfl⟩, rfl⟩, ?_, ?_⟩ <;>
    exact fun i hi => nomatch hi

theorem after_limitsOf (high low : Option UINT) (e : RevEvent) :
    after (limitsOf high low) e = limitsOf ((highOf e).or high) ((lowOf e).or low) := by
  cases e <;> rfl

theorem host_queue (s : RevLimits) (v : BitVec 64) : (s.queue v).host = s.host := by
  rw [queue]
  split_ifs <;> rfl

/-- The server computes the limits of the messages, and nothing else does. -/
theorem host_step (s : RevLimits) (e : RevEvent) :
    (s.step e).host.actualHighRevLimit =
        (match highOf e with
          | some i => hiRev.getD i.toNat 0
          | none => s.host.actualHighRevLimit) ∧
      (s.step e).host.actualLowRevLimit =
        (match lowOf e with
          | some i => loRev.getD i.toNat 0
          | none => s.host.actualLowRevLimit) := by
  cases e with
  | highRevLimit msgBuf | lowRevLimit msgBuf | updateConfig msgBuf => exact ⟨rfl, rfl⟩
  | otherCmd cmd ucbuff =>
      simp only [RevLimits.step, host_queue, highOf, lowOf, and_self]
  | xQueueSend =>
      simp only [RevLimits.step]
      split
      · exact ⟨rfl, rfl⟩
      · simp only [host_queue, highOf, lowOf, and_self]
  | startRecv7200 ucbuff | startSendFPGA | clk dataReady doneRx =>
      simp only [RevLimits.step]
      split <;> exact ⟨rfl, rfl⟩

theorem Tracks.step {high low : Option UINT} {s : RevLimits} (h : s.Tracks high low)
    (e : RevEvent) : (s.step e).Tracks ((highOf e).or high) ((lowOf e).or low) := by
  obtain ⟨hhigh, hlow⟩ := host_step s e
  refine ⟨?_, ?_, ?_⟩
  · intro hnone
    have hbefore : s.lost = false := by
      by_contra hlost
      have hstill := lost_step (Bool.eq_true_of_not_eq_false hlost) e
      rw [hnone] at hstill
      cases hstill
    rw [← after_limitsOf]
    exact (h.heading hbefore).step e hnone
  · intro i hi
    rw [hhigh]
    cases hsel : highOf e with
    | none =>
        rw [hsel, Option.none_or] at hi
        exact h.actualHigh i hi
    | some j =>
        rw [hsel, Option.some_or, Option.some.injEq] at hi
        rw [hi]
  · intro i hi
    rw [hlow]
    cases hsel : lowOf e with
    | none =>
        rw [hsel, Option.none_or] at hi
        exact h.actualLow i hi
    | some j =>
        rw [hsel, Option.some_or, Option.some.injEq] at hi
        rw [hi]

theorem Tracks.exec {high low : Option UINT} {s : RevLimits} (h : s.Tracks high low)
    (es : List RevEvent) :
    (Transition.exec RevLimits.step s es).Tracks
      (es.foldl (fun i e => (highOf e).or i) high) (es.foldl (fun i e => (lowOf e).or i) low) := by
  induction es generalizing s high low with
  | nil => exact h
  | cons e es ih => exact ih (h.step e)

/-- The message selects entries of `hi_rev` and `lo_rev`. -/
def InTables : RevEvent → Prop
  | .highRevLimit msgBuf => (word msgBuf 2).toNat < hiRev.length
  | .lowRevLimit msgBuf => (word msgBuf 2).toNat < loRev.length
  | .updateConfig msgBuf =>
      (word msgBuf 6).toNat < hiRev.length ∧ (word msgBuf 8).toNat < loRev.length
  | _ => True

instance : DecidablePred InTables
  | .highRevLimit _ | .lowRevLimit _ => inferInstanceAs (Decidable (_ < _))
  | .updateConfig _ => inferInstanceAs (Decidable (_ ∧ _))
  | .startRecv7200 _ | .xQueueSend | .otherCmd _ _ | .startSendFPGA | .clk _ _ => .isTrue trivial

theorem InTables.high {e : RevEvent} (h : InTables e) {i : UINT} (hi : highOf e = some i) :
    i.toNat < hiRev.length := by
  cases e with
  | highRevLimit msgBuf =>
      rw [← Option.some.inj hi]
      exact h
  | updateConfig msgBuf =>
      rw [← Option.some.inj hi]
      exact h.1
  | _ => cases hi

theorem InTables.low {e : RevEvent} (h : InTables e) {i : UINT} (hi : lowOf e = some i) :
    i.toNat < loRev.length := by
  cases e with
  | lowRevLimit msgBuf =>
      rw [← Option.some.inj hi]
      exact h
  | updateConfig msgBuf =>
      rw [← Option.some.inj hi]
      exact h.2
  | _ => cases hi

theorem last_mem {sel : RevEvent → Option UINT} {es : List RevEvent} {i : UINT}
    (h : last sel es = some i) : ∃ e ∈ es, sel e = some i := by
  induction es using List.reverseRecOn with
  | nil => cases h
  | append_singleton es e ih =>
      rw [last, List.foldl_concat] at h
      cases hsel : sel e with
      | none =>
          rw [hsel, Option.none_or] at h
          obtain ⟨e', hmem, he'⟩ := ih h
          exact ⟨e', List.mem_append_left _ hmem, he'⟩
      | some j =>
          rw [hsel, Option.some_or] at h
          exact ⟨e, List.mem_append_right _ (List.mem_singleton_self e), hsel.trans h⟩

/-- Every frame has been processed by the STM32, and everything it had for the FPGA has got
through and been processed there. -/
structure Delivered (s : RevLimits) : Prop where
  lost : s.lost = false
  toStm32 : s.toStm32 = []
  toSend : s.toSend = []
  sendFpga : s.sendFpga = []
  line : s.line = []
  uart : s.recvUart.stateUartReg2 = .idle2 ∨ s.recvUart.stateUartReg2 = .next1
  uartNext : s.recvUart.stateUartNext2 = .idle2 ∨ s.recvUart.stateUartNext2 = .next1
  rest : s.calcProc1.AtRest

/-- The limits of the FPGA are those that the server has computed, as far as it has. -/
def LimitsAgree (es : List RevEvent) (s : RevLimits) : Prop :=
  (last highOf es ≠ none → s.calcProc1.highRevLimit.toNat = s.host.actualHighRevLimit) ∧
    (last lowOf es ≠ none → s.calcProc1.lowRevLimit.toNat = s.host.actualLowRevLimit)

theorem Delivered.limits {s : RevLimits} (h : s.Delivered) : s.calcProc1.limits = s.future := by
  have hnot : ¬ Pending s.recvUart := by
    rintro ⟨_, hpending⟩
    rcases h.uart with huart | huart <;> rcases h.uartNext with hnext | hnext <;>
      simp [huart, hnext] at hpending
  simp only [RevLimits.future, h.toStm32, h.toSend, h.sendFpga, h.line, List.append_nil,
    List.foldl_nil, fpgaLoad, if_neg hnot]

/-- The entries of `hi_rev` that the FPGA has in the same place. -/
theorem hiRev_eq_iff {i : UINT} (h : i.toNat < hiRev.length) :
    (hrevLimit ((i.setWidth 8).extractLsb' 0 4)).toNat = hiRev.getD i.toNat 0 ↔ i.toNat < 8 := by
  have hall : ∀ n < hiRev.length,
      ((hrevLimit (((BitVec.ofNat 32 n).setWidth 8).extractLsb' 0 4)).toNat = hiRev.getD n 0 ↔
        n < 8) := by decide
  have hi := hall i.toNat h
  rwa [BitVec.ofNat_toNat, BitVec.setWidth_eq] at hi

theorem loRev_eq {i : UINT} (h : i.toNat < loRev.length) :
    (lrevLimit ((i.setWidth 8).extractLsb' 0 4)).toNat = loRev.getD i.toNat 0 := by
  have hall : ∀ n < loRev.length,
      (lrevLimit (((BitVec.ofNat 32 n).setWidth 8).extractLsb' 0 4)).toNat = loRev.getD n 0 := by
    decide
  have hi := hall i.toNat h
  rwa [BitVec.ofNat_toNat, BitVec.setWidth_eq] at hi

/-- Once everything is delivered, the limits agree unless the last selection of a high limit
is one of the two behind the entry 4400, which the server does not have. -/
theorem limits_agree_iff (host : HostConfig) (es : List RevEvent) (htables : ∀ e ∈ es, InTables e)
    (hdelivered : (Transition.exec step (start host) es).Delivered) :
    LimitsAgree es (Transition.exec step (start host) es) ↔
      ∀ i, last highOf es = some i → i.toNat < 8 := by
  have htracks := (tracks_start host).exec es
  have hlimits := hdelivered.limits
  rw [(htracks.heading hdelivered.lost).future] at hlimits
  -- what the registers hold, by the last selections
  have hhigh (i : UINT) (hi : last highOf es = some i) :
      (Transition.exec step (start host) es).calcProc1.highRevLimit =
        hrevLimit ((i.setWidth 8).extractLsb' 0 4) := by
    have h := congrArg Limits.high hlimits
    rw [show es.foldl (fun i e => (highOf e).or i) none = some i from hi] at h
    exact h
  have hlow (i : UINT) (hi : last lowOf es = some i) :
      (Transition.exec step (start host) es).calcProc1.lowRevLimit =
        lrevLimit ((i.setWidth 8).extractLsb' 0 4) := by
    have h := congrArg Limits.low hlimits
    rw [show es.foldl (fun i e => (lowOf e).or i) none = some i from hi] at h
    exact h
  have hlen (i : UINT) (hi : last highOf es = some i) : i.toNat < hiRev.length := by
    obtain ⟨e, hmem, he⟩ := last_mem hi
    exact (htables e hmem).high he
  constructor
  · intro hagree i hi
    have heq := hagree.1 (by rw [hi]; simp)
    rw [hhigh i hi, htracks.actualHigh i hi] at heq
    exact (hiRev_eq_iff (hlen i hi)).mp heq
  · intro hall
    refine ⟨?_, ?_⟩
    · intro hsome
      obtain ⟨i, hi⟩ := Option.ne_none_iff_exists'.mp hsome
      rw [hhigh i hi, htracks.actualHigh i hi]
      exact (hiRev_eq_iff (hlen i hi)).mpr (hall i hi)
    · intro hsome
      obtain ⟨i, hi⟩ := Option.ne_none_iff_exists'.mp hsome
      obtain ⟨e, hmem, he⟩ := last_mem hi
      rw [hlow i hi, htracks.actualLow i hi]
      exact loRev_eq ((htables e hmem).low he)

/-- The clock edges of the FPGA from its reset until it has received `n` bytes. -/
def clocks (n : ℕ) : List RevEvent :=
  List.replicate 4 (.clk true false) ++
    (List.replicate n (.clk true true :: List.replicate 7 (.clk true false))).flatten

/-- `HIGH_REV_LIMIT` with a selection, all the way to the FPGA. -/
def selectHigh (i : UCHAR) : List RevEvent :=
  [.highRevLimit fun j => if j = 2 then i else 0, .startRecv7200 fun _ => 0, .xQueueSend,
    .startSendFPGA] ++ clocks 9

/-- The parameters of the server do not matter. -/
def someHost : HostConfig where
  ps :=
    { rpmMphUpdateRate := 0, fpgaXmitRate := 0, highRevLimit := 0, lowRevLimit := 0,
      coolingFanOn := 0, coolingFanOff := 0, blowerEnabled := 0, blower1On := 0, blower2On := 0,
      blower3On := 0, lightsOnDelay := 0, engineTempLimit := 0, battBoxTemp := 0, testBank := 0,
      passwordTimeout := 0, passwordRetries := 0, baudrate3 := 0 }
  writeSerialBuffer := fun _ => 0
  actualHighRevLimit := 0
  actualLowRevLimit := 0
  actualLightsOnDelay := 0

theorem limits_agree_iff_selectHigh :
    LimitsAgree (selectHigh 3) (Transition.exec step (start someHost) (selectHigh 3)) ↔
      ∀ i, last highOf (selectHigh 3) = some i → i.toNat < 8 := by
  refine limits_agree_iff someHost (selectHigh 3) (by decide +kernel) ?_
  refine ⟨?_, ?_, ?_, ?_, ?_, ?_, ?_, ?_⟩ <;> decide +kernel

/-- The ninth selection is 4200 for the server and 4400 for the FPGA. -/
theorem not_limitsAgree_selectHigh :
    let s := Transition.exec step (start someHost) (selectHigh 8)
    (∀ e ∈ selectHigh 8, InTables e) ∧ s.Delivered ∧ s.host.actualHighRevLimit = 4200 ∧
      s.calcProc1.highRevLimit = 4400 ∧ ¬ LimitsAgree (selectHigh 8) s := by
  have hactual :
      (Transition.exec step (start someHost) (selectHigh 8)).host.actualHighRevLimit = 4200 := by
    decide +kernel
  have hset :
      (Transition.exec step (start someHost) (selectHigh 8)).calcProc1.highRevLimit = 4400 := by
    decide +kernel
  refine ⟨by decide +kernel, ?_, hactual, hset, ?_⟩
  · refine ⟨?_, ?_, ?_, ?_, ?_, ?_, ?_, ?_⟩ <;> decide +kernel
  · intro hagree
    have heq := hagree.1 (by decide +kernel)
    rw [hactual, hset] at heq
    exact absurd heq (by decide)

end RevLimits

end TruckControl
