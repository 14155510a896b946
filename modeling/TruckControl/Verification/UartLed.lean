import TruckControl.Model.UartLed
import TruckControl.Verification.CommandLine
import TruckControl.Verification.DisplayWords

/-!
# What is on the line of the transmitter

The level on the line depends on the ticks that the byte has left, and these on the clock
edges since it was taken.
-/

namespace TruckControl

/-! ## A byte tick by tick -/

namespace UartTx

/-- The level that the next edge puts on the line. -/
def line (u : UartTx) : Bool :=
  match u.startRegRx with
  | .idle | .stop => true
  | .start => false
  | .data => u.bReg.getLsbD 0

/-- The bits of `byte` that are still to come are in `b_reg`. -/
def Sending (byte : UCHAR) (u : UartTx) : Prop :=
  match u.startRegRx with
  | .start => u.bReg = byte
  | .data => u.bReg = byte >>> u.nReg.toNat
  | .idle | .stop => True

/-- The level for a number of ticks left. -/
def levelAt (byte : UCHAR) (ticks : ℕ) : Bool :=
  if 144 < ticks then false else if 16 < ticks then byte.getLsbD ((144 - ticks) / 16) else true

variable {u : UartTx} {byte : UCHAR}

theorem txReg_clk (u : UartTx) (txStart sTick : Bool) (din : UCHAR) :
    (u.clk txStart sTick din).txReg = u.line := by
  rw [clk, line]
  cases u.startRegRx <;> simp only <;> split_ifs <;> rfl

theorem Sending.clk (h : u.Sending byte) (hbusy : u.startRegRx ≠ .idle) (txStart sTick : Bool)
    (din : UCHAR) : (u.clk txStart sTick din).Sending byte := by
  cases hstate : u.startRegRx with
  | idle => exact absurd hstate hbusy
  | start =>
      rw [Sending, hstate] at h
      rw [UartTx.clk, hstate]
      simp only
      split_ifs
      · simp [Sending, h]
      · simp [Sending, h]
      · simp [Sending, h]
  | data =>
      rw [Sending, hstate] at h
      rw [UartTx.clk, hstate]
      simp only
      split_ifs with _ _ hn
      · simp [Sending]
      · simp only [Sending]
        rw [h, toNat_nReg_succ hn]
        exact (BitVec.shiftRight_add ..).symm
      · simp [Sending, h]
      · simp [Sending, h]
  | stop =>
      rw [UartTx.clk, hstate]
      simp only
      split_ifs <;> simp [Sending]

theorem Sending.line (h : u.Sending byte) (hbusy : u.startRegRx ≠ .idle) :
    u.line = levelAt byte u.ticksLeft := by
  have hs := u.sReg.isLt
  have hn := u.nReg.isLt
  cases hstate : u.startRegRx with
  | idle => exact absurd hstate hbusy
  | start =>
      rw [UartTx.line, hstate, ticksLeft, hstate, levelAt, if_pos (by simp only; omega)]
  | data =>
      rw [Sending, hstate] at h
      rw [UartTx.line, hstate, ticksLeft, hstate, levelAt, if_neg (by simp only; omega),
        if_pos (by simp only; omega)]
      have hindex : (144 - (144 - 16 * u.nReg.toNat - u.sReg.toNat)) / 16 = u.nReg.toNat := by
        omega
      simp only [hindex, h, BitVec.getLsbD_ushiftRight, Nat.add_zero]
  | stop =>
      rw [UartTx.line, hstate, ticksLeft, hstate, levelAt, if_neg (by simp only; omega),
        if_neg (by simp only; omega)]

/-- The ticks left, from the clock edges left. -/
theorem ticksLeft_eq {rReg : ℕ} (hr : rReg < dvsrMu19200) (hbusy : u.startRegRx ≠ .idle) :
    u.ticksLeft = (u.clocksLeft rReg + 162) / 163 := by
  have hpos := ticksLeft_pos hbusy
  rw [dvsrMu19200] at hr
  rw [clocksLeft, dvsrMu19200]
  omega

end UartTx

/-! ## Frames -/

/-- The frame of a byte: a start bit of `first` clocks, then 2608 clocks for every bit. -/
def txFrame (first : ℕ) (byte : UCHAR) : List Bool :=
  (List.range (first + 9 * 2608)).map fun j =>
    if j < first then false
    else if (j - first) / 2608 < 8 then byte.getLsbD ((j - first) / 2608) else true

/-- What is on the line when bytes are sent one after the other. The start bit is shorter
than the others by what the ticks are ahead. -/
inductive TxLine : List UCHAR → List Bool → Prop where
  | idle : TxLine [] []
  | high {bs : List UCHAR} {levels : List Bool} (h : TxLine bs levels) :
      TxLine bs (true :: levels)
  | frame {bs : List UCHAR} {levels : List Bool} (byte : UCHAR) (first : ℕ)
      (hlow : 2446 ≤ first) (hhigh : first ≤ 2608) (h : TxLine bs levels) :
      TxLine (byte :: bs) (txFrame first byte ++ levels)

namespace UartLed

variable {s : UartLed} {is : List TxIn} {byte : UCHAR}

/-- The clock edges until the byte on the line is over. -/
def clocksLeft (s : UartLed) : ℕ := s.uartTx.clocksLeft s.rReg

theorem after_append (s : UartLed) (is js : List TxIn) :
    s.after (is ++ js) = (s.after is).after js := List.foldl_append

theorem after_cons (s : UartLed) (i : TxIn) (is : List TxIn) :
    s.after (i :: is) = (s.clk i).after is := rfl

theorem levels_append (s : UartLed) (is js : List TxIn) :
    s.levels (is ++ js) = s.levels is ++ (s.after is).levels js := by
  induction is generalizing s with
  | nil => rfl
  | cons i is ih => exact congrArg (_ :: ·) (ih (s.clk i))

theorem taken_append (s : UartLed) (is js : List TxIn) :
    s.taken (is ++ js) = s.taken is ++ (s.after is).taken js := by
  induction is generalizing s with
  | nil => rfl
  | cons i is ih =>
      rw [List.cons_append, taken, ih, taken, List.append_assoc]
      rfl

/-- Without a start the line stays high. -/
theorem levels_quiet (hr : s.rReg < dvsrMu19200) (hidle : s.uartTx.startRegRx = .idle)
    (his : ∀ i ∈ is, i.txStart = false) :
    s.levels is = List.replicate is.length true ∧ s.taken is = [] ∧
      (s.after is).rReg < dvsrMu19200 ∧ (s.after is).uartTx.startRegRx = .idle := by
  induction is generalizing s with
  | nil => exact ⟨rfl, rfl, hr, hidle⟩
  | cons i is ih =>
      obtain ⟨hi, his⟩ := List.forall_mem_cons.mp his
      have hclk : (s.clk i).uartTx.startRegRx = .idle ∧ (s.clk i).uartTx.txReg = true := by
        simp [clk, UartTx.clk, hidle, hi]
      obtain ⟨hlevels, htaken, hend⟩ := ih (UartTx.modM_lt hr) hclk.1 his
      refine ⟨?_, ?_, hend⟩
      · rw [levels, hclk.2, hlevels]
        rfl
      · rw [taken, if_neg (by simp [hi]), htaken]
        rfl

/-- A byte is on the line. -/
structure Busy (byte : UCHAR) (s : UartLed) : Prop where
  lt : s.rReg < dvsrMu19200
  left : 0 < s.clocksLeft
  sending : s.uartTx.Sending byte

theorem Busy.ne_idle (h : s.Busy byte) : s.uartTx.startRegRx ≠ .idle := by
  intro hidle
  have hzero := (UartTx.clocksLeft_eq_zero_iff h.lt s.uartTx).mpr hidle
  exact absurd hzero (Nat.pos_iff_ne_zero.mp h.left)

theorem Busy.clocksLeft_clk (h : s.Busy byte) (i : TxIn) :
    (s.clk i).clocksLeft = s.clocksLeft - 1 :=
  UartTx.clocksLeft_clk h.lt i.txStart i.wData fun hidle => absurd hidle h.ne_idle

theorem Busy.clk (h : s.Busy byte) (hmore : 1 < s.clocksLeft) (i : TxIn) : (s.clk i).Busy byte where
  lt := UartTx.modM_lt h.lt
  left := by
    rw [h.clocksLeft_clk]
    omega
  sending := h.sending.clk h.ne_idle ..

theorem Busy.txReg_clk (h : s.Busy byte) (i : TxIn) :
    (s.clk i).uartTx.txReg = UartTx.levelAt byte ((s.clocksLeft + 162) / 163) := by
  rw [UartLed.clk, UartTx.txReg_clk, h.sending.line h.ne_idle, UartTx.ticksLeft_eq h.lt h.ne_idle]
  rfl

/-- While a byte is on the line, its levels follow from the clock edges it has left. -/
theorem Busy.levels (h : s.Busy byte) (hlen : is.length = s.clocksLeft) :
    s.levels is = ((List.range s.clocksLeft).map fun j =>
        UartTx.levelAt byte ((s.clocksLeft - j + 162) / 163)) ∧
      s.taken is = [] ∧ (s.after is).rReg < dvsrMu19200 ∧
      (s.after is).uartTx.startRegRx = .idle := by
  induction is generalizing s with
  | nil => exact absurd hlen (Nat.ne_of_lt h.left)
  | cons i is ih =>
      have hnone : ¬ (s.uartTx.startRegRx = .idle ∧ i.txStart = true) :=
        fun hidle => h.ne_idle hidle.1
      have hclocks := h.clocksLeft_clk i
      have hlength : is.length = (s.clk i).clocksLeft := by
        rw [hclocks, ← hlen]
        rfl
      have hlevels : (s.clk i).levels is = ((List.range (s.clk i).clocksLeft).map fun j =>
          UartTx.levelAt byte (((s.clk i).clocksLeft - j + 162) / 163)) ∧
          (s.clk i).taken is = [] ∧ ((s.clk i).after is).rReg < dvsrMu19200 ∧
          ((s.clk i).after is).uartTx.startRegRx = .idle := by
        by_cases hmore : 1 < s.clocksLeft
        · exact ih (h.clk hmore i) hlength
        · have hzero : (s.clk i).clocksLeft = 0 := by omega
          rw [hzero] at hlength ⊢
          rw [List.length_eq_zero_iff.mp hlength]
          exact ⟨rfl, rfl, UartTx.modM_lt h.lt,
            (UartTx.clocksLeft_eq_zero_iff (UartTx.modM_lt h.lt) _).mp hzero⟩
      obtain ⟨hlevels, htaken, hend⟩ := hlevels
      refine ⟨?_, ?_, hend⟩
      · have hsucc : s.clocksLeft = (s.clk i).clocksLeft + 1 := by
          have hleft := h.left
          omega
        rw [UartLed.levels, hlevels, h.txReg_clk, hsucc, List.range_succ_eq_map, List.map_cons,
          List.map_map, Nat.sub_zero]
        refine congrArg (_ :: ·) (List.map_congr_left ?_)
        intro j _
        rw [Function.comp_apply, Nat.succ_eq_add_one, Nat.add_sub_add_right]
      · rw [taken, if_neg hnone, htaken]
        rfl

/-- It stays there until then. -/
theorem Busy.after (h : s.Busy byte) (hlen : is.length < s.clocksLeft) :
    (s.after is).Busy byte := by
  induction is generalizing s with
  | nil => exact h
  | cons i is ih =>
      rw [List.length_cons] at hlen
      refine ih (h.clk (by omega) i) ?_
      rw [h.clocksLeft_clk]
      omega

/-- A byte that is taken: all of its frame follows, and it is over with it. -/
theorem levels_of_start (hr : s.rReg < dvsrMu19200) (hidle : s.uartTx.startRegRx = .idle)
    {i : TxIn} (hi : i.txStart = true) :
    (s.clk i).Busy i.wData ∧ (s.clk i).clocksLeft = 26080 - modM s.rReg := by
  have hleft : (s.clk i).clocksLeft = 26080 - modM s.rReg := by
    rw [clocksLeft, clk, hi]
    exact UartTx.clocksLeft_clk_start s.rReg hidle i.wData
  have hmod := UartTx.modM_lt hr
  refine ⟨⟨hmod, ?_, ?_⟩, hleft⟩
  · rw [hleft]
    rw [dvsrMu19200] at hmod
    omega
  · simp [UartTx.Sending, clk, UartTx.clk, hidle, hi]

/-- At any time there is a byte on the line or none. -/
theorem idle_or_busy (hr : s.rReg < dvsrMu19200) (hidle : s.uartTx.startRegRx = .idle)
    (is : List TxIn) :
    (s.after is).rReg < dvsrMu19200 ∧
      ((s.after is).uartTx.startRegRx = .idle ∨ ∃ byte, (s.after is).Busy byte) := by
  induction is using List.reverseRecOn with
  | nil => exact ⟨hr, .inl hidle⟩
  | append_singleton is i ih =>
      obtain ⟨hlt, hstate⟩ := ih
      have hmod := UartTx.modM_lt hlt
      rw [after_append]
      refine ⟨hmod, ?_⟩
      rcases hstate with hidle | ⟨byte, hbusy⟩
      · by_cases hi : i.txStart = true
        · exact .inr ⟨i.wData, (levels_of_start hlt hidle hi).1⟩
        · have hstep : ((s.after is).clk i).uartTx.startRegRx = .idle := by
            simp [clk, UartTx.clk, hidle, hi]
          exact .inl hstep
      · by_cases hmore : 1 < (s.after is).clocksLeft
        · exact .inr ⟨byte, hbusy.clk hmore i⟩
        · have hzero : ((s.after is).clk i).clocksLeft = 0 := by
            rw [hbusy.clocksLeft_clk]
            omega
          exact .inl ((UartTx.clocksLeft_eq_zero_iff hmod _).mp hzero)

/-- The frame of a byte, with the start bit shortened by `r` clocks. -/
theorem txFrame_eq {r : ℕ} (hr : r < dvsrMu19200) (byte : UCHAR) :
    (List.range (26080 - r)).map
        (fun j => UartTx.levelAt byte ((26080 - r - j + 162) / 163)) =
      txFrame (2608 - r) byte := by
  rw [dvsrMu19200] at hr
  have hlen : 2608 - r + 9 * 2608 = 26080 - r := by omega
  rw [txFrame, hlen]
  refine List.map_congr_left ?_
  intro j hj
  rw [List.mem_range] at hj
  rw [UartTx.levelAt]
  by_cases hstart : j < 2608 - r
  · have hticks : 144 < (26080 - r - j + 162) / 163 := by omega
    rw [if_pos hticks, if_pos hstart]
  · have hticks : ¬ 144 < (26080 - r - j + 162) / 163 := by omega
    have hindex : (144 - (26080 - r - j + 162) / 163) / 16 = (j - (2608 - r)) / 2608 := by
      omega
    have hlast : 16 < (26080 - r - j + 162) / 163 ↔ (j - (2608 - r)) / 2608 < 8 := by omega
    rw [if_neg hticks, if_neg hstart, hindex]
    exact if_congr hlast rfl rfl

/-- From an idle transmitter to an idle one there are whole frames on the line, those of the
bytes it takes, whenever `tx_start` is set. -/
theorem txLine (hr : s.rReg < dvsrMu19200) (hidle : s.uartTx.startRegRx = .idle)
    (hend : (s.after is).uartTx.startRegRx = .idle) : TxLine (s.taken is) (s.levels is) := by
  induction hn : is.length using Nat.strong_induction_on generalizing s is with
  | _ n ih =>
  cases is with
  | nil => exact .idle
  | cons i is =>
      have hhigh : (s.clk i).uartTx.txReg = true := by
        rw [clk, UartTx.txReg_clk, UartTx.line, hidle]
      rw [UartLed.levels, taken, hhigh]
      by_cases hi : i.txStart = true
      · rw [if_pos ⟨hidle, hi⟩]
        obtain ⟨hbusy, hleft⟩ := levels_of_start hr hidle hi
        have hlong : (s.clk i).clocksLeft ≤ is.length := by
          by_contra hshort
          exact (hbusy.after (Nat.lt_of_not_le hshort)).ne_idle hend
        have hmod := UartTx.modM_lt hr
        -- the inputs during the frame, and those after it
        have hsplit := List.take_append_drop (s.clk i).clocksLeft is
        obtain ⟨hlevels, htaken, hlt, hover⟩ := hbusy.levels (List.length_take_of_le hlong)
        rw [hleft, txFrame_eq hmod] at hlevels
        rw [hleft] at hsplit htaken hlt hover
        rw [← hsplit, levels_append, taken_append, hlevels, htaken]
        refine .high (.frame i.wData _ ?_ ?_ (ih _ ?_ hlt hover ?_ rfl))
        · rw [dvsrMu19200] at hmod
          omega
        · omega
        · rw [← hn, List.length_drop, List.length_cons]
          omega
        · rw [← after_append, hsplit]
          exact hend
      · rw [if_neg fun h => hi h.2, List.nil_append]
        refine .high (ih is.length ?_ (UartTx.modM_lt hr) ?_ hend rfl)
        · rw [← hn]
          exact Nat.lt_succ_self _
        · simp [clk, UartTx.clk, hidle, hi]

end UartLed

/-! ## The other end of the line -/

theorem getElem?_txFrame {first j : ℕ} (hj : j < first + 9 * 2608) (byte : UCHAR) :
    (txFrame first byte)[j]? = some (if j < first then false
      else if (j - first) / 2608 < 8 then byte.getLsbD ((j - first) / 2608) else true) := by
  simp [txFrame, hj]

/-- The receiver of the FPGA samples these frames well inside their bits. It is through with
a frame before the stop bit is over. -/
theorem isFrame_txFrame {first : ℕ} (hlow : 2446 ≤ first) (hhigh : first ≤ 2608) (byte : UCHAR) :
    IsFrame byte ((txFrame first byte).take 24777) := by
  have hget {j : ℕ} (hj : j < 24777) : ((txFrame first byte).take 24777)[j]? =
      some (if j < first then false
        else if (j - first) / 2608 < 8 then byte.getLsbD ((j - first) / 2608) else true) := by
    rw [List.getElem?_take_of_lt hj, getElem?_txFrame (by omega)]
  have hlength : ((txFrame first byte).take 24777).length = 24777 := by
    rw [List.length_take, txFrame, List.length_map, List.length_range]
    omega
  refine ⟨?_, ?_, ?_, ?_⟩
  · rw [hget (by decide), if_pos (by omega)]
  · intro n hn j hafter hbefore
    have hindex : (j - first) / 2608 = n := by omega
    rw [hget (by omega), if_neg (by omega), hindex, if_pos hn]
  · intro j hafter hj
    rw [hlength] at hj
    have hindex : ¬ (j - first) / 2608 < 8 := by omega
    rw [hget hj, if_neg (by omega), if_neg hindex]
  · rw [hlength]
    decide

/-- The rest of the stop bit is time before the next byte. -/
theorem stop_txFrame {first : ℕ} (hhigh : first ≤ 2608) (byte : UCHAR) {v : Bool}
    (hv : v ∈ (txFrame first byte).drop 24777) : v = true := by
  obtain ⟨j, hj, rfl⟩ := List.mem_iff_getElem.mp hv
  have hlen : (txFrame first byte).length = first + 9 * 2608 := by simp [txFrame]
  rw [List.length_drop, hlen] at hj
  have hlevel : (txFrame first byte)[24777 + j]? = _ := getElem?_txFrame (by omega) byte
  have hindex : ¬ (24777 + j - first) / 2608 < 8 := by omega
  rw [if_neg (by omega), if_neg hindex] at hlevel
  rw [List.getElem_drop]
  exact (List.getElem_eq_iff _).mpr hlevel

/-- Whole frames, after a few clocks with the line high, are bytes sent to the FPGA. -/
theorem TxLine.sends {bs : List UCHAR} {levels : List Bool} (h : TxLine bs levels) (c : Bool)
    {before es : List LineEdge} (hlength : 7 ≤ before.length)
    (hbefore : ∀ e ∈ before, e.rx = true ∧ e.dataReady = true)
    (hes : ∀ e ∈ es, e.dataReady = true ∧ e.cmdParam = c) (hrx : es.map LineEdge.rx = levels) :
    CommandLine.Sends (bs.map (FpgaByte.mk c)) (before ++ es) := by
  induction h generalizing before es with
  | idle =>
      rw [List.map_eq_nil_iff.mp hrx, List.append_nil]
      exact .quiet before fun e he => (hbefore e he).1
  | high h ih =>
      obtain ⟨e, rest, rfl, he, hrest⟩ := List.map_eq_cons_iff.mp hrx
      obtain ⟨hready, hes⟩ := List.forall_mem_cons.mp hes
      rw [List.append_cons]
      refine ih ?_ ?_ hes hrest
      · rw [List.length_append]
        omega
      · intro e' he'
        rcases List.mem_append.mp he' with he' | he'
        · exact hbefore e' he'
        · rw [List.mem_singleton.mp he']
          exact ⟨he, hready.1⟩
  | @frame bs levels byte first hlow hhigh h ih =>
      rw [← List.take_append_drop 24777 (txFrame first byte), List.append_assoc] at hrx
      obtain ⟨frame, others, rfl, hframe, hothers⟩ := List.map_eq_append_iff.mp hrx
      obtain ⟨stop, rest, rfl, hstop, hrest⟩ := List.map_eq_append_iff.mp hothers
      obtain ⟨hesFrame, hesOthers⟩ := List.forall_mem_append.mp hes
      obtain ⟨hesStop, hesRest⟩ := List.forall_mem_append.mp hesOthers
      have hstopLength : 7 ≤ stop.length := by
        have hlen := congrArg List.length hstop
        rw [List.length_map, List.length_drop, txFrame, List.length_map, List.length_range] at hlen
        omega
      have hstopReady : ∀ e ∈ stop, e.rx = true ∧ e.dataReady = true := by
        intro e he
        refine ⟨stop_txFrame hhigh byte ?_, (hesStop e he).1⟩
        rw [← hstop]
        exact List.mem_map_of_mem he
      have hframe' : IsFrame byte (frame.map LineEdge.rx) := by
        rw [hframe]
        exact isFrame_txFrame hlow hhigh byte
      have hsends := CommandLine.Sends.byte ⟨c, byte⟩ [] before frame nofun hlength hbefore hframe'
        (fun e he => (hesFrame e he).2) (ih hstopLength hstopReady hesRest hrest)
      rw [List.nil_append, List.append_assoc] at hsends
      exact hsends

/-- The two ends of a line agree: after six clocks without `tx_start` it may be set whenever and
however often, and the receiver of the FPGA gets from the line of its transmitter the bytes that
this has taken, once and in order, at any phase of the two tick counters. `DataReady` stays set,
`CmdParam` stays the same, and at the end the transmitter is idle. -/
theorem received_of_txLine (p : CalcSignals) (c : Bool) {r : ℕ} (hr : r < dvsrMu19200)
    {quiet is : List TxIn} (hquiet : 6 ≤ quiet.length ∧ ∀ i ∈ quiet, i.txStart = false)
    (hend : ((⟨r, .reset⟩ : UartLed).after (quiet ++ is)).uartTx.startRegRx = .idle)
    {es : List LineEdge} (hes : ∀ e ∈ es, e.dataReady = true ∧ e.cmdParam = c)
    (hrx : es.map LineEdge.rx =
      UartTx.reset.txReg :: (⟨r, .reset⟩ : UartLed).levels (quiet ++ is)) :
    (CommandLine.reset p).received es =
      ((⟨r, .reset⟩ : UartLed).taken (quiet ++ is)).map (FpgaByte.mk c) := by
  obtain ⟨hlevels, htaken, hlt, hidle⟩ :=
    UartLed.levels_quiet (s := ⟨r, .reset⟩) hr rfl hquiet.2
  rw [UartLed.after_append] at hend
  have hline := UartLed.txLine hlt hidle hend
  rw [UartLed.taken_append, htaken, List.nil_append]
  rw [UartLed.levels_append, hlevels, ← List.cons_append] at hrx
  obtain ⟨before, rest, rfl, hbefore, hrest⟩ := List.map_eq_append_iff.mp hrx
  obtain ⟨hesBefore, hesRest⟩ := List.forall_mem_append.mp hes
  refine ((CommandLine.between_reset p).sends (hline.sends c ?_ ?_ hesRest hrest)).2
  · have hlen := congrArg List.length hbefore
    rw [List.length_map, List.length_cons, List.length_replicate] at hlen
    have hsix := hquiet.1
    omega
  · intro e he
    refine ⟨?_, (hesBefore e he).1⟩
    have hmem := List.mem_map_of_mem (f := LineEdge.rx) he
    rw [hbefore] at hmem
    rcases List.mem_cons.mp hmem with hhigh | hhigh
    · exact hhigh
    · exact (List.mem_replicate.mp hhigh).2

/-- The line to the FPGA, while it waits for nothing else. -/
def lineEdges (levels : List Bool) : List LineEdge := levels.map fun rx => ⟨true, true, rx, false⟩

theorem rx_lineEdges (levels : List Bool) : (lineEdges levels).map LineEdge.rx = levels := by
  rw [lineEdges, List.map_map]
  exact List.map_id _

theorem ready_lineEdges (levels : List Bool) :
    ∀ e ∈ lineEdges levels, e.dataReady = true ∧ e.cmdParam = true := by
  intro e he
  obtain ⟨rx, -, rfl⟩ := List.mem_map.mp he
  exact ⟨rfl, rfl⟩

/-- Six clocks without a byte. -/
def sixQuiet : List TxIn := List.replicate 6 ⟨false, 0⟩

/-- The clocks of one byte that is taken after those. -/
def oneByte (byte : UCHAR) : List TxIn := ⟨true, byte⟩ :: List.replicate 26073 ⟨false, 0⟩

theorem idle_oneByte (byte : UCHAR) :
    ((⟨0, .reset⟩ : UartLed).after (sixQuiet ++ oneByte byte)).uartTx.startRegRx = .idle := by
  have hquiet : (⟨0, .reset⟩ : UartLed).after sixQuiet = ⟨6, .reset⟩ := by decide
  obtain ⟨hbusy, hleft⟩ :=
    UartLed.levels_of_start (s := ⟨6, .reset⟩) (i := ⟨true, byte⟩) (by decide) rfl rfl
  have hlength : (List.replicate 26073 (⟨false, 0⟩ : TxIn)).length =
      ((⟨6, .reset⟩ : UartLed).clk ⟨true, byte⟩).clocksLeft := by
    rw [List.length_replicate, hleft]
    simp [modM, dvsrMu19200]
  rw [UartLed.after_append, hquiet, oneByte, UartLed.after_cons]
  exact (hbusy.levels hlength).2.2.2

theorem received_of_txLine_byte :
    (CommandLine.reset CommandLink.powerUp).received
        (lineEdges (UartTx.reset.txReg ::
          (⟨0, .reset⟩ : UartLed).levels (sixQuiet ++ oneByte 0xA5))) =
      ((⟨0, .reset⟩ : UartLed).taken (sixQuiet ++ oneByte 0xA5)).map (FpgaByte.mk true) :=
  received_of_txLine CommandLink.powerUp true (by decide) ⟨by decide, by decide⟩
    (idle_oneByte 0xA5) (ready_lineEdges _) (rx_lineEdges _)

/-! ## The line to the display -/

namespace UartLed

variable {s : UartLed}

/-- At any time the rest of the byte on the line follows. -/
theorem txLine_prefix (hr : s.rReg < dvsrMu19200) (hidle : s.uartTx.startRegRx = .idle)
    (is : List TxIn) : ∃ rest, TxLine (s.taken is) (s.levels is ++ rest) := by
  rcases (idle_or_busy hr hidle is).2 with hend | ⟨byte, hbusy⟩
  · refine ⟨[], ?_⟩
    rw [List.append_nil]
    exact txLine hr hidle hend
  · -- as many clocks without a start as the byte has left
    have hlength : (List.replicate (s.after is).clocksLeft (⟨false, 0⟩ : TxIn)).length =
        (s.after is).clocksLeft := List.length_replicate
    obtain ⟨-, htaken, -, hend⟩ := hbusy.levels hlength
    refine ⟨(s.after is).levels (List.replicate (s.after is).clocksLeft ⟨false, 0⟩), ?_⟩
    rw [← after_append] at hend
    have hline := txLine hr hidle hend
    rw [taken_append, htaken, List.append_nil, levels_append] at hline
    exact hline

end UartLed

namespace DisplaySender

variable {s₀ : CalcSignals} {skip2 : Bool} {es : ℕ → DisplayEdge}

/-- The level that the display sees in the first `n` clocks of a run. -/
def lineLevels (s₀ : CalcSignals) (skip2 : Bool) (es : ℕ → DisplayEdge) (n : ℕ) : List Bool :=
  (List.range n).map fun k => (run s₀ skip2 es (k + 1)).uartTx.txReg

/-- What `uart_tx` reads in them. -/
def txIns (s₀ : CalcSignals) (skip2 : Bool) (es : ℕ → DisplayEdge) (n : ℕ) : List TxIn :=
  (List.range n).map fun k => (run s₀ skip2 es k).txIn

theorem txIns_succ (s₀ : CalcSignals) (skip2 : Bool) (es : ℕ → DisplayEdge) (n : ℕ) :
    txIns s₀ skip2 es (n + 1) = txIns s₀ skip2 es n ++ [(run s₀ skip2 es n).txIn] := by
  rw [txIns, List.range_succ, List.map_append]
  rfl

theorem uartLed_run (s₀ : CalcSignals) (skip2 : Bool) (es : ℕ → DisplayEdge) (n : ℕ) :
    (run s₀ skip2 es n).uartLed = (⟨0, .reset⟩ : UartLed).after (txIns s₀ skip2 es n) := by
  induction n with
  | zero => rfl
  | succ n ih =>
      rw [txIns_succ, UartLed.after_append, ← ih]
      rfl

theorem levels_txIns (s₀ : CalcSignals) (skip2 : Bool) (es : ℕ → DisplayEdge) (n : ℕ) :
    (⟨0, .reset⟩ : UartLed).levels (txIns s₀ skip2 es n) = lineLevels s₀ skip2 es n := by
  induction n with
  | zero => rfl
  | succ n ih =>
      rw [txIns_succ, UartLed.levels_append, ih, ← uartLed_run, lineLevels, lineLevels,
        List.range_succ, List.map_append]
      rfl

theorem taken_txIns (s₀ : CalcSignals) (skip2 : Bool) (es : ℕ → DisplayEdge) (n : ℕ) :
    (⟨0, .reset⟩ : UartLed).taken (txIns s₀ skip2 es n) = (log s₀ skip2 es n).elements := by
  induction n with
  | zero => rfl
  | succ n ih =>
      rw [txIns_succ, UartLed.taken_append, ih, ← uartLed_run, log, SampleLog.elements_note]
      refine congrArg (_ ++ ·) ?_
      rw [UartLed.taken, UartLed.taken, List.append_nil, takes]
      by_cases htakes : (run s₀ skip2 es n).uartTx.startRegRx = .idle ∧
          (run s₀ skip2 es n).led.startTx = true
      · rw [if_pos htakes]
        exact if_pos htakes
      · rw [if_neg htakes]
        exact if_neg htakes

/-- On the line to the display there is at any time the beginning of whole frames, of the
bytes that `uart_tx` has taken until then. When no delay is too short these are the markers
and the readings in turn, from the first low byte on. -/
theorem line_of_run (s₀ : CalcSignals) (skip2 : Bool) (es : ℕ → DisplayEdge) (n : ℕ) :
    (∃ rest, TxLine (log s₀ skip2 es n).elements (lineLevels s₀ skip2 es n ++ rest)) ∧
      ((∀ k, (run s₀ skip2 es k).Finished) → ∀ k b,
        (log s₀ skip2 es n).elements[k]? = some b →
          ∃ i, Held es i ∧ b = content (some i) ((k + 1) % 6)) := by
  refine ⟨?_, ?_⟩
  · have hline := UartLed.txLine_prefix (s := ⟨0, .reset⟩) (by decide) rfl (txIns s₀ skip2 es n)
    rw [levels_txIns, taken_txIns] at hline
    exact hline
  · intro hfinished k b hb
    have heach := (tracks_log hfinished n).each
    rw [SampleLog.elements, List.getElem?_map, Option.map_eq_some_iff] at hb
    obtain ⟨⟨x, b'⟩, hsent, rfl⟩ := hb
    obtain ⟨⟨i, rfl, hi⟩, hbyte⟩ := heach k x b' hsent
    exact ⟨i, hi, hbyte⟩

/-- The rate is set while the engine turns, and every delay is long enough. -/
theorem line_of_run_sendWhileTurning :
    ∀ n k b, (log slowest false (sendWhileTurning 0x0902) n).elements[k]? = some b →
      ∃ i, Held (sendWhileTurning 0x0902) i ∧ b = content (some i) ((k + 1) % 6) := by
  intro n k b hb
  exact (line_of_run slowest false (sendWhileTurning 0x0902) n).2
    (finished_of_longDelay longDelay_sendWhileTurning) k b hb

end DisplaySender

end TruckControl
