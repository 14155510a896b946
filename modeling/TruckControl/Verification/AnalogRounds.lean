import TruckControl.Verification.Conversions

/-!
# The rounds of the analog inputs

A start pulse that finds the processes at rest makes each of them ask its chip for both of its
channels, one after the other. The four go through their states together.
-/

namespace TruckControl

/-! ## The conversions of a chip -/

/-- The start pulses that were accepted, the conversion on its way, and those that are over. -/
structure Record where
  accepted : ℕ
  current : Conversion
  conversions : List Conversion

/-- A start pulse is accepted at this edge. -/
def McpChip.Accepts (start : Bool) (c : McpChip) : Prop :=
  c.calcProc.mainReg = .idle ∧ c.calcProc.mainNext = .idle ∧ start = true

instance (start : Bool) (c : McpChip) : Decidable (c.Accepts start) :=
  inferInstanceAs (Decidable (_ ∧ _))

/-- The pulses and requests of the first conversions: both channels for one pulse after the
other. -/
def schedule (n : ℕ) : List (ℕ × List Bool) :=
  (List.range n).map fun j => (j / 2 + 1, requestOf (decide (j % 2 = 1)))

theorem schedule_succ (n : ℕ) :
    schedule (n + 1) = schedule n ++ [(n / 2 + 1, requestOf (decide (n % 2 = 1)))] := by
  rw [schedule, List.range_succ, List.map_append]
  rfl

namespace Record

variable {r : Record} {c : McpChip} {start mcpDin channel : Bool} {v : BitVec 10}

def initial : Record := ⟨0, ⟨0, [], []⟩, []⟩

/-- A clock edge. -/
def note (start mcpDin : Bool) (c : McpChip) (r : Record) : Record where
  accepted := if c.Accepts start then r.accepted + 1 else r.accepted
  current :=
    if c.mcpUnit.mcp3002Reg = .mStart ∧ c.calcProc.enable = true then ⟨r.accepted, [], []⟩
    else r.current.note c.mcpUnit.asks (c.mcpUnit.takes mcpDin)
  conversions :=
    if c.mcpUnit.Finishes then r.conversions ++ [r.current] else r.conversions

/-- The value is that of a conversion of the last pulse that was accepted. -/
def Held (r : Record) (channel : Bool) (v : BitVec 10) : Prop :=
  ∃ a ∈ r.conversions, a.Of r.accepted channel ∧ a.value = v

/-- Of the last pulse `k` conversions are over, and of those before it both. -/
def Stage (r : Record) (k : ℕ) : Prop :=
  ∃ n, n + 2 = 2 * r.accepted + k ∧
    r.conversions.map (fun a => (a.pulse, a.request)) = schedule n

/-- At most edges nothing changes but the conversion on its way. -/
structure Same (r r' : Record) : Prop where
  accepted : r'.accepted = r.accepted
  conversions : r'.conversions = r.conversions

theorem same_note (haccepts : ¬ c.Accepts start) (hfinishes : ¬ c.mcpUnit.Finishes) :
    r.Same (r.note start mcpDin c) :=
  ⟨if_neg haccepts, if_neg hfinishes⟩

theorem Same.held {r' : Record} (h : r.Same r') (hheld : r.Held channel v) :
    r'.Held channel v := by
  rw [Held, h.accepted, h.conversions]
  exact hheld

theorem Same.stage {r' : Record} (h : r.Same r') {k : ℕ} (hstage : r.Stage k) : r'.Stage k := by
  rw [Stage, h.accepted, h.conversions]
  exact hstage

/-- A conversion that is over is kept. -/
theorem Held.finish (h : r.Held channel v) {r' : Record} (haccepted : r'.accepted = r.accepted)
    {a : Conversion} (hconversions : r'.conversions = r.conversions ++ [a]) :
    r'.Held channel v := by
  obtain ⟨b, hb, hrest⟩ := h
  rw [Held, haccepted, hconversions]
  exact ⟨b, List.mem_append_left _ hb, hrest⟩

theorem Stage.finish (h : r.Stage channel.toNat) {r' : Record}
    (haccepted : r'.accepted = r.accepted) {a : Conversion}
    (hconversions : r'.conversions = r.conversions ++ [a]) (hpulse : a.pulse = r.accepted)
    (hrequest : a.request = requestOf channel) : r'.Stage (channel.toNat + 1) := by
  obtain ⟨n, hn, htags⟩ := h
  refine ⟨n + 1, by omega, ?_⟩
  have hhalf : n / 2 + 1 = r.accepted := by
    cases channel <;> simp at hn <;> omega
  have hodd : decide (n % 2 = 1) = channel := by
    cases channel <;> simp at hn ⊢ <;> omega
  rw [hconversions, List.map_append, htags, schedule_succ, hhalf, hodd, List.map_singleton,
    hpulse, hrequest]

end Record

/-! ## The states of a chip and its process -/

namespace McpChip

open Record

variable {c : McpChip} {r : Record}

/-- The state in which a process waits for a channel. -/
def waitState : Bool → CalcType
  | false => .start1
  | true => .start3

/-- The state it goes to. -/
def nextState : Bool → CalcType
  | false => .start2
  | true => .idle

/-- The signals of a process. -/
structure At (c : McpChip) (mainReg mainNext : CalcType) (enable : Bool) : Prop where
  mainReg : c.calcProc.mainReg = mainReg
  mainNext : c.calcProc.mainNext = mainNext
  enable : c.calcProc.enable = enable

/-- The joint states of a chip, its process, and the record. -/
inductive Tracks (c : McpChip) (r : Record) : Prop
  | resting (hat : c.At .idle .idle false) (hidle : c.mcpUnit.Idle)
      (hdone : c.mcpUnit.doneFlag = false) (hstage : r.Stage 2)
      (hheld : c.calcProc.procDone = true →
        r.Held false c.calcProc.rawRegisterA ∧ r.Held true c.calcProc.rawRegisterB)
  | accepted (hat : c.At .idle .start1 true) (hchannel : c.calcProc.channel = false)
      (hproc : c.calcProc.procDone = false) (hidle : c.mcpUnit.Idle)
      (hdone : c.mcpUnit.doneFlag = false) (hstage : r.Stage 0)
  | starting (channel : Bool) (hat : c.At (waitState channel) (waitState channel) true)
      (hchannel : c.calcProc.channel = channel) (hproc : c.calcProc.procDone = false)
      (hstarting : c.mcpUnit.Starting) (hstage : r.Stage channel.toNat)
      (hfirst : channel = true → r.Held false c.calcProc.rawRegisterA)
  | converting (channel : Bool) (hat : c.At (waitState channel) (waitState channel) false)
      (hproc : c.calcProc.procDone = false)
      (hconverting : c.mcpUnit.Converting channel r.current)
      (hpulse : r.current.pulse = r.accepted) (hstage : r.Stage channel.toNat)
      (hfirst : channel = true → r.Held false c.calcProc.rawRegisterA)
  | converted (channel : Bool) (hat : c.At (waitState channel) (waitState channel) false)
      (hproc : c.calcProc.procDone = false) (hfinished : c.mcpUnit.Finished)
      (hstage : r.Stage (channel.toNat + 1)) (hheld : r.Held channel c.mcpUnit.rawRegister)
      (hfirst : channel = true → r.Held false c.calcProc.rawRegisterA)
  | storing (channel : Bool) (hat : c.At (waitState channel) (nextState channel) false)
      (hproc : c.calcProc.procDone = channel) (hidle : c.mcpUnit.Idle)
      (hdone : c.mcpUnit.doneFlag = true) (hstage : r.Stage (channel.toNat + 1))
      (hheld : r.Held channel c.mcpUnit.rawRegister)
      (hfirst : r.Held false c.calcProc.rawRegisterA)
      (hsecond : channel = true → r.Held true c.calcProc.rawRegisterB)
  | between (hat : c.At .start2 .start2 false) (hproc : c.calcProc.procDone = false)
      (hidle : c.mcpUnit.Idle) (hdone : c.mcpUnit.doneFlag = false) (hstage : r.Stage 1)
      (hfirst : r.Held false c.calcProc.rawRegisterA)
  | asked (hat : c.At .start2 .start3 true) (hproc : c.calcProc.procDone = false)
      (hidle : c.mcpUnit.Idle) (hdone : c.mcpUnit.doneFlag = false) (hstage : r.Stage 1)
      (hfirst : r.Held false c.calcProc.rawRegisterA)

theorem tracks_reset (startShift : BitVec 3) : Tracks (reset startShift) .initial :=
  .resting ⟨rfl, rfl, rfl⟩ (MCP3002.idle_reset startShift) rfl ⟨0, rfl, rfl⟩
    fun hdone => by cases hdone

/-! ## Clock edges -/

section

variable {channel start mcpDin : Bool}

/-- The input of the chip's unit. -/
def mcpIn (c : McpChip) (mcpDin : Bool) : McpIn :=
  ⟨c.calcProc.enable, true, c.calcProc.channel, true, mcpDin⟩

theorem not_accepts_of_reg (h : c.calcProc.mainReg ≠ .idle) : ¬ c.Accepts start :=
  fun haccepts => h haccepts.1

theorem not_accepts_of_next (h : c.calcProc.mainNext ≠ .idle) : ¬ c.Accepts start :=
  fun haccepts => h haccepts.2.1

theorem waitState_ne_idle (channel : Bool) : waitState channel ≠ .idle := by
  cases channel <;> decide

/-- At rest, with or without a start pulse. -/
theorem Tracks.clk_resting (hat : c.At .idle .idle false) (hidle : c.mcpUnit.Idle)
    (hstage : r.Stage 2)
    (hheld : c.calcProc.procDone = true →
      r.Held false c.calcProc.rawRegisterA ∧ r.Held true c.calcProc.rawRegisterB) :
    Tracks (c.clk start true true mcpDin) (r.note start mcpDin c) := by
  obtain ⟨hidle', hdone'⟩ := hidle.clk (i := c.mcpIn mcpDin) hat.enable
  have hfinishes := MCP3002.not_finishes_of_mStart hidle.reg
  cases start with
  | true =>
      have hcalc : (c.clk true true true mcpDin).calcProc = { c.calcProc with
          mainReg := .idle, procDone := false, channel := false, enable := true,
          mainNext := .start1 } := by
        simp [McpChip.clk, CalcProc.clk, CalcProc.calcCase, hat.mainReg, hat.mainNext]
      have haccepted : (r.note true mcpDin c).accepted = r.accepted + 1 :=
        if_pos ⟨hat.mainReg, hat.mainNext, rfl⟩
      have hconversions : (r.note true mcpDin c).conversions = r.conversions := if_neg hfinishes
      obtain ⟨n, hn, htags⟩ := hstage
      refine .accepted ?_ ?_ ?_ hidle' hdone' ⟨n, ?_, ?_⟩
      · exact ⟨by rw [hcalc], by rw [hcalc], by rw [hcalc]⟩
      · rw [hcalc]
      · rw [hcalc]
      · omega
      · rw [hconversions, htags]
  | false =>
      have hcalc : (c.clk false true true mcpDin).calcProc = { c.calcProc with
          mainReg := .idle } := by
        simp [McpChip.clk, CalcProc.clk, CalcProc.calcCase, hat.mainReg, hat.mainNext]
      have hsame : r.Same (r.note false mcpDin c) :=
        same_note (fun haccepts => by cases haccepts.2.2) hfinishes
      refine .resting ?_ hidle' hdone' (hsame.stage hstage) ?_
      · exact ⟨by rw [hcalc], by rw [hcalc]; exact hat.mainNext, by rw [hcalc]; exact hat.enable⟩
      · rw [hcalc]
        intro hproc
        exact ⟨hsame.held (hheld hproc).1, hsame.held (hheld hproc).2⟩

theorem Tracks.clk_accepted (hat : c.At .idle .start1 true)
    (hchannel : c.calcProc.channel = false) (hproc : c.calcProc.procDone = false)
    (hidle : c.mcpUnit.Idle) (hstage : r.Stage 0) :
    Tracks (c.clk start true true mcpDin) (r.note start mcpDin c) := by
  have hcalc : (c.clk start true true mcpDin).calcProc = { c.calcProc with
      mainReg := .start1 } := by
    cases start <;>
      simp [McpChip.clk, CalcProc.clk, CalcProc.calcCase, hat.mainReg, hat.mainNext, hat.enable,
        hchannel, hproc]
  have hsame : r.Same (r.note start mcpDin c) :=
    same_note (not_accepts_of_next (by simp [hat.mainNext]))
      (MCP3002.not_finishes_of_mStart hidle.reg)
  have hstarting := hidle.clk_enable (i := c.mcpIn mcpDin) hat.enable rfl rfl
  refine .starting false ?_ ?_ ?_ hstarting (hsame.stage hstage) ?_
  · exact ⟨by rw [hcalc]; rfl, by rw [hcalc]; exact hat.mainNext, by rw [hcalc]; exact hat.enable⟩
  · rw [hcalc]
    exact hchannel
  · rw [hcalc]
    exact hproc
  · intro hsecond
    cases hsecond

/-- A process that waits goes on waiting while there is no result. -/
theorem calcProc_clk_wait (start mcpDin : Bool) (hreg : c.calcProc.mainReg = waitState channel)
    (hnext : c.calcProc.mainNext = waitState channel) (hdone : c.mcpUnit.doneFlag = false) :
    (c.clk start true true mcpDin).calcProc =
      { c.calcProc with mainReg := waitState channel, enable := false } := by
  cases channel <;>
    simp only [waitState] at hreg hnext <;>
    simp [McpChip.clk, CalcProc.clk, CalcProc.calcCase, hreg, hnext, hdone, waitState]

theorem at_clk_wait (start mcpDin : Bool) (hreg : c.calcProc.mainReg = waitState channel)
    (hnext : c.calcProc.mainNext = waitState channel) (hdone : c.mcpUnit.doneFlag = false) :
    (c.clk start true true mcpDin).At (waitState channel) (waitState channel) false := by
  rw [← hnext]
  exact ⟨by rw [calcProc_clk_wait start mcpDin hreg hnext hdone, hnext],
    by rw [calcProc_clk_wait start mcpDin hreg hnext hdone],
    by rw [calcProc_clk_wait start mcpDin hreg hnext hdone]⟩

theorem Tracks.clk_starting (hat : c.At (waitState channel) (waitState channel) true)
    (hchannel : c.calcProc.channel = channel) (hproc : c.calcProc.procDone = false)
    (hstarting : c.mcpUnit.Starting) (hstage : r.Stage channel.toNat)
    (hfirst : channel = true → r.Held false c.calcProc.rawRegisterA) :
    Tracks (c.clk start true true mcpDin) (r.note start mcpDin c) := by
  have hcalc := calcProc_clk_wait start mcpDin hat.mainReg hat.mainNext hstarting.doneFlag
  have hat' := at_clk_wait start mcpDin hat.mainReg hat.mainNext hstarting.doneFlag
  have hsame : r.Same (r.note start mcpDin c) :=
    same_note (not_accepts_of_reg (hat.mainReg ▸ waitState_ne_idle channel))
      (MCP3002.not_finishes_of_mStart hstarting.reg)
  have hcurrent : (r.note start mcpDin c).current = ⟨r.accepted, [], []⟩ :=
    if_pos ⟨hstarting.reg, hat.enable⟩
  have hconverting := hstarting.clk (i := c.mcpIn mcpDin) hat.enable rfl rfl r.accepted
  have hin : (c.mcpIn mcpDin).channel = channel := hchannel
  rw [hin] at hconverting
  refine .converting channel hat' ?_ ?_ ?_ (hsame.stage hstage) ?_
  · rw [hcalc]
    exact hproc
  · rw [hcurrent]
    exact hconverting
  · rw [hcurrent, hsame.accepted]
  · rw [hcalc]
    exact fun hsecond => hsame.held (hfirst hsecond)

theorem Tracks.clk_converting (hat : c.At (waitState channel) (waitState channel) false)
    (hproc : c.calcProc.procDone = false)
    (hconverting : c.mcpUnit.Converting channel r.current)
    (hpulse : r.current.pulse = r.accepted) (hstage : r.Stage channel.toNat)
    (hfirst : channel = true → r.Held false c.calcProc.rawRegisterA) :
    Tracks (c.clk start true true mcpDin) (r.note start mcpDin c) := by
  have hcalc := calcProc_clk_wait start mcpDin hat.mainReg hat.mainNext hconverting.doneFlag
  have hat' := at_clk_wait start mcpDin hat.mainReg hat.mainNext hconverting.doneFlag
  have hproc' : (c.clk start true true mcpDin).calcProc.procDone = false := by
    rw [hcalc]
    exact hproc
  have haccepts : ¬ c.Accepts start :=
    not_accepts_of_reg (hat.mainReg ▸ waitState_ne_idle channel)
  rcases hconverting.clk (i := c.mcpIn mcpDin) rfl with
    ⟨hmore, hconverting'⟩ | ⟨hfinishes, hfinished, hvalue, hrequest, hlength⟩
  · have hsame : r.Same (r.note start mcpDin c) := same_note haccepts hmore
    have hnot : ¬ (c.mcpUnit.mcp3002Reg = .mStart ∧ c.calcProc.enable = true) := by
      simp [hat.enable]
    have hcurrent : (r.note start mcpDin c).current =
        r.current.note c.mcpUnit.asks (c.mcpUnit.takes mcpDin) := if_neg hnot
    refine .converting channel hat' hproc' ?_ ?_ (hsame.stage hstage) ?_
    · rw [hcurrent]
      exact hconverting'
    · rw [hcurrent, hsame.accepted]
      exact hpulse
    · rw [hcalc]
      exact fun hsecond => hsame.held (hfirst hsecond)
  · have haccepted : (r.note start mcpDin c).accepted = r.accepted := if_neg haccepts
    have hconversions : (r.note start mcpDin c).conversions = r.conversions ++ [r.current] :=
      if_pos hfinishes
    refine .converted channel hat' hproc' hfinished
      (hstage.finish haccepted hconversions hpulse hrequest) ?_ ?_
    · refine ⟨r.current, ?_, ⟨hpulse.trans haccepted.symm, hrequest, hlength⟩, hvalue.symm⟩
      rw [hconversions]
      exact List.mem_append_right _ (List.mem_singleton_self _)
    · rw [hcalc]
      exact fun hsecond => (hfirst hsecond).finish haccepted hconversions

/-- A process that waits stores a result when there is one. -/
theorem calcProc_clk_store (start mcpDin : Bool) (hreg : c.calcProc.mainReg = waitState channel)
    (hdone : c.mcpUnit.doneFlag = true) :
    (c.clk start true true mcpDin).calcProc = { c.calcProc with
      mainReg := c.calcProc.mainNext
      mainNext := nextState channel
      enable := false
      procDone := if channel then true else c.calcProc.procDone
      rawRegisterA := if channel then c.calcProc.rawRegisterA else c.mcpUnit.rawRegister
      rawRegisterB := if channel then c.mcpUnit.rawRegister else c.calcProc.rawRegisterB } := by
  cases channel <;>
    simp only [waitState] at hreg <;>
    simp [McpChip.clk, CalcProc.clk, CalcProc.calcCase, hreg, hdone, nextState]

/-- What a process has stored is of the last pulse. -/
theorem stored (start mcpDin : Bool) {r' : Record} (hsame : r.Same r')
    (hreg : c.calcProc.mainReg = waitState channel) (hdone : c.mcpUnit.doneFlag = true)
    (hheld : r.Held channel c.mcpUnit.rawRegister)
    (hfirst : channel = true → r.Held false c.calcProc.rawRegisterA) :
    r'.Held false (c.clk start true true mcpDin).calcProc.rawRegisterA ∧
      (channel = true → r'.Held true (c.clk start true true mcpDin).calcProc.rawRegisterB) := by
  rw [calcProc_clk_store start mcpDin hreg hdone]
  cases channel with
  | true =>
      refine ⟨hsame.held (hfirst rfl), ?_⟩
      intro _
      exact hsame.held hheld
  | false =>
      refine ⟨hsame.held hheld, ?_⟩
      intro hsecond
      cases hsecond

theorem Tracks.clk_converted (hat : c.At (waitState channel) (waitState channel) false)
    (hproc : c.calcProc.procDone = false) (hfinished : c.mcpUnit.Finished)
    (hstage : r.Stage (channel.toNat + 1)) (hheld : r.Held channel c.mcpUnit.rawRegister)
    (hfirst : channel = true → r.Held false c.calcProc.rawRegisterA) :
    Tracks (c.clk start true true mcpDin) (r.note start mcpDin c) := by
  obtain ⟨hidle, hdone, hraw, hfinishes⟩ := hfinished.clk (c.mcpIn mcpDin)
  have hcalc := calcProc_clk_store start mcpDin hat.mainReg
    hfinished.doneFlag
  have hsame : r.Same (r.note start mcpDin c) :=
    same_note (not_accepts_of_reg (hat.mainReg ▸ waitState_ne_idle channel)) hfinishes
  obtain ⟨hfirst', hsecond'⟩ :=
    stored start mcpDin hsame hat.mainReg hfinished.doneFlag hheld hfirst
  refine .storing channel ?_ ?_ hidle hdone (hsame.stage hstage) ?_ hfirst' hsecond'
  · exact ⟨by rw [hcalc]; exact hat.mainNext, by rw [hcalc], by rw [hcalc]⟩
  · rw [hcalc]
    cases channel <;> simp [hproc]
  · have hraw' : (c.clk start true true mcpDin).mcpUnit.rawRegister = c.mcpUnit.rawRegister := hraw
    rw [hraw']
    exact hsame.held hheld

theorem Tracks.clk_storing (hat : c.At (waitState channel) (nextState channel) false)
    (hproc : c.calcProc.procDone = channel) (hidle : c.mcpUnit.Idle)
    (hdone : c.mcpUnit.doneFlag = true) (hstage : r.Stage (channel.toNat + 1))
    (hheld : r.Held channel c.mcpUnit.rawRegister)
    (hfirst : r.Held false c.calcProc.rawRegisterA) :
    Tracks (c.clk start true true mcpDin) (r.note start mcpDin c) := by
  obtain ⟨hidle', hdone'⟩ := hidle.clk (i := c.mcpIn mcpDin) hat.enable
  have hcalc := calcProc_clk_store start mcpDin hat.mainReg hdone
  have hsame : r.Same (r.note start mcpDin c) :=
    same_note (not_accepts_of_reg (hat.mainReg ▸ waitState_ne_idle channel))
      (MCP3002.not_finishes_of_mStart hidle.reg)
  obtain ⟨hfirst', hsecond'⟩ :=
    stored start mcpDin hsame hat.mainReg hdone hheld fun _ => hfirst
  have hat' : (c.clk start true true mcpDin).At (nextState channel) (nextState channel) false :=
    ⟨by rw [hcalc]; exact hat.mainNext, by rw [hcalc], by rw [hcalc]⟩
  have hproc' : (c.clk start true true mcpDin).calcProc.procDone = channel := by
    rw [hcalc]
    cases channel <;> simp [hproc]
  cases channel with
  | false => exact .between hat' hproc' hidle' hdone' (hsame.stage hstage) hfirst'
  | true =>
      exact .resting hat' hidle' hdone' (hsame.stage hstage) fun _ => ⟨hfirst', hsecond' rfl⟩

/-- A process asks for the second channel at two edges. -/
theorem calcProc_clk_start2 (start mcpDin : Bool) (hreg : c.calcProc.mainReg = .start2) :
    (c.clk start true true mcpDin).calcProc = { c.calcProc with
      mainReg := c.calcProc.mainNext, mainNext := .start3, channel := true, enable := true } := by
  simp [McpChip.clk, CalcProc.clk, CalcProc.calcCase, hreg]

theorem Tracks.clk_between (hat : c.At .start2 .start2 false)
    (hproc : c.calcProc.procDone = false) (hidle : c.mcpUnit.Idle) (hstage : r.Stage 1)
    (hfirst : r.Held false c.calcProc.rawRegisterA) :
    Tracks (c.clk start true true mcpDin) (r.note start mcpDin c) := by
  obtain ⟨hidle', hdone'⟩ := hidle.clk (i := c.mcpIn mcpDin) hat.enable
  have hcalc := calcProc_clk_start2 start mcpDin hat.mainReg
  have hsame : r.Same (r.note start mcpDin c) :=
    same_note (not_accepts_of_reg (by simp [hat.mainReg]))
      (MCP3002.not_finishes_of_mStart hidle.reg)
  refine .asked ?_ ?_ hidle' hdone' (hsame.stage hstage) ?_
  · exact ⟨by rw [hcalc]; exact hat.mainNext, by rw [hcalc], by rw [hcalc]⟩
  · rw [hcalc]
    exact hproc
  · rw [hcalc]
    exact hsame.held hfirst

theorem Tracks.clk_asked (hat : c.At .start2 .start3 true)
    (hproc : c.calcProc.procDone = false) (hidle : c.mcpUnit.Idle) (hstage : r.Stage 1)
    (hfirst : r.Held false c.calcProc.rawRegisterA) :
    Tracks (c.clk start true true mcpDin) (r.note start mcpDin c) := by
  have hstarting := hidle.clk_enable (i := c.mcpIn mcpDin) hat.enable rfl rfl
  have hcalc := calcProc_clk_start2 start mcpDin hat.mainReg
  have hsame : r.Same (r.note start mcpDin c) :=
    same_note (not_accepts_of_reg (by simp [hat.mainReg]))
      (MCP3002.not_finishes_of_mStart hidle.reg)
  refine .starting true ?_ ?_ ?_ hstarting (hsame.stage hstage) ?_
  · exact ⟨by rw [hcalc]; exact hat.mainNext, by rw [hcalc]; rfl, by rw [hcalc]⟩
  · rw [hcalc]
  · rw [hcalc]
    exact hproc
  · rw [hcalc]
    exact fun _ => hsame.held hfirst

/-- An edge, whatever the start signal and the data of the chip. -/
theorem Tracks.clk (h : Tracks c r) (start mcpDin : Bool) :
    Tracks (c.clk start true true mcpDin) (r.note start mcpDin c) := by
  cases h with
  | resting hat hidle _ hstage hheld => exact clk_resting hat hidle hstage hheld
  | accepted hat hchannel hproc hidle _ hstage => exact clk_accepted hat hchannel hproc hidle hstage
  | starting channel hat hchannel hproc hstarting hstage hfirst =>
      exact clk_starting hat hchannel hproc hstarting hstage hfirst
  | converting channel hat hproc hconverting hpulse hstage hfirst =>
      exact clk_converting hat hproc hconverting hpulse hstage hfirst
  | converted channel hat hproc hfinished hstage hheld hfirst =>
      exact clk_converted hat hproc hfinished hstage hheld hfirst
  | storing channel hat hproc hidle hdone hstage hheld hfirst =>
      exact clk_storing hat hproc hidle hdone hstage hheld hfirst
  | between hat hproc hidle _ hstage hfirst => exact clk_between hat hproc hidle hstage hfirst
  | asked hat hproc hidle _ hstage hfirst => exact clk_asked hat hproc hidle hstage hfirst

theorem Tracks.stage (h : Tracks c r) : ∃ k, r.Stage k := by
  cases h with
  | resting _ _ _ hstage | accepted _ _ _ _ _ hstage | starting _ _ _ _ _ hstage
  | converting _ _ _ _ _ hstage | converted _ _ _ _ hstage | storing _ _ _ _ _ hstage
  | between _ _ _ _ hstage | asked _ _ _ _ hstage => exact ⟨_, hstage⟩

/-- A process that is done holds both channels of one pulse. -/
theorem Tracks.held (h : Tracks c r) (hdone : c.calcProc.procDone = true) :
    r.Held false c.calcProc.rawRegisterA ∧ r.Held true c.calcProc.rawRegisterB := by
  cases h with
  | resting _ _ _ _ hheld => exact hheld hdone
  | storing channel _ hproc _ _ _ _ hfirst hsecond =>
      exact ⟨hfirst, hsecond (hproc.symm.trans hdone)⟩
  | accepted _ _ hproc | starting _ _ _ hproc | converting _ _ hproc | converted _ _ hproc
  | between _ hproc | asked _ hproc =>
      rw [hproc] at hdone
      cases hdone

end

end McpChip

end TruckControl
