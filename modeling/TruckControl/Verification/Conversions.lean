import Mathlib.Algebra.Group.Nat.Defs
import TruckControl.Model.AnalogInputs

/-!
# The conversions of one chip

A chip is asked for a channel bit by bit, and answers with the bits of the conversion. What is
held of it in the registers is computed here from these bits.
-/

namespace TruckControl

theorem toNat_add_one {w : ℕ} {x : BitVec w} (h : x.toNat + 1 < 2 ^ w) :
    (x + 1).toNat = x.toNat + 1 := by
  have hlt : 1 < 2 ^ w := by omega
  have hone : (1 : BitVec w).toNat = 1 := Nat.mod_eq_of_lt hlt
  rw [BitVec.toNat_add_of_lt (by rw [hone]; exact h), hone]

/-! ## Conversions -/

/-- A conversion: the accepted start pulse it is made for, the bits that ask the chip for it, and
the bits that come from the chip. -/
structure Conversion where
  pulse : ℕ
  request : List Bool
  samples : List Bool
  deriving DecidableEq, Repr

namespace Conversion

/-- What the bits make up, first bit first; ten of them are kept. -/
def value (c : Conversion) : BitVec 10 :=
  c.samples.foldl (fun v b => MCP3002.shiftIn true b v) 0

/-- A clock edge of the conversion. -/
def note (asks takes : Option Bool) (c : Conversion) : Conversion :=
  { c with request := c.request ++ asks.toList, samples := c.samples ++ takes.toList }

@[simp] theorem note_none (c : Conversion) : c.note none none = c := by
  simp [note]

theorem value_note_some (c : Conversion) (asks : Option Bool) (b : Bool) :
    (c.note asks (some b)).value = MCP3002.shiftIn true b c.value := by
  simp [note, value]

end Conversion

/-- The bits that ask a chip for a channel: start, single-ended, the channel, first bit first. -/
def requestOf (channel : Bool) : List Bool := [true, true, channel, true]

/-- A whole conversion of a channel, made for a pulse: the null bit of the chip and ten more. -/
structure Conversion.Of (c : Conversion) (pulse : ℕ) (channel : Bool) : Prop where
  pulse : c.pulse = pulse
  request : c.request = requestOf channel
  samples : c.samples.length = 11

namespace MCP3002

variable {u : MCP3002} {c : Conversion} {channel : Bool} {i : McpIn}

/-! ## What a clock edge does for the chip -/

/-- The bit that is put on `MCP_DOUT` to ask for a conversion. -/
def asks (u : MCP3002) : Option Bool :=
  if u.mcp3002Reg = .mPreshift2 ∧ u.timeDelayReg2.toNat > mcpTimeDelay ∧ u.skip = false ∧
      u.preShift.toNat ≤ 3 then
    some (u.startShift.getLsbD (3 - u.preShift.toNat))
  else none

/-- The bit that is taken from `MCP_DIN`. -/
def takes (mcpDin : Bool) (u : MCP3002) : Option Bool :=
  if u.mcp3002Reg = .mResults1 ∧ u.timeDelayReg2.toNat > mcpTimeDelay ∧ u.skip2 = false then
    some mcpDin
  else none

/-- Whether `raw_register` is given. -/
def Finishes (u : MCP3002) : Prop :=
  u.mcp3002Reg = .mResults1 ∧ u.timeDelayReg2.toNat > mcpTimeDelay ∧ u.skip2 = false ∧
    u.shift.toNat > 10

instance (u : MCP3002) : Decidable u.Finishes :=
  inferInstanceAs (Decidable (_ ∧ _))

/-! ## The invariant of a conversion -/

/-- How far a state counts. -/
def limit : StateMCP3002 → ℕ
  | .mShift1 => mcpTimeDelay / 32
  | _ => mcpTimeDelay

/-- Which states come after which in a conversion. -/
def follows : StateMCP3002 → StateMCP3002 → Bool
  | .mPreshift1, .mPreshift2 | .mPreshift2, .mPreshift3 | .mPreshift2, .mShift1
  | .mPreshift3, .mPreshift1 | .mShift1, .mResults0 | .mResults0, .mResults1
  | .mResults1, .mResults2 | .mResults2, .mResults0 => true
  | _, _ => false

/-- Whether the chip is still being asked. -/
def asking : StateMCP3002 → Bool
  | .mPreshift1 | .mPreshift2 | .mPreshift3 => true
  | _ => false

/-- `start_shift` for a channel. -/
def startBits (channel : Bool) : BitVec 4 := 1#1 ++ 1#1 ++ BitVec.ofBool channel ++ 1#1

theorem first_startBits (channel : Bool) : (startBits channel).getLsbD 3 = true := by
  cases channel <;> decide

theorem take_requestOf (channel : Bool) : ∀ k < 4, (requestOf channel).take (k + 1) =
    (requestOf channel).take k ++ [(startBits channel).getLsbD (3 - k)] := by
  cases channel <;> decide

/-- The registers are what the bits of the conversion make them. -/
structure Holds (channel : Bool) (c : Conversion) (stage : StateMCP3002) (u : MCP3002) : Prop where
  startShift : u.startShift = startBits channel
  preShift : asking stage = true → u.preShift.toNat ≤ 4
  request : c.request =
    if asking stage then (requestOf channel).take u.preShift.toNat else requestOf channel
  results : u.results = c.value
  shift : u.shift.toNat = c.samples.length
  length : c.samples.length ≤ 11

/-- The counter: each count is there for two edges. -/
structure Counts (u : MCP3002) : Prop where
  le : u.timeDelayReg2.toNat ≤ limit u.mcp3002Reg + 1
  next : u.timeDelayNext2.toNat = u.timeDelayReg2.toNat ∨
    u.timeDelayReg2.toNat ≤ limit u.mcp3002Reg ∧
      u.timeDelayNext2.toNat = u.timeDelayReg2.toNat + 1

/-- A conversion on its way: its states count, and leave for the next one. -/
inductive Converting (channel : Bool) (c : Conversion) (u : MCP3002) : Prop
  | counting (hreg : u.mcp3002Reg ≠ .mStart) (hnext : u.mcp3002Next = u.mcp3002Reg)
      (hcount : u.Counts) (hskip : u.skip = false) (hskip2 : u.skip2 = false)
      (hdone : u.doneFlag = false) (holds : Holds channel c u.mcp3002Next u)
  | leaving (hfollows : follows u.mcp3002Reg u.mcp3002Next = true)
      (hover : u.timeDelayReg2.toNat > limit u.mcp3002Reg) (hzero : u.timeDelayNext2 = 0)
      (hskip : u.skip = decide (u.mcp3002Reg = .mPreshift2))
      (hskip2 : u.skip2 = decide (u.mcp3002Reg = .mResults1))
      (hdone : u.doneFlag = false) (holds : Holds channel c u.mcp3002Next u)

theorem Converting.doneFlag (h : Converting channel c u) : u.doneFlag = false := by
  cases h with
  | counting _ _ _ _ _ hdone => exact hdone
  | leaving _ _ _ _ _ hdone => exact hdone

/-- No conversion is on its way. -/
structure Idle (u : MCP3002) : Prop where
  reg : u.mcp3002Reg = .mStart
  next : u.mcp3002Next = .mStart
  timeReg : u.timeDelayReg2 = 0
  timeNext : u.timeDelayNext2 = 0
  skip : u.skip = false
  skip2 : u.skip2 = false
  first : u.startShift.getLsbD 3 = true

/-- Between the two edges at which a conversion is started. -/
structure Starting (u : MCP3002) : Prop where
  reg : u.mcp3002Reg = .mStart
  next : u.mcp3002Next = .mPreshift1
  timeReg : u.timeDelayReg2 = 0
  timeNext : u.timeDelayNext2 = 0
  skip : u.skip = false
  skip2 : u.skip2 = false
  first : u.startShift.getLsbD 3 = true
  doneFlag : u.doneFlag = false
  preShift : u.preShift = 0
  shift : u.shift = 0

/-- Between the two edges at which the last bit is taken. -/
structure Finished (u : MCP3002) : Prop where
  reg : u.mcp3002Reg = .mResults1
  next : u.mcp3002Next = .mStart
  timeReg : u.timeDelayReg2.toNat > mcpTimeDelay
  timeNext : u.timeDelayNext2 = 0
  skip : u.skip = false
  skip2 : u.skip2 = true
  first : u.startShift.getLsbD 3 = true
  doneFlag : u.doneFlag = true

/-! ## Clock edges -/

/-- Before its end a state only counts. -/
theorem mcpCase_of_le (hreg : u.mcp3002Reg ≠ .mStart)
    (hle : u.timeDelayReg2.toNat ≤ limit u.mcp3002Reg) (i : McpIn) :
    u.mcpCase i = { u with timeDelayNext2 := u.timeDelayReg2 + 1 } := by
  cases h : u.mcp3002Reg <;> simp only [h, limit] at hle
  case mStart => exact absurd h hreg
  all_goals simp [mcpCase, h, hle]

theorem asks_of_le (hle : u.timeDelayReg2.toNat ≤ limit u.mcp3002Reg) : u.asks = none := by
  rw [asks, if_neg]
  rintro ⟨hreg, hover, -⟩
  have hlimit : limit u.mcp3002Reg = mcpTimeDelay := by rw [hreg]; rfl
  omega

theorem takes_of_le (hle : u.timeDelayReg2.toNat ≤ limit u.mcp3002Reg) (mcpDin : Bool) :
    u.takes mcpDin = none := by
  rw [takes, if_neg]
  rintro ⟨hreg, hover, -⟩
  have hlimit : limit u.mcp3002Reg = mcpTimeDelay := by rw [hreg]; rfl
  omega

theorem not_finishes_of_le (hle : u.timeDelayReg2.toNat ≤ limit u.mcp3002Reg) :
    ¬ u.Finishes := by
  rintro ⟨hreg, hover, -⟩
  have hlimit : limit u.mcp3002Reg = mcpTimeDelay := by rw [hreg]; rfl
  omega

theorem toNat_timeDelayReg2_add_one
    (hle : u.timeDelayReg2.toNat ≤ limit u.mcp3002Reg) :
    (u.timeDelayReg2 + 1).toNat = u.timeDelayReg2.toNat + 1 := by
  have hlimit : limit u.mcp3002Reg ≤ mcpTimeDelay := by
    cases u.mcp3002Reg <;> decide
  have hdelay : mcpTimeDelay = 1000 := rfl
  exact toNat_add_one (by omega)

/-- A count lasts two edges. -/
theorem Counts.tick (h : u.Counts) (hle : u.timeDelayReg2.toNat ≤ limit u.mcp3002Reg)
    {v : MCP3002} (hreg : v.mcp3002Reg = u.mcp3002Reg) (htime : v.timeDelayReg2 = u.timeDelayNext2)
    (hnext : v.timeDelayNext2 = u.timeDelayReg2 + 1) : v.Counts := by
  have hone := toNat_timeDelayReg2_add_one hle
  have hcases := h.next
  refine ⟨?_, ?_⟩
  · rw [htime, hreg]
    omega
  · rw [htime, hnext, hreg, hone]
    omega

theorem Holds.congr {stage : StateMCP3002} (h : Holds channel c stage u) {v : MCP3002}
    (hbits : v.startShift = u.startShift) (hpre : v.preShift = u.preShift)
    (hresults : v.results = u.results) (hshift : v.shift = u.shift) : Holds channel c stage v where
  startShift := hbits.trans h.startShift
  preShift := hpre ▸ h.preShift
  request := hpre ▸ h.request
  results := hresults.trans h.results
  shift := hshift ▸ h.shift
  length := h.length

/-- While a state counts nothing else changes. -/
theorem Converting.clk_of_le (hreg : u.mcp3002Reg ≠ .mStart)
    (hnext : u.mcp3002Next = u.mcp3002Reg) (hcount : u.Counts) (hskip : u.skip = false)
    (hskip2 : u.skip2 = false) (hdone : u.doneFlag = false)
    (holds : Holds channel c u.mcp3002Next u)
    (hle : u.timeDelayReg2.toNat ≤ limit u.mcp3002Reg) (i : McpIn) :
    Converting channel c (u.clk i) := by
  have hclk : u.clk i = { u with
      mcp3002Reg := u.mcp3002Next
      timeDelayReg2 := u.timeDelayNext2
      timeDelayNext2 := u.timeDelayReg2 + 1 } := by
    rw [clk, mcpCase_of_le hreg hle]
  rw [hclk]
  exact .counting (hnext ▸ hreg) rfl (hcount.tick hle hnext rfl rfl) hskip hskip2 hdone
    (holds.congr rfl rfl rfl rfl)

/-- What the second edge of the end of a state does. -/
theorem clk_leaving (hfollows : follows u.mcp3002Reg u.mcp3002Next = true)
    (hover : u.timeDelayReg2.toNat > limit u.mcp3002Reg)
    (hskip : u.skip = decide (u.mcp3002Reg = .mPreshift2))
    (hskip2 : u.skip2 = decide (u.mcp3002Reg = .mResults1)) (i : McpIn) :
    (u.clk i).mcp3002Next = u.mcp3002Next ∧ (u.clk i).timeDelayNext2 = 0 ∧
      (u.clk i).skip = false ∧ (u.clk i).skip2 = false ∧ (u.clk i).doneFlag = u.doneFlag ∧
        (u.clk i).startShift = u.startShift ∧ (u.clk i).preShift = u.preShift ∧
          (u.clk i).results = u.results ∧ (u.clk i).shift = u.shift := by
  cases hreg : u.mcp3002Reg <;> cases hnext : u.mcp3002Next <;>
    simp only [hreg, hnext, follows, reduceCtorEq] at hfollows
  all_goals simp_all [clk, mcpCase, limit]

/-- The second edge of the end of a state. -/
theorem Converting.clk_leaving (hfollows : follows u.mcp3002Reg u.mcp3002Next = true)
    (hover : u.timeDelayReg2.toNat > limit u.mcp3002Reg) (hzero : u.timeDelayNext2 = 0)
    (hskip : u.skip = decide (u.mcp3002Reg = .mPreshift2))
    (hskip2 : u.skip2 = decide (u.mcp3002Reg = .mResults1))
    (hdone : u.doneFlag = false) (holds : Holds channel c u.mcp3002Next u) (i : McpIn) :
    Converting channel c (u.clk i) ∧ u.asks = none ∧ u.takes i.mcpDin = none ∧ ¬ u.Finishes := by
  obtain ⟨hnext', hzero', hskip', hskip2', hdone', hbits, hpre, hresults, hshift⟩ :=
    MCP3002.clk_leaving hfollows hover hskip hskip2 i
  have hreg' : (u.clk i).mcp3002Reg = u.mcp3002Next := rfl
  have htime' : (u.clk i).timeDelayReg2 = u.timeDelayNext2 := rfl
  refine ⟨?_, ?_, ?_, ?_⟩
  · refine .counting ?_ (hnext'.trans hreg'.symm) ?_ hskip' hskip2' (hdone'.trans hdone) ?_
    · rw [hreg']
      intro hstart
      rw [hstart] at hfollows
      revert hfollows
      cases u.mcp3002Reg <;> decide
    · rw [hzero] at htime'
      refine ⟨?_, .inl ?_⟩
      · rw [htime']
        exact Nat.zero_le _
      · rw [htime', hzero']
    · rw [hnext']
      exact holds.congr hbits hpre hresults hshift
  · rw [asks, if_neg]
    rintro ⟨hreg, -, hrest, -⟩
    simp [hskip, hreg] at hrest
  · rw [takes, if_neg]
    rintro ⟨hreg, -, hrest⟩
    simp [hskip2, hreg] at hrest
  · rintro ⟨hreg, -, hrest, -⟩
    simp [hskip2, hreg] at hrest

/-! ### The ends at which something is sent or taken -/

theorem clk_mPreshift2_last (hreg : u.mcp3002Reg = .mPreshift2)
    (hover : u.timeDelayReg2.toNat > mcpTimeDelay) (hskip : u.skip = false)
    (hlast : u.preShift.toNat > 3) (i : McpIn) :
    u.clk i = { u with
      mcp3002Reg := u.mcp3002Next
      timeDelayReg2 := u.timeDelayNext2
      timeDelayNext2 := 0
      preShift := 0
      mcpCLK := false
      mcp3002Next := .mShift1
      skip := true } := by
  simp [clk, mcpCase, hreg, hover, hskip, hlast]

theorem clk_mPreshift2 (hreg : u.mcp3002Reg = .mPreshift2)
    (hover : u.timeDelayReg2.toNat > mcpTimeDelay) (hskip : u.skip = false)
    (hmore : ¬ u.preShift.toNat > 3) (i : McpIn) :
    u.clk i = { u with
      mcp3002Reg := u.mcp3002Next
      timeDelayReg2 := u.timeDelayNext2
      timeDelayNext2 := 0
      mcpDout := u.startShift.getLsbD (3 - u.preShift.toNat)
      preShift := u.preShift + 1
      mcp3002Next := .mPreshift3
      skip := true } := by
  simp [clk, mcpCase, hreg, hover, hskip, hmore]

theorem clk_mResults1_last (hreg : u.mcp3002Reg = .mResults1)
    (hover : u.timeDelayReg2.toNat > mcpTimeDelay) (hskip2 : u.skip2 = false)
    (hlast : u.shift.toNat > 10) (i : McpIn) :
    u.clk i = { u with
      mcp3002Reg := u.mcp3002Next
      timeDelayReg2 := u.timeDelayNext2
      timeDelayNext2 := 0
      results := shiftIn i.msbf i.mcpDin u.results
      doneFlag := true
      rawRegister := u.results
      mcpCS := true
      mcp3002Next := .mStart
      shift := 0
      skip2 := true } := by
  have hsum : u.shift.toNat + 1 > 11 := by omega
  simp only [clk, mcpCase, hreg, if_pos hover, hskip2, if_pos hlast, if_pos hsum,
    Bool.false_eq_true, if_false]

theorem clk_mResults1 (hreg : u.mcp3002Reg = .mResults1)
    (hover : u.timeDelayReg2.toNat > mcpTimeDelay) (hskip2 : u.skip2 = false)
    (hmore : ¬ u.shift.toNat > 10) (i : McpIn) :
    u.clk i = { u with
      mcp3002Reg := u.mcp3002Next
      timeDelayReg2 := u.timeDelayNext2
      timeDelayNext2 := 0
      results := shiftIn i.msbf i.mcpDin u.results
      mcp3002Next := .mResults2
      shift := u.shift + 1
      skip2 := true } := by
  have hsum : ¬ u.shift.toNat + 1 > 11 := by omega
  simp only [clk, mcpCase, hreg, if_pos hover, hskip2, if_neg hmore, if_neg hsum,
    Bool.false_eq_true, if_false]

theorem asks_of_ne (h : u.mcp3002Reg ≠ .mPreshift2) : u.asks = none := by
  rw [asks, if_neg fun hasks => h hasks.1]

theorem takes_of_ne (h : u.mcp3002Reg ≠ .mResults1) (mcpDin : Bool) : u.takes mcpDin = none := by
  rw [takes, if_neg fun htakes => h htakes.1]

/-- Counted to its end, a state leaves for one that follows. -/
theorem Converting.leave (hnext : u.mcp3002Next = u.mcp3002Reg) (hcount : u.Counts)
    (hover : u.timeDelayReg2.toNat > limit u.mcp3002Reg)
    (hfollows : follows u.mcp3002Reg (u.clk i).mcp3002Next = true)
    (hzero : (u.clk i).timeDelayNext2 = 0)
    (hskip : (u.clk i).skip = decide (u.mcp3002Reg = .mPreshift2))
    (hskip2 : (u.clk i).skip2 = decide (u.mcp3002Reg = .mResults1))
    (hdone : (u.clk i).doneFlag = false)
    (holds : Holds channel c (u.clk i).mcp3002Next (u.clk i)) :
    Converting channel c (u.clk i) := by
  have hreg' : (u.clk i).mcp3002Reg = u.mcp3002Reg := hnext
  have htime' : (u.clk i).timeDelayReg2 = u.timeDelayNext2 := rfl
  have hcases := hcount.next
  refine .leaving ?_ ?_ hzero ?_ ?_ hdone holds
  · rw [hreg']
    exact hfollows
  · rw [hreg', htime']
    omega
  · rw [hreg']
    exact hskip
  · rw [hreg']
    exact hskip2

/-- The first edge of the end of the last `M_preshift2`. -/
theorem Converting.clk_asked (hreg : u.mcp3002Reg = .mPreshift2)
    (hnext : u.mcp3002Next = u.mcp3002Reg) (hcount : u.Counts) (hskip : u.skip = false)
    (hskip2 : u.skip2 = false) (hdone : u.doneFlag = false)
    (holds : Holds channel c u.mcp3002Next u)
    (hover : u.timeDelayReg2.toNat > limit u.mcp3002Reg) (hlast : u.preShift.toNat > 3)
    (i : McpIn) : Converting channel (c.note u.asks none) (u.clk i) := by
  have hover' : u.timeDelayReg2.toNat > mcpTimeDelay := by
    rw [hreg] at hover
    exact hover
  have hstage : asking u.mcp3002Next = true := by
    rw [hnext, hreg]
    rfl
  have hle := holds.preShift hstage
  have hfour : u.preShift.toNat = 4 := by omega
  have hrequest := holds.request
  rw [if_pos hstage, hfour] at hrequest
  have hclk := clk_mPreshift2_last hreg hover' hskip hlast i
  have hasks : u.asks = none := by
    rw [asks, if_neg fun hasks => absurd hasks.2.2.2 (by omega)]
  refine .leave hnext hcount hover ?_ ?_ ?_ ?_ ?_ ?_
  all_goals rw [hclk]
  · rw [hreg]
    rfl
  · simp [hreg]
  · simp [hreg, hskip2]
  · exact hdone
  · rw [hasks, Conversion.note_none]
    refine ⟨holds.startShift, ?_, hrequest, holds.results, holds.shift, holds.length⟩
    intro hasking
    cases hasking

/-- The first edge of the end of the others. -/
theorem Converting.clk_asks (hreg : u.mcp3002Reg = .mPreshift2)
    (hnext : u.mcp3002Next = u.mcp3002Reg) (hcount : u.Counts) (hskip : u.skip = false)
    (hskip2 : u.skip2 = false) (hdone : u.doneFlag = false)
    (holds : Holds channel c u.mcp3002Next u)
    (hover : u.timeDelayReg2.toNat > limit u.mcp3002Reg) (hmore : ¬ u.preShift.toNat > 3)
    (i : McpIn) : Converting channel (c.note u.asks none) (u.clk i) := by
  have hover' : u.timeDelayReg2.toNat > mcpTimeDelay := by
    rw [hreg] at hover
    exact hover
  have hstage : asking u.mcp3002Next = true := by
    rw [hnext, hreg]
    rfl
  have hrequest := holds.request
  rw [if_pos hstage] at hrequest
  have hclk := clk_mPreshift2 hreg hover' hskip hmore i
  have hasks : u.asks = some (u.startShift.getLsbD (3 - u.preShift.toNat)) := by
    rw [asks, if_pos ⟨hreg, hover', hskip, by omega⟩]
  have hone : (u.preShift + 1).toNat = u.preShift.toNat + 1 := toNat_add_one (by omega)
  refine .leave hnext hcount hover ?_ ?_ ?_ ?_ ?_ ?_
  all_goals rw [hclk]
  · rw [hreg]
    rfl
  · simp [hreg]
  · simp [hreg, hskip2]
  · exact hdone
  · rw [hasks]
    refine ⟨holds.startShift, ?_, ?_, ?_, ?_, ?_⟩
    · intro _
      rw [hone]
      omega
    · have htake := take_requestOf channel u.preShift.toNat (by omega)
      rw [← hone, ← hrequest, ← holds.startShift] at htake
      exact htake.symm
    · simpa [Conversion.note, Conversion.value] using holds.results
    · simpa [Conversion.note] using holds.shift
    · simpa [Conversion.note] using holds.length

/-- The first edge of the end of `M_results1`, but for the last bit. -/
theorem Converting.clk_takes (hreg : u.mcp3002Reg = .mResults1)
    (hnext : u.mcp3002Next = u.mcp3002Reg) (hcount : u.Counts) (hskip : u.skip = false)
    (hskip2 : u.skip2 = false) (hdone : u.doneFlag = false)
    (holds : Holds channel c u.mcp3002Next u)
    (hover : u.timeDelayReg2.toNat > limit u.mcp3002Reg) (hmore : ¬ u.shift.toNat > 10)
    (hmsbf : i.msbf = true) :
    Converting channel (c.note none (u.takes i.mcpDin)) (u.clk i) := by
  have hover' : u.timeDelayReg2.toNat > mcpTimeDelay := by
    rw [hreg] at hover
    exact hover
  have hclk := clk_mResults1 hreg hover' hskip2 hmore i
  rw [hmsbf] at hclk
  have hshift := holds.shift
  have hone : (u.shift + 1).toNat = u.shift.toNat + 1 := toNat_add_one (by omega)
  have htakes : u.takes i.mcpDin = some i.mcpDin := by
    rw [takes, if_pos ⟨hreg, hover', hskip2⟩]
  have hrequest : c.request = requestOf channel := by
    simpa [hnext, hreg, asking] using holds.request
  refine .leave hnext hcount hover ?_ ?_ ?_ ?_ ?_ ?_
  all_goals rw [hclk]
  · rw [hreg]
    rfl
  · simp [hreg, hskip]
  · simp [hreg]
  · exact hdone
  · rw [htakes]
    have hlength : (c.note none (some i.mcpDin)).samples.length = c.samples.length + 1 := by
      simp [Conversion.note]
    refine ⟨holds.startShift, ?_, ?_, ?_, ?_, ?_⟩
    · intro hasking
      cases hasking
    · simpa [Conversion.note, asking] using hrequest
    · rw [Conversion.value_note_some, ← holds.results]
    · rw [hlength, ← hshift]
      exact hone
    · omega

/-- The first edge of the end of the last `M_results1`. -/
theorem Converting.clk_finishes (hnext : u.mcp3002Next = u.mcp3002Reg) (hcount : u.Counts)
    (hskip : u.skip = false) (holds : Holds channel c u.mcp3002Next u) (hfinishes : u.Finishes)
    (i : McpIn) :
    (u.clk i).Finished ∧ (u.clk i).rawRegister = c.value ∧ c.request = requestOf channel ∧
      c.samples.length = 11 := by
  obtain ⟨hreg, hover, hskip2, hlast⟩ := hfinishes
  have hclk := clk_mResults1_last hreg hover hskip2 hlast i
  have hlimit : limit u.mcp3002Reg = mcpTimeDelay := by rw [hreg]; rfl
  have hcases := hcount.next
  have hrequest : c.request = requestOf channel := by
    simpa [hnext, hreg, asking] using holds.request
  rw [hclk]
  have hshift := holds.shift
  have hlength := holds.length
  refine ⟨⟨hnext.trans hreg, rfl, ?_, rfl, hskip, rfl, ?_, rfl⟩, holds.results, hrequest, by omega⟩
  · change u.timeDelayNext2.toNat > mcpTimeDelay
    omega
  · change u.startShift.getLsbD 3 = true
    rw [holds.startShift]
    exact first_startBits channel

/-- The first edge of the end of any other state. -/
theorem Converting.clk_other (hreg : u.mcp3002Reg ≠ .mStart) (hpre : u.mcp3002Reg ≠ .mPreshift2)
    (hresults : u.mcp3002Reg ≠ .mResults1) (hnext : u.mcp3002Next = u.mcp3002Reg)
    (hcount : u.Counts) (hskip : u.skip = false) (hskip2 : u.skip2 = false)
    (hdone : u.doneFlag = false) (holds : Holds channel c u.mcp3002Next u)
    (hover : u.timeDelayReg2.toNat > limit u.mcp3002Reg) (i : McpIn) :
    Converting channel c (u.clk i) := by
  have hclk : follows u.mcp3002Reg (u.clk i).mcp3002Next = true ∧
      (u.clk i).timeDelayNext2 = 0 ∧ (u.clk i).skip = false ∧ (u.clk i).skip2 = false ∧
        (u.clk i).doneFlag = false ∧ (u.clk i).startShift = u.startShift ∧
          (u.clk i).preShift = u.preShift ∧ (u.clk i).results = u.results ∧
            (u.clk i).shift = u.shift ∧
              asking (u.clk i).mcp3002Next = asking u.mcp3002Reg := by
    cases h : u.mcp3002Reg
    case mStart | mPreshift2 | mResults1 => simp_all
    all_goals
      simp only [h, limit] at hover
      simp [clk, mcpCase, h, hover, hskip, hskip2, hdone, follows, asking]
  obtain ⟨hfollows, hzero, hskip', hskip2', hdone', hbits, hpre', hresults', hshift', hasking⟩ :=
    hclk
  have hkept := holds.congr hbits hpre' hresults' hshift'
  rw [hnext] at hkept
  refine .leave hnext hcount hover hfollows hzero ?_ ?_ hdone' ?_
  · simp [hskip', hpre]
  · simp [hskip2', hresults]
  · refine ⟨hkept.startShift, ?_, ?_, hkept.results, hkept.shift, hkept.length⟩
    · rw [hasking]
      exact hkept.preShift
    · rw [hasking]
      exact hkept.request

/-- An edge of a conversion. -/
theorem Converting.clk (h : Converting channel c u) (hmsbf : i.msbf = true) :
    (¬ u.Finishes ∧ Converting channel (c.note u.asks (u.takes i.mcpDin)) (u.clk i)) ∨
      (u.Finishes ∧ (u.clk i).Finished ∧ (u.clk i).rawRegister = c.value ∧
        c.request = requestOf channel ∧ c.samples.length = 11) := by
  cases h with
  | leaving hfollows hover hzero hskip hskip2 hdone holds =>
      obtain ⟨hclk, hasks, htakes, hnot⟩ :=
        clk_leaving hfollows hover hzero hskip hskip2 hdone holds i
      rw [hasks, htakes, Conversion.note_none]
      exact .inl ⟨hnot, hclk⟩
  | counting hreg hnext hcount hskip hskip2 hdone holds =>
      by_cases hle : u.timeDelayReg2.toNat ≤ limit u.mcp3002Reg
      · rw [asks_of_le hle, takes_of_le hle, Conversion.note_none]
        exact .inl ⟨not_finishes_of_le hle,
          clk_of_le hreg hnext hcount hskip hskip2 hdone holds hle i⟩
      · have hover : u.timeDelayReg2.toNat > limit u.mcp3002Reg := Nat.lt_of_not_le hle
        by_cases hfinishes : u.Finishes
        · exact .inr ⟨hfinishes, clk_finishes hnext hcount hskip holds hfinishes i⟩
        refine .inl ⟨hfinishes, ?_⟩
        by_cases hpre : u.mcp3002Reg = .mPreshift2
        · rw [takes_of_ne (by simp [hpre])]
          by_cases hlast : u.preShift.toNat > 3
          · exact clk_asked hpre hnext hcount hskip hskip2 hdone holds hover hlast i
          · exact clk_asks hpre hnext hcount hskip hskip2 hdone holds hover hlast i
        rw [asks_of_ne hpre]
        by_cases hresults : u.mcp3002Reg = .mResults1
        · have hmore : ¬ u.shift.toNat > 10 := by
            intro hlast
            rw [hresults] at hover
            exact hfinishes ⟨hresults, hover, hskip2, hlast⟩
          exact clk_takes hresults hnext hcount hskip hskip2 hdone holds hover hmore hmsbf
        · rw [takes_of_ne hresults, Conversion.note_none]
          exact clk_other hreg hpre hresults hnext hcount hskip hskip2 hdone holds hover i

/-! ## Before and after a conversion -/

theorem idle_reset (startShift : BitVec 3) : (reset startShift).Idle where
  reg := rfl
  next := rfl
  timeReg := rfl
  timeNext := rfl
  skip := rfl
  skip2 := rfl
  first := by
    revert startShift
    decide

theorem not_finishes_of_mStart (h : u.mcp3002Reg = .mStart) : ¬ u.Finishes := by
  rintro ⟨hreg, -⟩
  rw [h] at hreg
  cases hreg

theorem first_assignBits {startShift : BitVec 4} (h : startShift.getLsbD 3 = true)
    (channel : Bool) : assignBits true channel true startShift = startBits channel := by
  have hone : startShift.extractLsb' 3 1 = 1#1 := by
    apply BitVec.eq_of_getLsbD_eq
    intro k hk
    obtain rfl : k = 0 := by omega
    simpa using h
  rw [assignBits, hone]
  rfl

theorem Idle.clk (h : u.Idle) (henable : i.enable = false) :
    (u.clk i).Idle ∧ (u.clk i).doneFlag = false := by
  have hclk : u.clk i = { u with
      mcp3002Reg := u.mcp3002Next
      timeDelayReg2 := u.timeDelayNext2
      doneFlag := false
      results := 0 } := by
    simp [MCP3002.clk, mcpCase, h.reg, henable]
  rw [hclk]
  exact ⟨⟨h.next, h.next, h.timeNext, h.timeNext, h.skip, h.skip2, h.first⟩, rfl⟩

/-- The registers after an edge of `M_start` with `enable`. -/
theorem clk_enable (hreg : u.mcp3002Reg = .mStart) (henable : i.enable = true)
    (hdiff : i.diff = true) (hmsbf : i.msbf = true) (hfirst : u.startShift.getLsbD 3 = true) :
    u.clk i = { u with
      mcp3002Reg := u.mcp3002Next
      timeDelayReg2 := u.timeDelayNext2
      doneFlag := false
      results := 0
      startShift := startBits i.channel
      mcpCS := false
      mcpCLK := false
      shift := 0
      preShift := 0
      rawRegister := 0
      mcp3002Next := .mPreshift1 } := by
  simp [MCP3002.clk, mcpCase, hreg, henable, hdiff, hmsbf, first_assignBits hfirst]

theorem Idle.clk_enable (h : u.Idle) (henable : i.enable = true) (hdiff : i.diff = true)
    (hmsbf : i.msbf = true) : (u.clk i).Starting := by
  rw [MCP3002.clk_enable h.reg henable hdiff hmsbf h.first]
  exact ⟨h.next, rfl, h.timeNext, h.timeNext, h.skip, h.skip2, first_startBits _, rfl, rfl, rfl⟩

theorem Starting.clk (h : u.Starting) (henable : i.enable = true) (hdiff : i.diff = true)
    (hmsbf : i.msbf = true) (pulse : ℕ) : Converting i.channel ⟨pulse, [], []⟩ (u.clk i) := by
  rw [clk_enable h.reg henable hdiff hmsbf h.first]
  refine .counting ?_ h.next.symm ⟨?_, .inl ?_⟩ h.skip h.skip2 rfl
    ⟨rfl, ?_, rfl, rfl, rfl, Nat.zero_le 11⟩
  · change u.mcp3002Next ≠ .mStart
    rw [h.next]
    decide
  · change u.timeDelayNext2.toNat ≤ _
    rw [h.timeNext]
    exact Nat.zero_le _
  · rfl
  · intro _
    exact Nat.zero_le 4

/-- The second edge at which the last bit is taken. -/
theorem Finished.clk (h : u.Finished) (i : McpIn) :
    (u.clk i).Idle ∧ (u.clk i).doneFlag = true ∧ (u.clk i).rawRegister = u.rawRegister ∧
      ¬ u.Finishes := by
  have hclk : u.clk i = { u with
      mcp3002Reg := u.mcp3002Next
      timeDelayReg2 := u.timeDelayNext2
      timeDelayNext2 := 0
      skip2 := false } := by
    simp [MCP3002.clk, mcpCase, h.reg, h.timeReg, h.skip2]
  rw [hclk]
  refine ⟨⟨h.next, h.next, h.timeNext, rfl, h.skip, rfl, h.first⟩, h.doneFlag, rfl, ?_⟩
  rintro ⟨-, -, hskip2, -⟩
  rw [h.skip2] at hskip2
  cases hskip2

end MCP3002

end TruckControl
