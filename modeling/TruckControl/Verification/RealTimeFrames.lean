import TruckControl.Library.Reports
import TruckControl.Verification.PortHandshake

/-!
# The real-time frames of the FPGA

A frame is a start byte and eighteen others, and `0xFE` starts a frame wherever it stands.
-/

namespace TruckControl

/-! ## What is presented -/

namespace PportUnit

variable {s : PportUnit}

/-- Every nineteenth byte is a start byte. -/
structure Indexed (s : PportUnit) : Prop where
  upload : s.upload 0 = 0xFE
  lt : s.sPort.toNat < 19
  sPort : (if s.phase = .raised then (s.sPort.toNat + 1) % 19 else s.sPort.toNat) =
    s.presented.length % 19
  starts : ∀ m, m % 19 = 0 → ∀ b ∈ s.presented[m]?, b = 0xFE

theorem indexed_reset : reset.Indexed :=
  ⟨rfl, by decide, by decide, fun m _ b hb => by cases hb⟩

theorem Indexed.clk (h : s.Indexed) (hs : s.Valid) (i : PportIn) (ppAck : Bool) :
    (s.clk i ppAck).Indexed := by
  have hupload : (s.clk i ppAck).upload 0 = 0xFE := by
    rcases s.upload_clk i ppAck with hu | ⟨-, hu⟩ <;> rw [hu] <;> exact h.upload
  have hsPort := hs.sPort_clk i ppAck
  have hindex := h.sPort
  have hlt := h.lt
  -- outside of the rise and the byte after it, nothing moves
  have hkeep (hs : s.phase ≠ .raised) (ht : (s.clk i ppAck).phase ≠ .raised)
      (hpresented : (s.clk i ppAck).presented = s.presented) : (s.clk i ppAck).Indexed := by
    rw [if_neg hs] at hsPort hindex
    refine ⟨hupload, by rw [hsPort]; exact hlt, ?_, by rw [hpresented]; exact h.starts⟩
    rw [if_neg ht, hsPort, hpresented, hindex]
  cases hs.clkStep i ppAck with
  | stay hphase hne hack hbelow hCS hskip hdata hpresented =>
      exact hkeep hne.1 (hphase ▸ hne.1) hpresented
  | latch hp ht hCS hskip hdata hpresented | wait hp ht hCS hskip hdata hpresented
  | answer hp hack ht hCS hskip hpresented | next hp ht hCS hskip hpresented
  | fall hp hover ht hCS hskip hdata hpresented =>
      exact hkeep (by rw [hp]; decide) (by rw [ht]; decide) hpresented
  | rise hp ht hCS hskip hdata hpresented =>
      have hraised : s.phase ≠ .raised := by rw [hp]; decide
      rw [if_neg hraised] at hsPort hindex
      refine ⟨hupload, by rw [hsPort]; exact hlt, ?_, ?_⟩
      · rw [if_pos ht, hsPort, hpresented, List.length_append, hindex]
        simp
      · intro m hm b hb
        rw [hpresented] at hb
        rcases Nat.lt_trichotomy m s.presented.length with hlt | heq | hgt
        · rw [List.getElem?_append_left hlt] at hb
          exact h.starts m hm b hb
        · have hzero : s.sPort.toNat = 0 := by rw [hindex, ← heq, hm]
          rw [heq, List.getElem?_concat_length, Option.mem_some_iff, hs.data hp, hzero] at hb
          exact hb ▸ h.upload
        · rw [List.getElem?_eq_none (by simp; omega)] at hb
          cases hb
  | go hp ht hCS hskip hdata hpresented =>
      rw [if_pos hp] at hsPort hindex
      have hnext : (s.clk i ppAck).sPort.toNat = (s.sPort.toNat + 1) % 19 := by
        rw [hsPort]
        split_ifs with hlast
        · have hlast : 17 < s.sPort.toNat := hlast
          have heq : s.sPort.toNat = 18 := by omega
          rw [heq]
          rfl
        · have hlast : ¬ 17 < s.sPort.toNat := hlast
          rw [BitVec.toNat_add]
          simp
          omega
      have hother : (s.clk i ppAck).phase ≠ .raised := by rw [ht]; decide
      refine ⟨hupload, by omega, ?_, by rw [hpresented]; exact h.starts⟩
      rw [if_neg hother, hnext, hpresented, hindex]

/-- The process from its reset on, with the acknowledge at each clock edge. -/
def clks (es : List (PportIn × Bool)) : PportUnit :=
  Transition.exec (fun s e => s.clk e.1 e.2) reset es

theorem indexed_clks (es : List (PportIn × Bool)) : (clks es).Indexed := by
  have hboth : (clks es).Valid ∧ (clks es).Indexed :=
    Transition.inv_exec (I := fun s : PportUnit => s.Valid ∧ s.Indexed)
      (fun _ e h => ⟨h.1.clk e.1 e.2, h.2.clk h.1 e.1 e.2⟩) es ⟨valid_reset, indexed_reset⟩
  exact hboth.2

end PportUnit

/-! ## What is made of it -/

/-- A byte as it is processed, and the flags at that time. -/
structure Arrival where
  xbyte : UCHAR
  engineOn : ℕ
  sendAdc : ℕ

namespace RecvFPGA

variable {s : RecvFPGA} {ts : ℕ → Arrival}

def takes (s : RecvFPGA) (a : Arrival) : RecvFPGA := s.store a.xbyte

def takeSends (s : RecvFPGA) (a : Arrival) : List (List UCHAR) :=
  s.sends a.engineOn a.sendAdc a.xbyte

/-- The task after the first bytes. -/
def received (s : RecvFPGA) (ts : ℕ → Arrival) (n : ℕ) : RecvFPGA :=
  Transition.exec takes s ((List.range n).map ts)

/-- The messages of the first bytes. -/
def sent (s : RecvFPGA) (ts : ℕ → Arrival) (n : ℕ) : List (List UCHAR) :=
  Transition.reports takes takeSends s ((List.range n).map ts)

theorem received_succ (s : RecvFPGA) (ts : ℕ → Arrival) (n : ℕ) :
    s.received ts (n + 1) = (s.received ts n).takes (ts n) := by
  rw [received, received, List.range_succ, List.map_append, Transition.exec_append]
  rfl

theorem sent_succ (s : RecvFPGA) (ts : ℕ → Arrival) (n : ℕ) :
    s.sent ts (n + 1) = s.sent ts n ++ (s.received ts n).takeSends (ts n) := by
  rw [sent, sent, received, List.range_succ, List.map_append, Transition.reports_append]
  simp [Transition.reports]

/-- The payload of a frame that is `m` bytes behind its first payload byte. -/
def payload (ts : ℕ → Arrival) (m i : ℕ) : UCHAR := (ts (m - 18 + i)).xbyte

/-- The messages of the frames that are complete, each at the start byte that follows. -/
def frameMessages (ucbuff : ℕ → UCHAR) (ts : ℕ → Arrival) (n : ℕ) : List (List UCHAR) :=
  (List.range n).flatMap fun m =>
    if m % 19 = 18 then rtValues (ts m).engineOn (ts m).sendAdc ucbuff (payload ts m) else []

/-- At each start byte the buffer holds the frame, and the messages are those of the frames,
once each. -/
structure FramesArrive (s : RecvFPGA) (ts : ℕ → Arrival) (n : ℕ) : Prop where
  buff : ∀ m < n, m % 19 = 18 → ∀ i < 18, (s.received ts m).buff i = payload ts m i
  messages : s.sent ts n = frameMessages s.ucbuff ts n

/-- Only start bytes look like start bytes. -/
def Unambiguous (ts : ℕ → Arrival) (n : ℕ) : Prop :=
  ∀ m < n, m % 19 ≠ 18 → (ts m).xbyte ≠ 0xFE

theorem frameMessages_succ (ucbuff : ℕ → UCHAR) (ts : ℕ → Arrival) (n : ℕ) :
    frameMessages ucbuff ts (n + 1) = frameMessages ucbuff ts n ++
      if n % 19 = 18 then rtValues (ts n).engineOn (ts n).sendAdc ucbuff (payload ts n)
      else [] := by
  rw [frameMessages, List.range_succ, List.flatMap_append, List.flatMap_singleton]
  rfl

theorem rtValues_congr {buff buff' : ℕ → UCHAR} (h : ∀ i < 18, buff i = buff' i)
    (engineOn sendAdc : ℕ) (ucbuff : ℕ → UCHAR) :
    rtValues engineOn sendAdc ucbuff buff = rtValues engineOn sendAdc ucbuff buff' := by
  have hmessage (cmd : CmdType) (i : ℕ) (hi : i < 15) :
      message cmd ucbuff buff i = message cmd ucbuff buff' i := by
    rw [message, message, h i (by omega), h (i + 1) (by omega), h (i + 2) (by omega),
      h (i + 3) (by omega)]
  rw [rtValues, rtValues, hmessage _ 0 (by decide), hmessage _ 4 (by decide),
    hmessage _ 8 (by decide), hmessage _ 12 (by decide)]

theorem ucbuff_received (s : RecvFPGA) (ts : ℕ → Arrival) (n : ℕ) :
    (s.received ts n).ucbuff = s.ucbuff := by
  induction n with
  | zero => rfl
  | succ n ih =>
      rw [received_succ, takes, store]
      split_ifs <;> exact ih

/-- Between two start bytes the buffer fills up. -/
theorem filled (hs : s.framePtr = 0) {n : ℕ}
    (hstart : ∀ m < n, m % 19 = 18 → (ts m).xbyte = 0xFE) (h : Unambiguous ts n) :
    (s.received ts n).framePtr = n % 19 ∧
      ∀ i < n % 19, (s.received ts n).buff i = (ts (n - n % 19 + i)).xbyte := by
  induction n with
  | zero => exact ⟨hs, fun i hi => by simp at hi⟩
  | succ n ih =>
      obtain ⟨hptr, hbuff⟩ := ih (fun m hm => hstart m (by omega)) fun m hm => h m (by omega)
      rw [received_succ, takes, store]
      by_cases hlast : n % 19 = 18
      · have hnext : (n + 1) % 19 = 0 := by omega
        rw [if_pos (hstart n (by omega) hlast), hnext]
        exact ⟨rfl, fun i hi => absurd hi (Nat.not_lt_zero i)⟩
      · have hnext : (n + 1) % 19 = n % 19 + 1 := by omega
        rw [if_neg (h n (by omega) hlast), hnext]
        refine ⟨by rw [hptr], fun i hi => ?_⟩
        change Function.update _ _ _ i = _
        rw [hptr]
        by_cases hi' : i = n % 19
        · rw [hi', Function.update_self]
          congr 2
          omega
        · rw [Function.update_of_ne hi', hbuff i (by omega)]
          congr 2
          omega

theorem framesArrive_of_unambiguous (hs : s.framePtr = 0) {n : ℕ}
    (hstart : ∀ m < n, m % 19 = 18 → (ts m).xbyte = 0xFE) (h : Unambiguous ts n) :
    s.FramesArrive ts n := by
  have hbuff : ∀ m < n, m % 19 = 18 → ∀ i < 18, (s.received ts m).buff i = payload ts m i := by
    intro m hm hlast i hi
    obtain ⟨-, hfill⟩ := filled hs (fun k hk => hstart k (by omega)) (n := m)
      fun k hk => h k (by omega)
    rw [hlast] at hfill
    exact hfill i hi
  refine ⟨hbuff, ?_⟩
  induction n with
  | zero => rfl
  | succ n ih =>
      rw [sent_succ, frameMessages_succ, ih (fun m hm => hstart m (by omega))
        (fun m hm => h m (by omega)) fun m hm => hbuff m (by omega), takeSends, sends,
        ucbuff_received]
      by_cases hlast : n % 19 = 18
      · rw [if_pos (hstart n (by omega) hlast), if_pos hlast,
          rtValues_congr (hbuff n (by omega) hlast)]
      · rw [if_neg (h n (by omega) hlast), if_neg hlast]

/-! ### Every message counts -/

/-- Each set of messages has one of these. -/
def isStatus (msg : List UCHAR) : Bool := msg.head? = some CmdType.sendRtFpgaStatus.toByte

theorem countP_rtValues (engineOn sendAdc : ℕ) (ucbuff buff : ℕ → UCHAR) :
    (rtValues engineOn sendAdc ucbuff buff).countP isStatus = 1 := by
  have hne : CmdType.sendRtValues1.toByte ≠ CmdType.sendRtFpgaStatus.toByte ∧
      CmdType.sendRtValues2.toByte ≠ CmdType.sendRtFpgaStatus.toByte ∧
      CmdType.sendRtValues3.toByte ≠ CmdType.sendRtFpgaStatus.toByte := by decide
  rw [rtValues]
  split_ifs <;> simp [message, isStatus, hne]

theorem countP_frameMessages (ucbuff : ℕ → UCHAR) (ts : ℕ → Arrival) (n : ℕ) :
    (frameMessages ucbuff ts n).countP isStatus =
      ((List.range n).filter fun m => m % 19 = 18).length := by
  induction n with
  | zero => rfl
  | succ n ih =>
      rw [frameMessages_succ, List.countP_append, ih, List.range_succ, List.filter_append,
        List.length_append]
      by_cases hlast : n % 19 = 18 <;> simp [hlast, countP_rtValues]

theorem countP_sent (s : RecvFPGA) (ts : ℕ → Arrival) (n : ℕ) :
    (s.sent ts n).countP isStatus =
      ((List.range n).filter fun m => (ts m).xbyte = 0xFE).length := by
  induction n with
  | zero => rfl
  | succ n ih =>
      rw [sent_succ, List.countP_append, ih, List.range_succ, List.filter_append,
        List.length_append, takeSends, sends]
      by_cases hbyte : (ts n).xbyte = 0xFE
      · simp [hbyte, countP_rtValues]
      · have hnone : [n].filter (fun m => (ts m).xbyte = 0xFE) = [] :=
          List.filter_cons_of_neg (by simpa only [decide_eq_true_eq] using hbyte)
        rw [if_neg hbyte, hnone]
        rfl

theorem unambiguous_of_framesArrive {n : ℕ}
    (hstart : ∀ m < n, m % 19 = 18 → (ts m).xbyte = 0xFE) (h : s.FramesArrive ts n) :
    Unambiguous ts n := by
  have hcount := countP_sent s ts n
  rw [h.messages, countP_frameMessages] at hcount
  have hsub : ((List.range n).filter fun m => m % 19 = 18).Sublist
      ((List.range n).filter fun m => (ts m).xbyte = 0xFE) := by
    have hboth : ((List.range n).filter fun m => m % 19 = 18) =
        ((List.range n).filter fun m => (ts m).xbyte = 0xFE).filter fun m => m % 19 = 18 := by
      rw [List.filter_filter]
      refine List.filter_congr fun m hm => ?_
      by_cases hlast : m % 19 = 18
      · simp [hlast, hstart m (List.mem_range.mp hm) hlast]
      · simp [hlast]
    rw [hboth]
    exact List.filter_sublist
  have heq := hsub.eq_of_length hcount
  intro m hm hother hbyte
  have hmem : m ∈ (List.range n).filter fun m => (ts m).xbyte = 0xFE := by simp [hm, hbyte]
  rw [← heq] at hmem
  simp [hother] at hmem

end RecvFPGA

/-! ## The frames of a run -/

/-- The bytes behind the `k`-th start byte, with the flags as they are when each of them is
processed. -/
def behind (bs : List UCHAR) (k : ℕ) (engineOn sendAdc : ℕ → ℕ) (m : ℕ) : Arrival :=
  ⟨bs.getD (19 * k + 1 + m) 0, engineOn m, sendAdc m⟩

/-- The last byte of each nineteen is the next start byte. -/
theorem xbyte_behind (es : List (PportIn × Bool)) (k : ℕ) (engineOn sendAdc : ℕ → ℕ) {m : ℕ}
    (hm : m < (PportUnit.clks es).presented.length - (19 * k + 1)) (hlast : m % 19 = 18) :
    (behind (PportUnit.clks es).presented k engineOn sendAdc m).xbyte = 0xFE := by
  have hindexed := PportUnit.indexed_clks es
  have hlt : 19 * k + 1 + m < (PportUnit.clks es).presented.length := by omega
  change (PportUnit.clks es).presented.getD (19 * k + 1 + m) 0 = 0xFE
  rw [List.getD_eq_getElem?_getD, List.getElem?_eq_getElem hlt]
  exact hindexed.starts (19 * k + 1 + m) (by omega) _ (List.getElem?_eq_getElem hlt)

/-- From any start byte on, the STM32 has every complete frame in its buffer and sends its
messages once, exactly if no other byte is `0xFE`. -/
theorem rt_frames_iff (es : List (PportIn × Bool)) (k : ℕ) (s : RecvFPGA)
    (engineOn sendAdc : ℕ → ℕ) :
    let bs := (PportUnit.clks es).presented
    let ts := behind bs k engineOn sendAdc
    (s.store 0xFE).FramesArrive ts (bs.length - (19 * k + 1)) ↔
      RecvFPGA.Unambiguous ts (bs.length - (19 * k + 1)) := by
  intro bs ts
  have hstart : ∀ m < bs.length - (19 * k + 1), m % 19 = 18 → (ts m).xbyte = 0xFE :=
    fun m hm hlast => xbyte_behind es k engineOn sendAdc hm hlast
  have hptr : (s.store 0xFE).framePtr = 0 := by simp [RecvFPGA.store]
  exact ⟨RecvFPGA.unambiguous_of_framesArrive hstart,
    RecvFPGA.framesArrive_of_unambiguous hptr hstart⟩

/-! ## A byte that looks like a start byte -/

namespace PportUnit

/-- The process before a byte. -/
def readyAt (sPort : BitVec 8) (upload : ℕ → UCHAR) (ppData : UCHAR) (presented : List UCHAR) :
    PportUnit where
  pportReg := .ppIdle
  pportNext := .ppIdle
  timeDelayReg := 0
  timeDelayNext := 0
  sPort := sPort
  skip := false
  upload := upload
  ppCS := false
  ppData := ppData
  presented := presented

def strobeAt (sPort : BitVec 8) (upload : ℕ → UCHAR) (ppData : UCHAR) (presented : List UCHAR) :
    PportUnit :=
  { readyAt sPort upload ppData presented with
    pportReg := .ppStart2, pportNext := .ppStart2, ppCS := true }

def answeredAt (sPort : BitVec 8) (upload : ℕ → UCHAR) (ppData : UCHAR) (presented : List UCHAR) :
    PportUnit :=
  { readyAt sPort upload ppData presented with pportReg := .ppDone2, pportNext := .ppDone2 }

theorem clk_done2 {s : PportUnit} (i : PportIn) (ppAck : Bool) (hreg : s.pportReg = .ppDone2)
    (hnext : s.pportNext = .ppDone2) :
    (PportUnit.clk i ppAck)^[2 * (i.sendDelay.toNat + 1)] (s.timedAt 0) =
      s.timedAt (i.sendDelay.toNat + 1) := by
  apply clk_wait (hnext.trans hreg.symm)
  intro k hk t ht hcount
  have hbelow : ¬ t.timeDelayReg > i.sendDelay := by
    rw [hcount, gt_iff_lt, BitVec.lt_def, BitVec.toNat_ofNat]
    have hmod := Nat.mod_le k (2 ^ 26)
    omega
  simp only [pportCase, ht.trans hreg, if_neg hbelow]

/-- The clock edges of a byte that is acknowledged at once. -/
def byteClks (i : PportIn) : ℕ :=
  2 + (2 * (i.sendDelay.toNat + 1) + (4 + (2 * (timeDelay8c + 1) + 4)))

theorem clk_byte (i : PportIn) (hdelay : i.sendDelay = 0x7FFFF) (sPort : BitVec 8)
    (upload : ℕ → UCHAR) (ppData : UCHAR) (presented : List UCHAR) :
    (PportUnit.clk i true)^[byteClks i] (readyAt sPort upload ppData presented) =
      readyAt (if sPort > 17 then 0 else sPort + 1) (sample i (sample i upload))
        (upload sPort.toNat) (presented ++ [upload sPort.toNat]) := by
  have hrise : (PportUnit.clk i true)^[4] (readyAt sPort upload ppData presented) =
      strobeAt (if sPort > 17 then 0 else sPort + 1) upload (upload sPort.toNat)
        (presented ++ [upload sPort.toNat]) := rfl
  rw [byteClks, Function.iterate_add_apply, Function.iterate_add_apply,
    Function.iterate_add_apply, Function.iterate_add_apply, hrise]
  generalize (if sPort > 17 then 0 else sPort + 1) = next
  generalize upload sPort.toNat = byte
  generalize presented ++ [byte] = bytes
  have hstrobe := clk_strobe (s := strobeAt next upload byte bytes) i true rfl rfl
  have hfall : (PportUnit.clk i true)^[4]
      ((strobeAt next upload byte bytes).timedAt (timeDelay8c + 1)) =
        answeredAt next upload byte bytes := rfl
  have hdone := clk_done2 (s := answeredAt next upload byte bytes) i true rfl rfl
  have hzero : (strobeAt next upload byte bytes).timedAt 0 = strobeAt next upload byte bytes := rfl
  have hzero' : (answeredAt next upload byte bytes).timedAt 0 =
      answeredAt next upload byte bytes := rfl
  rw [hzero] at hstrobe
  rw [hzero'] at hdone
  have hready : (PportUnit.clk i true)^[2]
      ((answeredAt next upload byte bytes).timedAt (i.sendDelay.toNat + 1)) =
        readyAt next (sample i (sample i upload)) byte bytes := by
    simp [Function.iterate_succ, PportUnit.clk, pportCase, timedAt, answeredAt, readyAt, hdelay]
  rw [hstrobe, hfall, hdone, hready]

/-- One byte after the other. -/
def bytesReady (i : PportIn) : ℕ → PportUnit
  | 0 => readyAt 0 uploadReset 0 []
  | n + 1 =>
      let s := bytesReady i n
      readyAt (if s.sPort > 17 then 0 else s.sPort + 1) (sample i (sample i s.upload))
        (s.upload s.sPort.toNat) (s.presented ++ [s.upload s.sPort.toNat])

/-- The clock edges up to the end of the `n`-th byte. -/
def runClks (i : PportIn) (n : ℕ) : ℕ := byteClks i * n + (2 + 2 * (timeDelay7 + 1))

theorem clk_bytes (i : PportIn) (hdelay : i.sendDelay = 0x7FFFF) (n : ℕ) :
    (PportUnit.clk i true)^[runClks i n] reset = bytesReady i n := by
  induction n with
  | zero =>
      have hpreidle := clk_preidle (s := reset) i true rfl rfl
      have hzero : reset.timedAt 0 = reset := rfl
      have hready : (PportUnit.clk i true)^[2] (reset.timedAt (timeDelay7 + 1)) =
          readyAt 0 uploadReset 0 [] := rfl
      rw [hzero] at hpreidle
      rw [runClks, Nat.mul_zero, Nat.zero_add, Function.iterate_add_apply, hpreidle, hready,
        bytesReady]
  | succ n ih =>
      have hclks : runClks i (n + 1) = byteClks i + runClks i n := by
        rw [runClks, runClks, Nat.mul_succ]
        omega
      have hready : ∃ ppData, bytesReady i n =
          readyAt (bytesReady i n).sPort (bytesReady i n).upload ppData
            (bytesReady i n).presented := by
        cases n with
        | zero => exact ⟨0, rfl⟩
        | succ n => exact ⟨_, rfl⟩
      obtain ⟨ppData, hready⟩ := hready
      rw [hclks, Function.iterate_add_apply, ih, hready, clk_byte i hdelay]
      rfl

theorem exec_replicate (s : PportUnit) (i : PportIn) (n : ℕ) :
    Transition.exec (fun s e => s.clk e.1 e.2) s (List.replicate n (i, true)) =
      (PportUnit.clk i true)^[n] s :=
  Transition.exec_replicate s n (i, true)

theorem clks_replicate (i : PportIn) (n : ℕ) :
    clks (List.replicate n (i, true)) = (PportUnit.clk i true)^[n] reset :=
  exec_replicate reset i n

end PportUnit

/-- The engine turns at 254 revolutions. -/
def rpm254 : PportIn where
  rpmResult := 0x00FE
  mphResult := 0
  mcpResults := fun _ => 0
  stlvStatus1 := 0
  stlvStatus2 := 0
  stlvStatus3 := 0
  stlvStatus4 := 0
  sendDelay := 0x7FFFF

/-- A whole frame and the start byte of the next one. -/
def rpmFrame : List (PportIn × Bool) := List.replicate (PportUnit.runClks rpm254 20) (rpm254, true)

theorem presented_rpmFrame :
    (PportUnit.clks rpmFrame).presented = [0xFE, 0xFE] ++ List.replicate 17 0 ++ [0xFE] := by
  rw [rpmFrame, PportUnit.clks_replicate, PportUnit.clk_bytes rpm254 rfl]
  decide +kernel

/-- The low byte of the revolutions is taken for a start byte: the messages of the frame are
sent twice. -/
theorem not_framesArrive_rpmFrame :
    ¬ ((RecvFPGA.start (fun _ => 0) fun _ => 0).store 0xFE).FramesArrive
      (behind (PportUnit.clks rpmFrame).presented 0 (fun _ => 1) (fun _ => 1)) 19 := by
  intro h
  have hlength := congrArg List.length h.messages
  rw [presented_rpmFrame] at hlength
  revert hlength
  decide +kernel

end TruckControl
