import TruckControl.Library.Byte
import TruckControl.Verification.PortHandshake

/-!
# The bytes that cross the parallel port

`xbyte` is not clear when the first byte is read into it, so no run takes what was
presented. Apart from that, nothing is lost as long as every strobe is seen.
-/

namespace TruckControl

/-! ## The first byte -/

namespace PportUnit

variable {s : PportUnit}

/-- The first byte that is presented is the start of a frame. -/
structure StartsFrame (s : PportUnit) : Prop where
  upload : s.upload 0 = 0xFE
  before : s.presented = [] → s.sPort = 0 ∧ (s.phase = .quiet ∨ s.phase = .latched)
  head : ∀ b ∈ s.presented.head?, b = 0xFE

theorem startsFrame_reset : reset.StartsFrame :=
  ⟨rfl, fun _ => ⟨rfl, .inl rfl⟩, fun b hb => by cases hb⟩

theorem StartsFrame.clk (h : s.StartsFrame) (hs : s.Valid) (i : PportIn) (ppAck : Bool) :
    (s.clk i ppAck).StartsFrame := by
  have hupload : (s.clk i ppAck).upload 0 = 0xFE := by
    rcases s.upload_clk i ppAck with hu | ⟨-, hu⟩ <;> rw [hu]
    · exact h.upload
    · exact h.upload
  have hsPort := hs.sPort_clk i ppAck
  -- a byte that was presented stays the first one
  have hkeep (hpresented : (s.clk i ppAck).presented = s.presented)
      (hphase : s.presented = [] → (s.clk i ppAck).phase = .quiet ∨
        (s.clk i ppAck).phase = .latched) : (s.clk i ppAck).StartsFrame := by
    refine ⟨hupload, ?_, hpresented ▸ h.head⟩
    intro hnone
    rw [hpresented] at hnone
    obtain ⟨hzero, hquiet⟩ := h.before hnone
    rw [if_neg (by rcases hquiet with hq | hq <;> simp [hq]), hzero] at hsPort
    exact ⟨hsPort, hphase hnone⟩
  cases hs.clkStep i ppAck with
  | stay hphase hne hack hbelow hCS hskip hdata hpresented =>
      exact hkeep hpresented fun hnone => by rw [hphase]; exact (h.before hnone).2
  | latch hphase ht hCS hskip hdata hpresented => exact hkeep hpresented fun _ => .inr ht
  | next hphase ht hCS hskip hpresented => exact hkeep hpresented fun _ => .inl ht
  | rise hphase ht hCS hskip hdata hpresented =>
      refine ⟨hupload, fun hnone => ?_, ?_⟩
      · rw [hpresented] at hnone
        exact absurd hnone (by simp)
      · intro b hb
        rw [hpresented] at hb
        cases hfirst : s.presented with
        | nil =>
            rw [hfirst, List.nil_append, List.head?_cons, Option.mem_some_iff] at hb
            obtain ⟨hzero, -⟩ := h.before hfirst
            rw [← hb, hs.data hphase, hzero]
            exact h.upload
        | cons c rest =>
            rw [hfirst, List.cons_append, List.head?_cons] at hb
            exact h.head b (by rw [hfirst]; exact hb)
  | go hphase ht hCS hskip hdata hpresented | wait hphase ht hCS hskip hdata hpresented
  | answer hphase hack ht hCS hskip hpresented | fall hphase hover ht hCS hskip hdata hpresented =>
      refine hkeep hpresented fun hnone => ?_
      rcases (h.before hnone).2 with hquiet | hquiet <;> rw [hphase] at hquiet <;> cases hquiet

end PportUnit

namespace RecvFPGA

variable {s : RecvFPGA}

/-- Reading a pin adds its bit. -/
theorem getLsbD_readPin (xbyte ppData : UCHAR) (k i : ℕ) :
    (if ppData.getLsbD k then xbyte ||| 1#8 <<< k else xbyte).getLsbD i =
      (xbyte.getLsbD i || (ppData.getLsbD i && decide (i = k))) := by
  split_ifs with hpin
  · have hk : k < 8 := BitVec.lt_of_getLsbD hpin
    rw [BitVec.getLsbD_or, Byte.getLsbD_mask hk]
    by_cases hik : i = k
    · rw [hik, hpin]
      simp
    · simp [hik]
  · by_cases hik : i = k
    · simp [hik, hpin]
    · simp [hik]

/-- The first byte that is assembled is odd. -/
structure StartsOdd (s : RecvFPGA) : Prop where
  before : s.assembled = [] → s.point ≠ .acked ∧ s.xbyte.getLsbD 0 = true
  head : ∀ b ∈ s.assembled.head?, b.getLsbD 0 = true

theorem startsOdd_start (buff ucbuff : ℕ → UCHAR) : (start buff ucbuff).StartsOdd := by
  refine ⟨fun _ => ⟨?_, ?_⟩, fun b hb => by cases hb⟩
  · change RecvPoint.starting ≠ .acked
    decide
  · change (0x21#8).getLsbD 0 = true
    decide

theorem StartsOdd.step (h : s.StartsOdd) (serverUp : ℕ) (ppCS : Bool) (ppData : UCHAR) :
    (s.step serverUp ppCS ppData).StartsOdd := by
  -- until the first byte is processed, `xbyte` keeps the bit
  have hkeep {t : RecvFPGA} (hassembled : t.assembled = s.assembled) (hpoint : t.point ≠ .acked)
      (hxbyte : s.assembled = [] → t.xbyte.getLsbD 0 = true) : t.StartsOdd :=
    ⟨fun hnone => ⟨hpoint, hxbyte (hassembled ▸ hnone)⟩, hassembled ▸ h.head⟩
  cases hpoint : s.point <;> simp only [RecvFPGA.step, hpoint]
  case starting | started => exact hkeep rfl (by simp) fun hnone => (h.before hnone).2
  case loop | waitSet =>
    split_ifs
    · exact hkeep rfl (by simp) fun hnone => (h.before hnone).2
    · exact h
  case readPin k =>
    refine hkeep rfl ?_ fun hnone => ?_
    · split_ifs <;> simp
    · have hodd := (h.before hnone).2
      rw [getLsbD_readPin, hodd, Bool.true_or]
  case waitReset =>
    split_ifs
    · exact h
    · exact hkeep rfl (by simp) fun hnone => (h.before hnone).2
  case process =>
    refine ⟨fun hnone => absurd hnone (by simp), ?_⟩
    intro b hb
    cases hfirst : s.assembled with
    | nil =>
        rw [hfirst, List.nil_append, List.head?_cons, Option.mem_some_iff] at hb
        rw [← hb]
        exact (h.before hfirst).2
    | cons c rest =>
        rw [hfirst, List.cons_append, List.head?_cons] at hb
        exact h.head b (by rw [hfirst]; exact hb)
  case acked =>
    exact hkeep rfl (by simp) fun hnone => absurd hpoint (h.before hnone).1

end RecvFPGA

/-! ## The other bytes -/

/-- What `xbyte` is when the next byte is read into it. -/
def base (assembled : List UCHAR) : UCHAR := if assembled = [] then 0x21 else 0

/-- The bytes with the two bits that are set in the first of them. -/
def taken : List UCHAR → List UCHAR
  | [] => []
  | b :: bs => (0x21 ||| b) :: bs

theorem length_taken (bs : List UCHAR) : (taken bs).length = bs.length := by
  cases bs <;> rfl

theorem taken_concat (bs : List UCHAR) (b : UCHAR) :
    taken (bs ++ [b]) = taken bs ++ [base (taken bs) ||| b] := by
  cases bs with
  | nil => rfl
  | cons c bs => simp [taken, base]

namespace RecvFPGA

/-- `xbyte` while a byte is on the pins. -/
def Reads (data : UCHAR) (s : RecvFPGA) : Prop :=
  match s.point with
  | .starting | .started | .loop | .waitSet => s.xbyte = base s.assembled
  | .readPin k => k < 8 ∧
      ∀ i, s.xbyte.getLsbD i = ((base s.assembled).getLsbD i || (data.getLsbD i && decide (i < k)))
  | .waitReset | .process => s.xbyte = base s.assembled ||| data
  | .acked => s.assembled ≠ []

/-- The strobe has been seen, and the byte is being read. -/
def seen : RecvPoint → Bool
  | .readPin _ | .waitReset => true
  | _ => false

/-- A byte is being read or has been read. -/
def taking : RecvPoint → Bool
  | .readPin _ | .waitReset | .process => true
  | _ => false

theorem taking_of_seen {p : RecvPoint} (h : seen p = true) : taking p = true := by
  cases p <;> simp_all [seen, taking]

/-- The wait for a strobe goes on while there is none, and the other points follow by
themselves. -/
theorem step_of_not_waiting {s : RecvFPGA} (h : taking s.point = false) (hwait : s.point ≠ .waitSet)
    (serverUp : ℕ) (ppCS : Bool) (ppData : UCHAR) :
    taking (s.step serverUp ppCS ppData).point = false ∧
      (s.step serverUp ppCS ppData).assembled = s.assembled := by
  cases hpoint : s.point <;> simp only [RecvFPGA.step, hpoint]
  case starting | started | acked => exact ⟨rfl, trivial⟩
  case loop =>
    split_ifs
    · exact ⟨rfl, rfl⟩
    · exact ⟨h, rfl⟩
  case waitSet => exact absurd hpoint hwait
  case readPin k | waitReset | process =>
    rw [hpoint] at h
    cases h

theorem step_of_not_taking {s : RecvFPGA} (h : taking s.point = false) (serverUp : ℕ)
    (ppData : UCHAR) {ppCS : Bool} (hCS : ppCS = false) :
    taking (s.step serverUp ppCS ppData).point = false ∧
      (s.step serverUp ppCS ppData).assembled = s.assembled := by
  by_cases hwait : s.point = .waitSet
  · have hstep : s.step serverUp ppCS ppData = s := by simp [RecvFPGA.step, hwait, hCS]
    rw [hstep]
    exact ⟨h, rfl⟩
  · exact step_of_not_waiting h hwait serverUp ppCS ppData

theorem step_of_seen {s : RecvFPGA} (h : seen s.point = true) (serverUp : ℕ) (ppCS : Bool)
    (ppData : UCHAR) :
    taking (s.step serverUp ppCS ppData).point = true ∧
      (ppCS = true → seen (s.step serverUp ppCS ppData).point = true) ∧
      (s.step serverUp ppCS ppData).assembled = s.assembled := by
  cases hpoint : s.point <;> simp only [RecvFPGA.step, hpoint]
  case readPin k => split_ifs <;> exact ⟨rfl, fun _ => rfl, trivial⟩
  case waitReset =>
    cases ppCS with
    | true => exact ⟨by simp [hpoint, taking], fun _ => by simp [hpoint, seen], rfl⟩
    | false => exact ⟨rfl, fun hup => absurd hup Bool.false_ne_true, rfl⟩
  all_goals
    rw [hpoint] at h
    cases h

theorem reads_start (buff ucbuff : ℕ → UCHAR) (data : UCHAR) : (start buff ucbuff).Reads data := rfl

/-- The byte on the pins does not matter before it is read. -/
theorem Reads.congr {data : UCHAR} {s : RecvFPGA} (h : s.Reads data)
    (htaking : taking s.point = false) (data' : UCHAR) : s.Reads data' := by
  rw [Reads] at h ⊢
  cases hpoint : s.point <;> rw [hpoint] at h htaking
  case readPin k | waitReset | process => cases htaking
  all_goals exact h

theorem Reads.step {data : UCHAR} {s : RecvFPGA} (h : s.Reads data) (serverUp : ℕ) (ppCS : Bool) :
    (s.step serverUp ppCS data).Reads data := by
  cases hpoint : s.point <;> simp only [Reads, hpoint] at h <;>
    simp only [RecvFPGA.step, hpoint]
  case starting | started => exact h
  case loop =>
    split_ifs
    · exact h
    · simpa only [Reads, hpoint] using h
  case waitSet =>
    split_ifs
    · refine ⟨by decide, fun i => ?_⟩
      change s.xbyte.getLsbD i = _
      simp [h]
    · simpa only [Reads, hpoint] using h
  case readPin k =>
    obtain ⟨hk, hbits⟩ := h
    have hread (i : ℕ) : (if data.getLsbD k then s.xbyte ||| 1#8 <<< k else s.xbyte).getLsbD i =
        ((base s.assembled).getLsbD i || (data.getLsbD i && decide (i < k + 1))) := by
      rw [getLsbD_readPin, hbits, Bool.or_assoc, ← Bool.and_or_distrib_left, ← Bool.decide_or]
      simp only [Nat.lt_succ_iff_lt_or_eq]
    by_cases hlast : k < 7
    · rw [if_pos hlast]
      exact ⟨by omega, hread⟩
    · rw [if_neg hlast]
      apply BitVec.eq_of_getLsbD_eq
      intro i hi
      have hall : i < k + 1 := by omega
      rw [hread, BitVec.getLsbD_or]
      simp [hall]
  case waitReset =>
    split_ifs
    · simpa only [Reads, hpoint] using h
    · exact h
  case process => simp [Reads]
  case acked =>
    change (0 : UCHAR) = base s.assembled
    rw [base, if_neg h]

end RecvFPGA

namespace ParallelPort

variable {s : ParallelPort}

/-- How far the two chips are with a byte. -/
inductive InStep (s : ParallelPort) : Prop where
  | idle (hphase : s.fpga.phase = .quiet ∨ s.fpga.phase = .latched ∨ s.fpga.phase = .answered)
      (htaking : RecvFPGA.taking s.recv.point = false)
      (hbytes : s.recv.assembled = taken s.fpga.presented)
  | offered (bs : List UCHAR) (hphase : s.fpga.phase = .raised ∨ s.fpga.phase = .strobe)
      (htaking : RecvFPGA.taking s.recv.point = false)
      (hpresented : s.fpga.presented = bs ++ [s.fpga.ppData]) (hbytes : s.recv.assembled = taken bs)
  | reading (bs : List UCHAR)
      (hphase : s.fpga.phase = .raised ∨ s.fpga.phase = .strobe)
      (hseen : RecvFPGA.seen s.recv.point = true)
      (hpresented : s.fpga.presented = bs ++ [s.fpga.ppData]) (hbytes : s.recv.assembled = taken bs)
  | finishing (bs : List UCHAR) (hphase : s.fpga.phase = .fallen ∨ s.fpga.phase = .waiting)
      (htaking : RecvFPGA.taking s.recv.point = true)
      (hpresented : s.fpga.presented = bs ++ [s.fpga.ppData]) (hbytes : s.recv.assembled = taken bs)
  | done (hphase : s.fpga.phase = .fallen ∨ s.fpga.phase = .waiting)
      (htaking : RecvFPGA.taking s.recv.point = false)
      (hbytes : s.recv.assembled = taken s.fpga.presented)

/-- All that holds as long as every strobe is seen. -/
structure Lossless (s : ParallelPort) : Prop where
  valid : s.fpga.Valid
  ack : s.AckPoint
  reads : s.recv.Reads s.fpga.ppData
  inStep : s.InStep

/-- The strobe does not end before the STM32 has seen it. -/
def SeesStrobe (s : ParallelPort) (e : PportEvent) : Prop :=
  ∀ i, e = .clk i → s.StrobeEnds → RecvFPGA.seen s.recv.point = true

theorem InStep.clk (h : s.InStep) (hvalid : s.fpga.Valid) (hack : s.AckPoint) {i : PportIn}
    (hsees : s.SeesStrobe (.clk i)) : (s.step (.clk i)).InStep := by
  have hclk := hvalid.clkStep i s.recv.ppAck
  cases h with
  | idle hphase htaking hbytes =>
      cases hclk with
      | stay ht hne hack hbelow hCS hskip hdata hpresented =>
          exact .idle (ht ▸ hphase) htaking (hbytes.trans (by rw [← hpresented]; rfl))
      | latch hs ht hCS hskip hdata hpresented =>
          exact .idle (.inr (.inl ht)) htaking (hbytes.trans (by rw [← hpresented]; rfl))
      | next hs ht hCS hskip hpresented =>
          exact .idle (.inl ht) htaking (hbytes.trans (by rw [← hpresented]; rfl))
      | rise hs ht hCS hskip hdata hpresented =>
          exact .offered s.fpga.presented (.inl ht) htaking (hdata ▸ hpresented) hbytes
      | go hs | fall hs | wait hs | answer hs => simp [hs] at hphase
  | offered bs hphase htaking hpresented hbytes =>
      cases hclk with
      | stay ht hne hack hbelow hCS hskip hdata hsame =>
          have hquiet : s.fpga.phase ≠ .quiet := by rcases hphase with hp | hp <;> simp [hp]
          exact .offered bs (ht ▸ hphase) htaking (hsame.trans (hdata hquiet ▸ hpresented)) hbytes
      | go hs ht hCS hskip hdata hsame =>
          exact .offered bs (.inr ht) htaking (hsame.trans (hdata ▸ hpresented)) hbytes
      | fall hs hover ht hCS hskip hdata hsame =>
          have hseen := hsees i rfl ((strobeEnds_iff hvalid).mpr ⟨hs, hover⟩)
          rw [RecvFPGA.taking_of_seen hseen] at htaking
          cases htaking
      | latch hs | rise hs | wait hs | answer hs | next hs => simp [hs] at hphase
  | reading bs hphase hseen hpresented hbytes =>
      cases hclk with
      | stay ht hne hack hbelow hCS hskip hdata hsame =>
          have hquiet : s.fpga.phase ≠ .quiet := by rcases hphase with hp | hp <;> simp [hp]
          exact .reading bs (ht ▸ hphase) hseen (hsame.trans (hdata hquiet ▸ hpresented)) hbytes
      | go hs ht hCS hskip hdata hsame =>
          exact .reading bs (.inr ht) hseen (hsame.trans (hdata ▸ hpresented)) hbytes
      | fall hs hover ht hCS hskip hdata hsame =>
          exact .finishing bs (.inl ht) (RecvFPGA.taking_of_seen hseen)
            (hsame.trans (hdata ▸ hpresented)) hbytes
      | latch hs | rise hs | wait hs | answer hs | next hs => simp [hs] at hphase
  | finishing bs hphase htaking hpresented hbytes =>
      cases hclk with
      | stay ht hne hack hbelow hCS hskip hdata hsame =>
          have hquiet : s.fpga.phase ≠ .quiet := by rcases hphase with hp | hp <;> simp [hp]
          exact .finishing bs (ht ▸ hphase) htaking (hsame.trans (hdata hquiet ▸ hpresented)) hbytes
      | wait hs ht hCS hskip hdata hsame =>
          exact .finishing bs (.inr ht) htaking (hsame.trans (hdata ▸ hpresented)) hbytes
      | answer hs hset =>
          -- the acknowledge is not set before the byte is processed
          rcases hack.mp hset with hpoint | hpoint <;> rw [hpoint] at htaking <;> cases htaking
      | latch hs | rise hs | go hs | fall hs | next hs => simp [hs] at hphase
  | done hphase htaking hbytes =>
      cases hclk with
      | stay ht hne hack hbelow hCS hskip hdata hsame =>
          exact .done (ht ▸ hphase) htaking (hbytes.trans (by rw [← hsame]; rfl))
      | wait hs ht hCS hskip hdata hsame =>
          exact .done (.inr ht) htaking (hbytes.trans (by rw [← hsame]; rfl))
      | answer hs hset ht hCS hskip hsame =>
          exact .idle (.inr (.inr ht)) htaking (hbytes.trans (by rw [← hsame]; rfl))
      | latch hs | rise hs | go hs | fall hs | next hs => simp [hs] at hphase

theorem InStep.startRecvFPGA (h : s.InStep) (hvalid : s.fpga.Valid)
    (hreads : s.recv.Reads s.fpga.ppData) : (s.step .startRecvFPGA).InStep := by
  have hdown (hlow : ¬ (s.fpga.phase = .raised ∨ s.fpga.phase = .strobe)) : s.fpga.ppCS = false :=
    Bool.not_eq_true _ ▸ mt hvalid.ppCS.mp hlow
  cases h with
  | idle hphase htaking hbytes =>
      have hCS : s.fpga.ppCS = false := hdown (by rcases hphase with hp | hp | hp <;> simp [hp])
      obtain ⟨hpoint, hsame⟩ := RecvFPGA.step_of_not_taking htaking s.serverUp s.fpga.ppData hCS
      exact .idle hphase hpoint (hsame.trans hbytes)
  | offered bs hphase htaking hpresented hbytes =>
      have hCS : s.fpga.ppCS = true := hvalid.ppCS.mpr hphase
      by_cases hwait : s.recv.point = .waitSet
      · have hstep : s.recv.step s.serverUp s.fpga.ppCS s.fpga.ppData =
            { s.recv with point := .readPin 0 } := by
          simp only [RecvFPGA.step, hwait, hCS, if_true]
        have hrecv : (s.step .startRecvFPGA).recv = { s.recv with point := .readPin 0 } := hstep
        refine .reading bs hphase ?_ hpresented ?_
        · rw [hrecv]
          rfl
        · rw [hrecv]
          exact hbytes
      · obtain ⟨hpoint, hsame⟩ :=
          RecvFPGA.step_of_not_waiting htaking hwait s.serverUp s.fpga.ppCS s.fpga.ppData
        exact .offered bs hphase hpoint hpresented (hsame.trans hbytes)
  | reading bs hphase hseen hpresented hbytes =>
      have hCS : s.fpga.ppCS = true := hvalid.ppCS.mpr hphase
      obtain ⟨-, hpoint, hsame⟩ :=
        RecvFPGA.step_of_seen hseen s.serverUp s.fpga.ppCS s.fpga.ppData
      exact .reading bs hphase (hpoint hCS) hpresented (hsame.trans hbytes)
  | finishing bs hphase htaking hpresented hbytes =>
      by_cases hprocess : s.recv.point = .process
      · -- the byte is complete
        rw [RecvFPGA.Reads, hprocess] at hreads
        have hrecv : (s.step .startRecvFPGA).recv.assembled =
            s.recv.assembled ++ [s.recv.xbyte] ∧ (s.step .startRecvFPGA).recv.point = .acked := by
          simp [step, RecvFPGA.step, hprocess]
        refine .done hphase ?_ ?_
        · rw [hrecv.2]
          rfl
        · change (s.step .startRecvFPGA).recv.assembled = taken s.fpga.presented
          rw [hrecv.1, hpresented, taken_concat, hreads, hbytes]
      · have hseen : RecvFPGA.seen s.recv.point = true := by
          revert htaking hprocess
          cases s.recv.point <;> simp [RecvFPGA.taking, RecvFPGA.seen]
        obtain ⟨hpoint, -, hsame⟩ :=
          RecvFPGA.step_of_seen hseen s.serverUp s.fpga.ppCS s.fpga.ppData
        exact .finishing bs hphase hpoint hpresented (hsame.trans hbytes)
  | done hphase htaking hbytes =>
      have hCS : s.fpga.ppCS = false := hdown (by rcases hphase with hp | hp <;> simp [hp])
      obtain ⟨hpoint, hsame⟩ := RecvFPGA.step_of_not_taking htaking s.serverUp s.fpga.ppData hCS
      exact .done hphase hpoint (hsame.trans hbytes)

theorem Lossless.step (h : s.Lossless) {e : PportEvent} (he : s.SeesStrobe e) :
    (s.step e).Lossless := by
  refine ⟨valid_step h.valid e, ackPoint_step h.ack e, ?_, ?_⟩
  · cases e with
    | clk i =>
        have hsame (hquiet : s.fpga.phase ≠ .quiet) (hlatched : s.fpga.phase ≠ .latched) :
            s.recv.Reads (s.fpga.clk i s.recv.ppAck).ppData := by
          rw [PportUnit.ppData_clk hquiet hlatched]
          exact h.reads
        cases h.inStep with
        | idle hphase htaking hbytes | done hphase htaking hbytes => exact h.reads.congr htaking _
        | offered bs hphase htaking hp hbytes => exact h.reads.congr htaking _
        | reading bs hphase hseen hp hbytes | finishing bs hphase htaking hp hbytes =>
            rcases hphase with hphase | hphase <;>
              exact hsame (by rw [hphase]; decide) (by rw [hphase]; decide)
    | startRecvFPGA => exact h.reads.step s.serverUp s.fpga.ppCS
    | startRecv7200 serverUp => exact h.reads
  · cases e with
    | clk i => exact h.inStep.clk h.valid h.ack he
    | startRecvFPGA => exact h.inStep.startRecvFPGA h.valid h.reads
    | startRecv7200 serverUp =>
        cases h.inStep with
        | idle hphase htaking hbytes => exact .idle hphase htaking hbytes
        | offered bs hphase htaking hp hbytes => exact .offered bs hphase htaking hp hbytes
        | reading bs hphase hseen hp hbytes => exact .reading bs hphase hseen hp hbytes
        | finishing bs hphase htaking hp hbytes => exact .finishing bs hphase htaking hp hbytes
        | done hphase htaking hbytes => exact .done hphase htaking hbytes

theorem lossless_start (buff ucbuff : ℕ → UCHAR) (serverUp : ℕ) :
    (start buff ucbuff serverUp).Lossless := by
  refine ⟨PportUnit.valid_reset, ?_, RecvFPGA.reads_start buff ucbuff _, .idle (.inl rfl) rfl rfl⟩
  rw [AckPoint, start, RecvFPGA.start]
  simp

/-- The STM32 has every byte but possibly the last, in order, with the two bits set in the
first of them. -/
theorem Lossless.bytes (h : s.Lossless) :
    s.recv.assembled = taken (s.fpga.presented.take s.recv.assembled.length) ∧
      s.fpga.presented.length ≤ s.recv.assembled.length + 1 := by
  have hall (hbytes : s.recv.assembled = taken s.fpga.presented) :
      s.recv.assembled = taken (s.fpga.presented.take s.recv.assembled.length) ∧
        s.fpga.presented.length ≤ s.recv.assembled.length + 1 := by
    rw [hbytes, length_taken, List.take_length]
    exact ⟨rfl, by omega⟩
  have hlast {bs : List UCHAR} (hpresented : s.fpga.presented = bs ++ [s.fpga.ppData])
      (hbytes : s.recv.assembled = taken bs) :
      s.recv.assembled = taken (s.fpga.presented.take s.recv.assembled.length) ∧
        s.fpga.presented.length ≤ s.recv.assembled.length + 1 := by
    rw [hbytes, hpresented, length_taken, List.take_left]
    exact ⟨rfl, by simp⟩
  cases h.inStep with
  | idle hphase htaking hbytes => exact hall hbytes
  | offered bs hphase htaking hpresented hbytes => exact hlast hpresented hbytes
  | reading bs hphase hseen hpresented hbytes => exact hlast hpresented hbytes
  | finishing bs hphase htaking hpresented hbytes => exact hlast hpresented hbytes
  | done hphase htaking hbytes => exact hall hbytes

/-- The first byte that is presented is even, and the first that is assembled odd. -/
structure FirstBytes (s : ParallelPort) : Prop where
  valid : s.fpga.Valid
  fpga : s.fpga.StartsFrame
  recv : s.recv.StartsOdd

theorem FirstBytes.step (h : s.FirstBytes) (e : PportEvent) : (s.step e).FirstBytes := by
  refine ⟨valid_step h.valid e, ?_, ?_⟩
  · cases e with
    | clk i => exact h.fpga.clk h.valid i s.recv.ppAck
    | startRecvFPGA | startRecv7200 serverUp => exact h.fpga
  · cases e with
    | startRecvFPGA => exact h.recv.step s.serverUp s.fpga.ppCS s.fpga.ppData
    | clk i | startRecv7200 serverUp => exact h.recv

theorem FirstBytes.not_prefix (h : s.FirstBytes) (hsome : s.recv.assembled ≠ []) :
    ¬ s.recv.assembled <+: s.fpga.presented := by
  rintro ⟨rest, hrest⟩
  obtain ⟨b, bs, hfirst⟩ := List.exists_cons_of_ne_nil hsome
  have hodd := h.recv.head b (by rw [hfirst]; rfl)
  have hstart := h.fpga.head b (by rw [← hrest, hfirst]; rfl)
  rw [hstart] at hodd
  exact absurd hodd (by decide)

/-- Once a byte is assembled, it is not what was presented: two bits of the first byte are
set. Apart from these two bits, nothing is lost, taken twice or out of order as long as no
strobe ends before the STM32 has seen it. -/
theorem port_bytes (buff ucbuff : ℕ → UCHAR) (serverUp : ℕ) (es : List PportEvent) :
    let s := Transition.exec step (start buff ucbuff serverUp) es
    (s.recv.assembled ≠ [] → ¬ s.recv.assembled <+: s.fpga.presented) ∧
      (Transition.Meets step SeesStrobe (start buff ucbuff serverUp) es →
        s.recv.assembled = taken (s.fpga.presented.take s.recv.assembled.length) ∧
          s.fpga.presented.length ≤ s.recv.assembled.length + 1) := by
  intro s
  refine ⟨?_, ?_⟩
  · have hfirst : s.FirstBytes := Transition.inv_exec (fun _ e h => h.step e) es
      ⟨PportUnit.valid_reset, PportUnit.startsFrame_reset, RecvFPGA.startsOdd_start buff ucbuff⟩
    exact hfirst.not_prefix
  · intro hes
    exact (Transition.inv_exec_of_meets (fun _ _ h he => h.step he)
      (lossless_start buff ucbuff serverUp) hes).bytes

/-- Nothing is measured, and the default delay is kept. -/
def quietIn : PportIn where
  rpmResult := 0
  mphResult := 0
  mcpResults := fun _ => 0
  stlvStatus1 := 0
  stlvStatus2 := 0
  stlvStatus3 := 0
  stlvStatus4 := 0
  sendDelay := 0x7FFFF

/-- The FPGA raises its first strobe, and the STM32 starts and reads the pins. -/
def strobeRises : List PportEvent :=
  List.replicate 6 (.clk quietIn) ++ List.replicate 12 .startRecvFPGA

def strobeRisen : ParallelPort :=
  Transition.exec step
    { start (fun _ => 0) (fun _ => 0) 1 with fpga := PportUnit.reset.timedAt (timeDelay7 + 1) }
    strobeRises

/-- A run in which the STM32 takes the first byte. -/
def firstByte : List PportEvent :=
  List.replicate (2 * (timeDelay7 + 1)) (.clk quietIn) ++ (strobeRises ++
    (List.replicate (2 * (timeDelay8c + 1)) (.clk quietIn) ++
      [.clk quietIn, .startRecvFPGA, .startRecvFPGA]))

theorem exec_firstByte :
    Transition.exec step (start (fun _ => 0) (fun _ => 0) 1) firstByte =
      Transition.exec step
        { strobeRisen with fpga := strobeRisen.fpga.timedAt (timeDelay8c + 1) }
        [.clk quietIn, .startRecvFPGA, .startRecvFPGA] := by
  have hpreidle := exec_preidle (s := start (fun _ => 0) (fun _ => 0) 1) rfl rfl rfl quietIn
  have hstrobe := exec_strobe (s := strobeRisen) rfl rfl rfl quietIn
  have hrisen : strobeRisen = Transition.exec step
      { start (fun _ => 0) (fun _ => 0) 1 with
        fpga := (start (fun _ => 0) (fun _ => 0) 1).fpga.timedAt (timeDelay7 + 1) }
      strobeRises := rfl
  rw [firstByte, Transition.exec_append, hpreidle, Transition.exec_append, ← hrisen,
    Transition.exec_append, hstrobe]

/-- The start of the frame is presented, and something else is taken. -/
theorem not_port_bytes_firstByte :
    let s := Transition.exec step (start (fun _ => 0) (fun _ => 0) 1) firstByte
    s.fpga.presented = [0xFE] ∧ s.recv.assembled = [0xFF] ∧
      ¬ s.recv.assembled <+: s.fpga.presented := by
  rw [exec_firstByte]
  refine ⟨rfl, rfl, ?_⟩
  decide +kernel

end ParallelPort

end TruckControl
