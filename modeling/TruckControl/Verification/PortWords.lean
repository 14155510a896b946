import TruckControl.Library.SampleLog
import TruckControl.Library.Word
import TruckControl.Verification.DisplayWords
import TruckControl.Verification.RealTimeFrames

/-!
# The words of the parallel port

Here too the array is refreshed before each byte, and the server puts the bytes of two
readings together.
-/

namespace TruckControl

namespace PportUnit

variable {s : PportUnit} {l : SampleLog PportIn UCHAR} {p : PportIn → Prop}

/-! ## The bytes and the readings they are of -/

/-- `if time_delay_reg > send_delay` in `pp_done2`. -/
def Samples (i : PportIn) (s : PportUnit) : Prop :=
  s.pportReg = .ppDone2 ∧ s.timeDelayReg > i.sendDelay

instance (i : PportIn) (s : PportUnit) : Decidable (s.Samples i) :=
  inferInstanceAs (Decidable (_ ∧ _))

/-- The byte that is presented at an edge. -/
def presents (s : PportUnit) : Option UCHAR :=
  if s.pportReg = .ppStart1 ∧ s.ppCS = false then some s.ppData else none

/-- What was sampled and presented in a run. -/
def log (s : PportUnit) (l : SampleLog PportIn UCHAR) :
    List (PportIn × Bool) → SampleLog PportIn UCHAR
  | [] => l
  | e :: es => (s.clk e.1 e.2).log (l.note (s.Samples e.1) s.presents e.1) es

/-- The array after a sampling. -/
def content : Option PportIn → ℕ → UCHAR
  | none => uploadReset
  | some i => sample i uploadReset

theorem sample_content (i : PportIn) (x : Option PportIn) :
    sample i (content x) = content (some i) := by
  funext j
  cases x with
  | none => rfl
  | some i' =>
      match j with
      | 0 | 1 | 2 | 3 | 4 | 5 | 6 | 7 | 8 | 9 | 10 | 11 | 12 | 13 | 14 | 15 | 16 | j + 17 => rfl

/-- The `k`-th byte is an element of the array, and after the first one of inputs of the
run. -/
def IsByte (p : PportIn → Prop) (k : ℕ) (x : Option PportIn) (b : UCHAR) : Prop :=
  b = content x (k % 19) ∧ (k ≠ 0 → ∃ i, x = some i ∧ p i)

theorem upload_clk_eq (s : PportUnit) (i : PportIn) (ppAck : Bool) :
    (s.clk i ppAck).upload = if s.Samples i then sample i s.upload else s.upload := by
  cases hreg : s.pportReg <;> simp only [PportUnit.clk, pportCase, Samples, hreg]
  case ppDone2 => split_ifs <;> simp_all
  all_goals (try split_ifs) <;> simp_all

theorem presented_clk (s : PportUnit) (i : PportIn) (ppAck : Bool) :
    (s.clk i ppAck).presented = s.presented ++ s.presents.toList := by
  cases hreg : s.pportReg <;> simp only [PportUnit.clk, pportCase, presents, hreg]
  case ppStart1 => cases s.ppCS <;> simp
  all_goals (try split_ifs) <;> simp_all

/-- The process and its log. -/
structure Tracks (p : PportIn → Prop) (s : PportUnit) (l : SampleLog PportIn UCHAR) : Prop where
  valid : s.Valid
  indexed : s.Indexed
  upload : s.upload = content l.last
  elements : l.elements = s.presented
  sampled : s.pportReg = .ppDone2 ∧ s.pportNext = .ppIdle ∨
    (s.phase = .quiet ∨ s.phase = .latched) ∧ l.elements ≠ [] → ∃ i, l.last = some i ∧ p i
  each : l.Each (IsByte p)

theorem tracks_reset (p : PportIn → Prop) : Tracks p reset .start where
  valid := valid_reset
  indexed := indexed_reset
  upload := rfl
  elements := rfl
  sampled := by
    rintro (⟨h, -⟩ | ⟨-, h⟩)
    · cases h
    · exact absurd rfl h
  each := SampleLog.each_start

theorem Valid.phase_of_presents (h : s.Valid) {b : UCHAR} (hb : s.presents = some b) :
    s.phase = .latched ∧ b = s.ppData := by
  rw [presents] at hb
  split_ifs at hb with hrise
  obtain ⟨hreg, hCS⟩ := hrise
  refine ⟨?_, (Option.some_inj.mp hb).symm⟩
  have hnot : s.phase ≠ .raised := by
    intro hraised
    rw [h.ppCS.mpr (.inl hraised)] at hCS
    cases hCS
  rw [phase, hreg] at hnot ⊢
  cases hnext : s.pportNext <;> simp [hnext] at hnot ⊢

/-- Before the process goes on from `pp_done2` it has sampled. -/
theorem Valid.samples_of_next (h : s.Valid) {i : PportIn} {ppAck : Bool}
    (hreg' : (s.clk i ppAck).pportReg = .ppDone2) (hnext' : (s.clk i ppAck).pportNext = .ppIdle) :
    s.Samples i := by
  have hnext : s.pportNext = .ppDone2 := hreg'
  by_contra hnot
  rcases h.next with hsame | hfollowing
  · rw [hnext] at hsame
    have hover : ¬ s.timeDelayReg > i.sendDelay := fun hover => hnot ⟨hsame.symm, hover⟩
    simp [PportUnit.clk, pportCase, ← hsame, hover, hnext] at hnext'
  · have hreg : s.pportReg = .ppDone := by
      rw [hnext] at hfollowing
      revert hfollowing
      cases s.pportReg <;> decide
    cases ppAck <;> simp [PportUnit.clk, pportCase, hreg, hnext] at hnext'

theorem Valid.next_of_answered (h : s.Valid) {i : PportIn} {ppAck : Bool}
    (hphase : s.phase = .answered) (hphase' : (s.clk i ppAck).phase = .quiet) :
    s.pportReg = .ppDone2 ∧ s.pportNext = .ppIdle := by
  have hnext := h.next
  have hreg' : (s.clk i ppAck).pportReg = s.pportNext := rfl
  rw [phase] at hphase
  rw [phase, hreg'] at hphase'
  cases hreg : s.pportReg <;> cases hnext' : s.pportNext <;>
    simp_all [following]

theorem Tracks.sampled_clk (h : Tracks p s l) {i : PportIn} (hi : p i) (ppAck : Bool)
    (hlater : (s.clk i ppAck).pportReg = .ppDone2 ∧ (s.clk i ppAck).pportNext = .ppIdle ∨
      ((s.clk i ppAck).phase = .quiet ∨ (s.clk i ppAck).phase = .latched) ∧
        (s.clk i ppAck).presented ≠ []) :
    ∃ j, (l.note (s.Samples i) s.presents i).last = some j ∧ p j := by
  rcases hlater with ⟨hreg', hnext'⟩ | ⟨hphase', hsome⟩
  · have hsamples := h.valid.samples_of_next hreg' hnext'
    exact ⟨i, by simp [SampleLog.note, hsamples], hi⟩
  · refine SampleLog.last_note (h.sampled ?_) _ _ hi
    rw [h.elements]
    cases h.valid.clkStep i ppAck with
    | stay hphase hne hack hbelow hCS hskip hdata hpresented =>
        exact .inr ⟨hphase ▸ hphase', hpresented ▸ hsome⟩
    | latch hs ht hCS hskip hdata hpresented => exact .inr ⟨.inl hs, hpresented ▸ hsome⟩
    | next hs ht => exact .inl (h.valid.next_of_answered hs ht)
    | rise hs ht | go hs ht | fall hs hover ht | wait hs ht | answer hs hack ht =>
        simp [ht] at hphase'

theorem Tracks.clk (h : Tracks p s l) {i : PportIn} (hi : p i) (ppAck : Bool) :
    Tracks p (s.clk i ppAck) (l.note (s.Samples i) s.presents i) where
  valid := h.valid.clk i ppAck
  indexed := h.indexed.clk h.valid i ppAck
  upload := by
    rw [upload_clk_eq, h.upload, sample_content]
    by_cases hsamples : s.Samples i <;> simp [SampleLog.note, hsamples]
  elements := by rw [SampleLog.elements_note, presented_clk, h.elements]
  sampled := by
    rw [SampleLog.elements_note, h.elements, ← presented_clk s i ppAck]
    exact h.sampled_clk hi ppAck
  each := by
    refine h.each.note ?_ i
    intro b hb
    obtain ⟨hphase, rfl⟩ := h.valid.phase_of_presents hb
    have hlength : l.sent.length = s.presented.length := by
      rw [← h.elements, SampleLog.elements, List.length_map]
    have hindex := h.indexed.sPort
    rw [if_neg (by rw [hphase]; decide)] at hindex
    refine ⟨?_, ?_⟩
    · rw [h.valid.data hphase, h.upload, hindex, hlength]
    · intro hne
      refine h.sampled (.inr ⟨.inr hphase, ?_⟩)
      intro hnil
      rw [h.elements] at hnil
      rw [hlength, hnil] at hne
      exact hne rfl

theorem Tracks.log (h : Tracks p s l) {es : List (PportIn × Bool)} (hes : ∀ e ∈ es, p e.1) :
    Tracks p (Transition.exec (fun s e => s.clk e.1 e.2) s es) (s.log l es) := by
  induction es generalizing s l with
  | nil => exact h
  | cons e es ih =>
      obtain ⟨he, hrest⟩ := List.forall_mem_cons.mp hes
      exact ih (h.clk he e.2) hrest

/-- What was sampled and presented from the reset on. -/
def portLog (es : List (PportIn × Bool)) : SampleLog PportIn UCHAR := reset.log .start es

theorem tracks_portLog (es : List (PportIn × Bool)) :
    Tracks (fun i => ∃ e ∈ es, e.1 = i) (clks es) (portLog es) :=
  (tracks_reset _).log fun e he => ⟨e, he, rfl⟩

/-- Between the two bytes of a word the sampled value changes in one of them at most. -/
def WholeWords (l : SampleLog PportIn UCHAR) : Prop :=
  ∀ k i j b c, l.sent[k]? = some (some i, b) → l.sent[k + 1]? = some (some j, c) →
    (k % 19 = 1 → Word.OneByte i.rpmResult j.rpmResult) ∧
      (k % 19 = 3 → Word.OneByte i.mphResult j.mphResult)

/-- The two bytes of a word are of one instant. -/
theorem joined_held (heach : l.Each (IsByte p)) (hwhole : WholeWords l) {q : ℕ}
    (hq : q + 1 < l.elements.length) :
    (q % 19 = 1 → ∃ i, p i ∧
      i.rpmResult = Word.join (l.elements.getD q 0) (l.elements.getD (q + 1) 0)) ∧
      (q % 19 = 3 → ∃ i, p i ∧
        i.mphResult = Word.join (l.elements.getD q 0) (l.elements.getD (q + 1) 0)) := by
  obtain ⟨y, hlow, hbyte, hsome⟩ := heach.getD (Nat.lt_of_succ_lt hq) 0
  obtain ⟨y', hhigh, hbyte', hsome'⟩ := heach.getD hq 0
  obtain ⟨j, rfl, hj⟩ := hsome' (Nat.succ_ne_zero q)
  rw [hbyte']
  refine ⟨?_, ?_⟩
  · intro hone
    obtain ⟨i, rfl, hi⟩ := hsome (by omega)
    have htwo : (q + 1) % 19 = 2 := by omega
    rw [hbyte, hone, htwo]
    exact Word.join_reading PportIn.rpmResult hi hj ((hwhole q i j _ _ hlow hhigh).1 hone)
  · intro hthree
    obtain ⟨i, rfl, hi⟩ := hsome (by omega)
    have hfour : (q + 1) % 19 = 4 := by omega
    rw [hbyte, hthree, hfour]
    exact Word.join_reading PportIn.mphResult hi hj ((hwhole q i j _ _ hlow hhigh).2 hthree)

end PportUnit

/-! ## The words of the server -/

/-- `rpm` as the server puts it together for `SEND_RT_VALUES1`. -/
def rtRpm (readSerialBuffer : List UCHAR) : BitVec 16 :=
  Word.join (readSerialBuffer.getD 1 0) (readSerialBuffer.getD 2 0)

/-- `mph`. -/
def rtMph (readSerialBuffer : List UCHAR) : BitVec 16 :=
  Word.join (readSerialBuffer.getD 3 0) (readSerialBuffer.getD 4 0)

theorem mem_rtValues {engineOn sendAdc : ℕ} {ucbuff buff : ℕ → UCHAR} {msg : List UCHAR}
    (h : msg ∈ RecvFPGA.rtValues engineOn sendAdc ucbuff buff) :
    msg = RecvFPGA.message .sendRtValues1 ucbuff buff 0 ∨
      msg = RecvFPGA.message .sendRtValues2 ucbuff buff 4 ∨
        msg = RecvFPGA.message .sendRtValues3 ucbuff buff 8 ∨
          msg = RecvFPGA.message .sendRtFpgaStatus ucbuff buff 12 := by
  rw [RecvFPGA.rtValues] at h
  split_ifs at h <;> simp at h <;> tauto

/-- The words that the messages of complete frames are put together to. -/
theorem rtWords_frame {ucbuff : ℕ → UCHAR} {ts : ℕ → Arrival} {n : ℕ} {msg : List UCHAR}
    (hmsg : msg ∈ RecvFPGA.frameMessages ucbuff ts n)
    (hcmd : msg.head? = some CmdType.sendRtValues1.toByte) :
    ∃ m < n, m % 19 = 18 ∧
      rtRpm msg = Word.join (RecvFPGA.payload ts m 0) (RecvFPGA.payload ts m 1) ∧
        rtMph msg = Word.join (RecvFPGA.payload ts m 2) (RecvFPGA.payload ts m 3) := by
  rw [RecvFPGA.frameMessages, List.mem_flatMap] at hmsg
  obtain ⟨m, hm, hmsg⟩ := hmsg
  split_ifs at hmsg with hlast
  · refine ⟨m, List.mem_range.mp hm, hlast, ?_⟩
    rcases mem_rtValues hmsg with rfl | rfl | rfl | rfl
    · exact ⟨rfl, rfl⟩
    all_goals exact absurd (Option.some_inj.mp hcmd) (by decide)
  · cases hmsg

/-- What the bytes behind the `k`-th start byte must be for the words of the server: none is
taken for a start byte, and no word changes in both bytes while it is sent. -/
structure Undisturbed (es : List (PportIn × Bool)) (ts : ℕ → Arrival) (n : ℕ) : Prop where
  whole : PportUnit.WholeWords (PportUnit.portLog es)
  plain : RecvFPGA.Unambiguous ts n

/-- The words that the server puts together of these messages are values of one instant. -/
def RtWordsHeld (es : List (PportIn × Bool)) (msgs : List (List UCHAR)) : Prop :=
  ∀ msg ∈ msgs, msg.head? = some CmdType.sendRtValues1.toByte →
    (∃ e ∈ es, e.1.rpmResult = rtRpm msg) ∧ ∃ e ∈ es, e.1.mphResult = rtMph msg

/-- The bytes behind the `k`-th start byte. -/
def portBytes (es : List (PportIn × Bool)) (k : ℕ) (engineOn sendAdc : ℕ → ℕ) : ℕ → Arrival :=
  behind (PportUnit.clks es).presented k engineOn sendAdc

/-- How many there are. -/
def portCount (es : List (PportIn × Bool)) (k : ℕ) : ℕ :=
  (PportUnit.clks es).presented.length - (19 * k + 1)

theorem Undisturbed.rtWordsHeld {es : List (PportIn × Bool)} {k : ℕ} {engineOn sendAdc : ℕ → ℕ}
    (h : Undisturbed es (portBytes es k engineOn sendAdc) (portCount es k)) (s : RecvFPGA) :
    RtWordsHeld es
      ((s.store 0xFE).sent (portBytes es k engineOn sendAdc) (portCount es k)) := by
  intro msg hmsg hcmd
  have htracks := PportUnit.tracks_portLog es
  have hptr : (s.store 0xFE).framePtr = 0 := by simp [RecvFPGA.store]
  have harrive : (s.store 0xFE).FramesArrive (portBytes es k engineOn sendAdc) (portCount es k) :=
    RecvFPGA.framesArrive_of_unambiguous hptr
      (fun m hm => xbyte_behind es k engineOn sendAdc hm) h.plain
  rw [harrive.messages] at hmsg
  obtain ⟨m, hm, hlast, hrpm, hmph⟩ := rtWords_frame hmsg hcmd
  have hpayload (i : ℕ) :
      RecvFPGA.payload (portBytes es k engineOn sendAdc) m i =
        (PportUnit.portLog es).elements.getD (19 * k + 1 + (m - 18 + i)) 0 := by
    rw [htracks.elements]
    rfl
  have hlength : 19 * k + 1 + m < (PportUnit.portLog es).elements.length := by
    rw [portCount] at hm
    rw [htracks.elements]
    omega
  obtain ⟨hfirst, -⟩ := PportUnit.joined_held htracks.each h.whole
    (q := 19 * k + 1 + (m - 18)) (by omega)
  obtain ⟨-, hsecond⟩ := PportUnit.joined_held htracks.each h.whole
    (q := 19 * k + 1 + (m - 18 + 2)) (by omega)
  obtain ⟨i, ⟨e, he, rfl⟩, heq⟩ := hfirst (by omega)
  obtain ⟨j, ⟨f, hf, rfl⟩, heq'⟩ := hsecond (by omega)
  refine ⟨⟨e, he, ?_⟩, f, hf, ?_⟩
  · rw [hrpm, hpayload, hpayload]
    exact heq
  · rw [hmph, hpayload, hpayload]
    exact heq'

/-- In undisturbed runs the words that the display and the server put together are values of
one instant. -/
theorem words_held (s₀ : CalcSignals) (skip2 : Bool) (ds : ℕ → DisplayEdge) (n k : ℕ) (x : Xmega)
    (es : List (PportIn × Bool)) (j : ℕ) (engineOn sendAdc : ℕ → ℕ) (s : RecvFPGA) :
    (DisplaySender.Undisturbed s₀ skip2 ds n →
      DisplaySender.WordsHeld ds x
        (DisplaySender.fromMarker (DisplaySender.log s₀ skip2 ds n) k)
        ((DisplaySender.log s₀ skip2 ds n).elements.length - (6 * k + 5))) ∧
      (Undisturbed es (portBytes es j engineOn sendAdc) (portCount es j) →
        RtWordsHeld es
          ((s.store 0xFE).sent (portBytes es j engineOn sendAdc) (portCount es j))) :=
  ⟨fun h => h.wordsHeld k x, fun h => h.rtWordsHeld s⟩

/-! ## Readings that change in their low bytes -/

namespace DisplaySender

theorem wholeWords_of_oneByte {l : SampleLog LedIn UCHAR} {p : LedIn → Prop}
    (heach : l.Each (IsByte p)) (h : ∀ i j, p i → p j →
      Word.OneByte i.rpmResult j.rpmResult ∧ Word.OneByte i.mphResult j.mphResult) :
    WholeWords l := by
  intro k i j b c hk hk'
  obtain ⟨⟨_, hi, hheld⟩, -⟩ := heach k _ _ hk
  obtain ⟨⟨_, hj, hheld'⟩, -⟩ := heach (k + 1) _ _ hk'
  obtain rfl := Option.some_inj.mp hi
  obtain rfl := Option.some_inj.mp hj
  obtain ⟨hrpm, hmph⟩ := h i j hheld hheld'
  exact ⟨fun _ => hrpm, fun _ => hmph⟩

/-- The revolutions and the speed that are held then. -/
theorem held_sendWhileTurning {i : LedIn} (hi : Held (sendWhileTurning 0x0902) i) :
    (i.rpmResult = 500 ∨ i.rpmResult = 501) ∧ (i.mphResult = 40 ∨ i.mphResult = 41) := by
  obtain ⟨n, hrpm, hmph⟩ := hi
  rw [← hrpm, ← hmph, sendWhileTurning]
  rcases Nat.mod_two_eq_zero_or_one n with hn | hn <;> simp [hn]

theorem undisturbed_sendWhileTurning (n : ℕ) :
    Undisturbed slowest false (sendWhileTurning 0x0902) n := by
  have hfinished := finished_of_longDelay longDelay_sendWhileTurning
  have heach := (tracks_log hfinished n).each
  refine ⟨hfinished, wholeWords_of_oneByte heach ?_, ?_⟩
  · intro i j hi hj
    obtain ⟨hrpm, hmph⟩ := held_sendWhileTurning hi
    obtain ⟨hrpm', hmph'⟩ := held_sendWhileTurning hj
    refine ⟨.inr ?_, .inr ?_⟩
    · rcases hrpm with hrpm | hrpm <;> rcases hrpm' with hrpm' | hrpm' <;> rw [hrpm, hrpm'] <;> rfl
    · rcases hmph with hmph | hmph <;> rcases hmph' with hmph' | hmph' <;> rw [hmph, hmph'] <;> rfl
  · intro k x b hk hne
    obtain ⟨⟨i, rfl, hi⟩, rfl⟩ := heach k x b hk
    obtain ⟨hrpm, hmph⟩ := held_sendWhileTurning hi
    have hlt : (k + 1) % 6 < 6 := Nat.mod_lt _ (by decide)
    generalize (k + 1) % 6 = q at hne hlt
    match q with
    | 1 | 2 =>
        rcases hrpm with hrpm | hrpm <;>
          simp [content, LedUnit.sample, Word.low, Word.high, hrpm]
    | 3 | 4 =>
        rcases hmph with hmph | hmph <;>
          simp [content, LedUnit.sample, Word.low, Word.high, hmph]
    | 5 => simp [content, LedUnit.sample]

end DisplaySender

namespace PportUnit

theorem wholeWords_of_oneByte (heach : l.Each (IsByte p)) (h : ∀ i j, p i → p j →
      Word.OneByte i.rpmResult j.rpmResult ∧ Word.OneByte i.mphResult j.mphResult) :
    WholeWords l := by
  intro k i j b c hk hk'
  obtain ⟨-, hsome'⟩ := heach (k + 1) _ _ hk'
  obtain ⟨_, hj, hheld'⟩ := hsome' (Nat.succ_ne_zero k)
  obtain rfl := Option.some_inj.mp hj
  have hboth (hne : k ≠ 0) : Word.OneByte i.rpmResult j.rpmResult ∧
      Word.OneByte i.mphResult j.mphResult := by
    obtain ⟨-, hsome⟩ := heach k _ _ hk
    obtain ⟨_, hi, hheld⟩ := hsome hne
    obtain rfl := Option.some_inj.mp hi
    exact h i j hheld hheld'
  exact ⟨fun hone => (hboth (by omega)).1, fun hthree => (hboth (by omega)).2⟩

end PportUnit

/-- Nothing but the revolutions is measured. -/
def turningAt (rpm : BitVec 16) : PportIn where
  rpmResult := rpm
  mphResult := 0
  mcpResults := fun _ => 0
  stlvStatus1 := 0
  stlvStatus2 := 0
  stlvStatus3 := 0
  stlvStatus4 := 0
  sendDelay := 0x7FFFF

/-- The revolutions go up and down by one, and every byte is acknowledged at once. -/
def turningClks (n : ℕ) : List (PportIn × Bool) :=
  (List.range n).map fun k => (turningAt (if k % 2 = 0 then 500 else 501), true)

theorem undisturbed_turningClks (n k : ℕ) (engineOn sendAdc : ℕ → ℕ) :
    Undisturbed (turningClks n) (portBytes (turningClks n) k engineOn sendAdc)
      (portCount (turningClks n) k) := by
  have htracks := PportUnit.tracks_portLog (turningClks n)
  have hheld (i : PportIn) (hi : ∃ e ∈ turningClks n, e.1 = i) :
      i = turningAt 500 ∨ i = turningAt 501 := by
    obtain ⟨e, he, rfl⟩ := hi
    obtain ⟨k, -, rfl⟩ := List.mem_map.mp he
    rcases Nat.mod_two_eq_zero_or_one k with hk | hk <;> simp [hk]
  refine ⟨PportUnit.wholeWords_of_oneByte htracks.each ?_, ?_⟩
  · intro i j hi hj
    refine ⟨.inr ?_, .inr ?_⟩ <;> rcases hheld i hi with rfl | rfl <;>
      rcases hheld j hj with rfl | rfl <;> rfl
  · intro m hm hlast
    rw [portCount] at hm
    have hlength : 19 * k + 1 + m < (PportUnit.portLog (turningClks n)).elements.length := by
      rw [htracks.elements]
      omega
    obtain ⟨y, -, hbyte, hsome⟩ := htracks.each.getD hlength 0
    obtain ⟨i, rfl, hi⟩ := hsome (by omega)
    have hxbyte : (portBytes (turningClks n) k engineOn sendAdc m).xbyte =
        (PportUnit.portLog (turningClks n)).elements.getD (19 * k + 1 + m) 0 := by
      rw [htracks.elements]
      rfl
    have hplain : ∀ q < 19, q ≠ 0 → PportUnit.content (some (turningAt 500)) q ≠ 0xFE := by decide
    have hplain' : ∀ q < 19, q ≠ 0 → PportUnit.content (some (turningAt 501)) q ≠ 0xFE := by
      decide
    have hplace : (19 * k + 1 + m) % 19 ≠ 0 := by omega
    rw [hxbyte, hbyte]
    rcases hheld i hi with rfl | rfl
    · exact hplain _ (Nat.mod_lt _ (by decide)) hplace
    · exact hplain' _ (Nat.mod_lt _ (by decide)) hplace

theorem words_held_turning :
    ∀ (n k : ℕ) (x : Xmega) (m j : ℕ) (engineOn sendAdc : ℕ → ℕ) (s : RecvFPGA),
      DisplaySender.WordsHeld (DisplaySender.sendWhileTurning 0x0902) x
        (DisplaySender.fromMarker (DisplaySender.log DisplaySender.slowest false
          (DisplaySender.sendWhileTurning 0x0902) n) k)
        ((DisplaySender.log DisplaySender.slowest false
          (DisplaySender.sendWhileTurning 0x0902) n).elements.length - (6 * k + 5)) ∧
      RtWordsHeld (turningClks m)
        ((s.store 0xFE).sent (portBytes (turningClks m) j engineOn sendAdc)
          (portCount (turningClks m) j)) := by
  intro n k x m j engineOn sendAdc s
  obtain ⟨hdisplay, hport⟩ := words_held DisplaySender.slowest false
    (DisplaySender.sendWhileTurning 0x0902) n k x (turningClks m) j engineOn sendAdc s
  exact ⟨hdisplay (DisplaySender.undisturbed_sendWhileTurning n),
    hport (undisturbed_turningClks m j engineOn sendAdc)⟩

/-! ## A word that changes in both bytes -/

namespace PportUnit

/-- The process before a byte, whatever the rest of its state. -/
def Ready (s : PportUnit) : Prop := s = readyAt s.sPort s.upload s.ppData s.presented

/-- The process after one more byte. -/
def nextByte (i : PportIn) (s : PportUnit) : PportUnit :=
  readyAt (if s.sPort > 17 then 0 else s.sPort + 1) (sample i (sample i s.upload))
    (s.upload s.sPort.toNat) (s.presented ++ [s.upload s.sPort.toNat])

theorem Ready.clk_bytes (h : s.Ready) {i : PportIn} (hdelay : i.sendDelay = 0x7FFFF) (n : ℕ) :
    (PportUnit.clk i true)^[byteClks i * n] s = (nextByte i)^[n] s := by
  induction n generalizing s with
  | zero => rw [Nat.mul_zero, Function.iterate_zero_apply, Function.iterate_zero_apply]
  | succ n ih =>
      have hbyte : (PportUnit.clk i true)^[byteClks i] s = nextByte i s := by
        rw [h, clk_byte i hdelay]
        rfl
      have hready : (nextByte i s).Ready := rfl
      rw [Nat.mul_succ, Function.iterate_add_apply, hbyte, ih hready, Function.iterate_succ_apply]

end PportUnit

/-- After the start byte the engine goes from 500 revolutions to 512. -/
def tornRun : List (PportIn × Bool) :=
  List.replicate (PportUnit.runClks (turningAt 500) 1) (turningAt 500, true) ++
    List.replicate (PportUnit.byteClks (turningAt 512) * 19) (turningAt 512, true)

theorem presented_tornRun :
    (PportUnit.clks tornRun).presented =
      [0xFE, 0xF4, 0x02] ++ List.replicate 16 0 ++ [0xFE] := by
  have hready : (PportUnit.bytesReady (turningAt 500) 1).Ready := rfl
  have hrest := hready.clk_bytes (i := turningAt 512) rfl 19
  rw [PportUnit.clks, tornRun, Transition.exec_append, PportUnit.exec_replicate,
    PportUnit.exec_replicate, PportUnit.clk_bytes _ rfl, hrest]
  decide +kernel

/-- The server puts 756 revolutions together. -/
theorem not_words_held_tornRun :
    ¬ RtWordsHeld tornRun
      (((RecvFPGA.start (fun _ => 0) fun _ => 0).store 0xFE).sent
        (portBytes tornRun 0 (fun _ => 1) (fun _ => 1)) (portCount tornRun 0)) := by
  intro h
  have hmsg : [CmdType.sendRtValues1.toByte, 0xF4, 0x02, 0, 0, 0, 0, 0] ∈
      ((RecvFPGA.start (fun _ => 0) fun _ => 0).store 0xFE).sent
        (portBytes tornRun 0 (fun _ => 1) (fun _ => 1)) (portCount tornRun 0) := by
    rw [portBytes, portCount, presented_tornRun]
    decide +kernel
  obtain ⟨⟨e, he, hrpm⟩, -⟩ := h _ hmsg rfl
  rcases List.mem_append.mp he with he | he
  · rw [List.eq_of_mem_replicate he] at hrpm
    revert hrpm
    decide
  · rw [List.eq_of_mem_replicate he] at hrpm
    revert hrpm
    decide

end TruckControl
