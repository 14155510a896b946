import TruckControl.Library.SampleLog
import TruckControl.Verification.DisplayBytes
import TruckControl.Verification.DisplayLink

/-!
# The words that the dash display shows

The array of the sender is refreshed before each byte, so the bytes of a word may be of two
readings.
-/

namespace TruckControl

/-! ## What an edge does to the signals -/

namespace LedUnit

theorem ledCmd_clk (i : LedIn) (l : LedUnit) : (l.clk i).ledCmd = l.ledCmd := by
  cases hreg : l.stateLedReg <;> simp only [clk, ledCase, hreg]
  split_ifs <;> rfl

theorem ledDlArray_clk (i : LedIn) (l : LedUnit) :
    (l.clk i).ledDlArray =
      if l.stateLedReg = .ledStart then sample i l.ledCmd l.ledDlArray else l.ledDlArray := by
  cases hreg : l.stateLedReg <;> simp [clk, ledCase, hreg]
  split_ifs <;> rfl

theorem sPort2_clk (i : LedIn) (l : LedUnit) :
    (l.clk i).sPort2 =
      if l.stateLedReg = .ledIdle ∧ l.skip2 = true then
        if l.sPort2 > 4 then 0 else l.sPort2 + 1
      else l.sPort2 := by
  cases hreg : l.stateLedReg <;> simp [clk, ledCase, hreg]
  split_ifs <;> rfl

theorem skip2_clk (i : LedIn) (l : LedUnit) :
    (l.clk i).skip2 = if l.stateLedReg = .ledIdle then !l.skip2 else l.skip2 := by
  cases hreg : l.stateLedReg <;> simp [clk, ledCase, hreg]
  split_ifs <;> rfl

theorem dataTx_clk (i : LedIn) (l : LedUnit) (hreg : l.stateLedReg = .ledStartXmit) :
    (l.clk i).dataTx = l.ledDlArray l.sPort2.toNat := by
  simp [clk, ledCase, hreg]

theorem stateLedNext_clk (i : LedIn) (l : LedUnit) (hnext : (l.clk i).stateLedNext = .ledDone) :
    l.stateLedNext = .ledDone ∨ l.stateLedReg = .ledStartXmit := by
  cases hreg : l.stateLedReg <;> simp only [clk, ledCase, hreg] at hnext
  case ledStartXmit => exact .inr rfl
  case ledDelay =>
    split_ifs at hnext
    exact .inl hnext
  all_goals cases hnext

end LedUnit

namespace DisplaySender

/-! ## The bytes and the readings they are of -/

variable {s : DisplaySender} {s₀ : CalcSignals} {skip2 : Bool} {es : ℕ → DisplayEdge}
  {l : SampleLog LedIn UCHAR}

/-- What `uart_tx` takes at an edge. -/
def takes (s : DisplaySender) : Option UCHAR :=
  if s.uartTx.startRegRx = .idle ∧ s.led.startTx = true then some s.led.dataTx else none

/-- What was sampled and sent in a run. -/
def log (s₀ : CalcSignals) (skip2 : Bool) (es : ℕ → DisplayEdge) : ℕ → SampleLog LedIn UCHAR
  | 0 => .start
  | n + 1 =>
      let s := run s₀ skip2 es n
      (log s₀ skip2 es n).note (s.led.stateLedReg = .ledStart) s.takes (s.ledIn (es n))

/-- The array after a sampling. -/
def content : Option LedIn → ℕ → UCHAR
  | none => (LedUnit.reset false).ledDlArray
  | some i => LedUnit.sample i 0xFD (LedUnit.reset false).ledDlArray

theorem sample_content (i : LedIn) (x : Option LedIn) :
    LedUnit.sample i 0xFD (content x) = content (some i) := by
  funext j
  cases x with
  | none => rfl
  | some i' =>
      match j with
      | 0 | 1 | 2 | 3 | 4 | 5 | j + 6 => rfl

/-- The `k`-th byte is the element after that of the byte before, of inputs of the run. -/
def IsByte (p : LedIn → Prop) (k : ℕ) (x : Option LedIn) (b : UCHAR) : Prop :=
  (∃ i, x = some i ∧ p i) ∧ b = content x ((k + 1) % 6)

/-- Where `sPort2` and `skip2` are after so many bytes. -/
def places (skip2 : Bool) (n : ℕ) : StateLed → StateLed → ℕ × Bool
  | .ledIdle, .ledIdle => (n % 6, skip2)
  | .ledIdle, _ => ((n + skip2.toNat) % 6, !skip2)
  | .ledDone, _ => (n % 6, skip2)
  | _, _ => ((n + 1) % 6, skip2)

/-- The sender and its log. -/
structure Tracks (skip2 : Bool) (p : LedIn → Prop) (s : DisplaySender)
    (l : SampleLog LedIn UCHAR) : Prop where
  ledCmd : s.led.ledCmd = 0xFD
  array : s.led.ledDlArray = content l.last
  place : (s.led.sPort2.toNat, s.led.skip2) =
    places skip2 l.sent.length s.led.stateLedReg s.led.stateLedNext
  sampled : s.led.stateLedReg = .ledDelay ∨ s.led.stateLedReg = .ledStartXmit →
    ∃ i, l.last = some i ∧ p i
  data : s.led.stateLedReg = .ledStartXmit → s.led.stateLedNext = .ledDone →
    s.led.dataTx = s.led.ledDlArray s.led.sPort2.toNat
  each : l.Each (IsByte p)

theorem toNat_sPort2_next {sPort2 : BitVec 8} {n : ℕ} (h : sPort2.toNat = n % 6) :
    (if sPort2 > 4 then 0 else sPort2 + 1 : BitVec 8).toNat = (n + 1) % 6 := by
  split_ifs with hlast
  · have hlast : 4 < sPort2.toNat := hlast
    have hzero : (n + 1) % 6 = 0 := by omega
    rw [hzero]
    rfl
  · have hlast : ¬ 4 < sPort2.toNat := hlast
    have hone : (1 : BitVec 8).toNat = 1 := rfl
    rw [BitVec.toNat_add, hone]
    omega

theorem tracks_reset (s₀ : CalcSignals) (skip2 : Bool) (p : LedIn → Prop) :
    Tracks skip2 p (reset s₀ skip2) .start where
  ledCmd := rfl
  array := rfl
  place := rfl
  sampled := by
    rintro (h | h) <;> cases h
  data := by
    intro h
    cases h
  each := SampleLog.each_start

/-- A byte is taken at the first edge of its pulse, and no other is. -/
theorem InTime.takes (h : s.InTime) (hr : s.rReg < dvsrMu19200) :
    s.takes =
      if s.led.stateLedReg = .ledStartXmit ∧ s.led.stateLedNext = .ledDone then
        some s.led.dataTx
      else none := by
  rw [DisplaySender.takes]
  cases h with
  | pulse hreg hnext hstart hleft =>
      have hidle := (UartTx.clocksLeft_eq_zero_iff hr s.uartTx).mp hleft
      rw [if_pos ⟨hidle, hstart⟩, if_pos ⟨hreg, hnext⟩]
  | starting hreg hnext hstart => simp [hnext, hstart]
  | started hreg hnext hbusy => simp [hreg, hbusy]
  | resting hreg _ hstart | sampling hreg _ hstart | delaying hreg _ hstart
  | ending hreg _ hstart | leaving hreg _ hstart => simp [hreg, hstart]

/-- Which state comes before a delay, or before the start of a byte. -/
theorem InTime.reg_of_next (h : s.InTime)
    (hnext : s.led.stateLedNext = .ledDelay ∨ s.led.stateLedNext = .ledStartXmit) :
    s.led.stateLedReg = .ledStart ∨
      (s.led.stateLedReg = .ledDelay ∨ s.led.stateLedReg = .ledStartXmit) := by
  cases h with
  | sampling hreg => exact .inl hreg
  | delaying hreg | ending hreg => exact .inr (.inl hreg)
  | starting hreg | pulse hreg => exact .inr (.inr hreg)
  | resting _ hnext' => rcases hnext' with hnext' | hnext' <;> simp [hnext'] at hnext
  | started _ hnext' | leaving _ hnext' => simp [hnext'] at hnext

/-- An edge leaves `sPort2` and `skip2` where the number of bytes tells. -/
theorem Tracks.place_clk {p : LedIn → Prop} (h : Tracks skip2 p s l) (hinTime : s.InTime)
    (e : DisplayEdge) :
    ((s.clk e).led.sPort2.toNat, (s.clk e).led.skip2) =
      places skip2
        (if s.led.stateLedReg = .ledStartXmit ∧ s.led.stateLedNext = .ledDone then
          l.sent.length + 1
        else l.sent.length)
        (s.clk e).led.stateLedReg (s.clk e).led.stateLedNext := by
  have hplace := h.place
  have hclk : (s.clk e).led = s.led.clk (s.ledIn e) := rfl
  have hreg' : (s.led.clk (s.ledIn e)).stateLedReg = s.led.stateLedNext := rfl
  rw [hclk, LedUnit.sPort2_clk, LedUnit.skip2_clk, hreg']
  cases hinTime with
  | resting hreg hnext =>
      have hnext' : (s.led.clk (s.ledIn e)).stateLedNext = .ledStart := by
        simp [LedUnit.clk, LedUnit.ledCase, hreg]
      rcases hnext with hnext | hnext
      · simp only [hreg, hnext, places, Prod.mk.injEq] at hplace
        obtain ⟨hport, hskip⟩ := hplace
        simp only [hreg, hnext, hnext', places, hskip]
        cases skip2 with
        | true => simpa using toNat_sPort2_next hport
        | false => simpa using hport
      · simp only [hreg, hnext, places, Prod.mk.injEq] at hplace
        obtain ⟨hport, hskip⟩ := hplace
        simp only [hreg, hnext, hnext', places, hskip]
        cases skip2 with
        | true => simpa using hport
        | false => simpa using toNat_sPort2_next hport
  | sampling hreg hnext =>
      rcases hnext with hnext | hnext <;> simp_all [places]
  | delaying hreg hnext =>
      simp only [hreg, hnext, places] at hplace
      simp [hreg, hnext, places, hplace]
  | ending hreg hnext | starting hreg hnext | started hreg hnext | pulse hreg hnext =>
      simp only [hreg, hnext, places] at hplace
      simp [hreg, hnext, places, hplace]
  | leaving hreg hnext =>
      have hnext' : (s.led.clk (s.ledIn e)).stateLedNext = .ledIdle := by
        simp [LedUnit.clk, LedUnit.ledCase, hreg]
      simp only [hreg, hnext, places] at hplace
      simp [hreg, hnext, hnext', places, hplace]

theorem Tracks.clk {p : LedIn → Prop} (h : Tracks skip2 p s l) (hinTime : s.InTime)
    (hr : s.rReg < dvsrMu19200) {e : DisplayEdge} (hp : p (s.ledIn e)) :
    Tracks skip2 p (s.clk e)
      (l.note (s.led.stateLedReg = .ledStart) s.takes (s.ledIn e)) where
  ledCmd := (s.led.ledCmd_clk _).trans h.ledCmd
  array := by
    have hclk : (s.clk e).led = s.led.clk (s.ledIn e) := rfl
    rw [hclk, LedUnit.ledDlArray_clk, h.ledCmd, h.array, sample_content]
    by_cases hreg : s.led.stateLedReg = .ledStart
    · simp [hreg]
    · simp [hreg]
  place := by
    rw [h.place_clk hinTime e, hinTime.takes hr]
    split_ifs <;> simp
  sampled := by
    intro hnext
    rcases hinTime.reg_of_next hnext with hreg | hreg
    · exact ⟨s.ledIn e, by simp [hreg], hp⟩
    · have hother : s.led.stateLedReg ≠ .ledStart := by
        rcases hreg with hreg | hreg <;> rw [hreg] <;> decide
      simpa [hother] using h.sampled hreg
  data := by
    intro hreg' hnext'
    have hclk : (s.clk e).led = s.led.clk (s.ledIn e) := rfl
    have hnext : s.led.stateLedNext = .ledStartXmit := hreg'
    have hreg : s.led.stateLedReg = .ledStartXmit :=
      (s.led.stateLedNext_clk _ hnext').resolve_left (by simp [hnext])
    rw [hclk, LedUnit.dataTx_clk _ _ hreg, LedUnit.ledDlArray_clk, LedUnit.sPort2_clk]
    simp [hreg]
  each := by
    refine h.each.note ?_ _
    intro b hb
    rw [hinTime.takes hr] at hb
    split_ifs at hb with hpulse
    obtain ⟨hreg, hnext⟩ := hpulse
    have hplace := h.place
    rw [hreg, hnext] at hplace
    refine ⟨h.sampled (.inr hreg), ?_⟩
    rw [← Option.some_inj.mp hb, h.data hreg hnext, h.array, (Prod.mk.inj hplace).1]

/-! ## The words of the display -/

end DisplaySender

namespace Xmega

/-- The revolutions that the interrupt puts together, if it does. -/
def rpmWord (s : Xmega) (ch : UCHAR) : Option (BitVec 16) :=
  if ch ≠ 0xFF#8 ∧ s.digit = 1 then some (s.rpm ||| ch.setWidth 16 <<< 8) else none

/-- The speed that it puts together. -/
def mphWord (s : Xmega) (ch : UCHAR) : Option (BitVec 16) :=
  if ch ≠ 0xFF#8 ∧ s.digit = 3 then some (s.mph ||| ch.setWidth 16 <<< 8) else none

/-- After the bytes `ts 0` to `ts n`, the first of them the marker of a frame. -/
structure InFrame (ts : ℕ → UCHAR) (n : ℕ) (s : Xmega) : Prop where
  digit : s.digit = (n % 6 : ℕ)
  rpm : n % 6 = 1 → s.rpm = (ts n).setWidth 16
  mph : n % 6 = 3 → s.mph = (ts n).setWidth 16

theorem InFrame.recvISR {ts : ℕ → UCHAR} {n : ℕ} {s : Xmega} (h : InFrame ts n s)
    (hmarker : (n + 1) % 6 = 0 → ts (n + 1) = 0xFF#8)
    (hplain : (n + 1) % 6 ≠ 0 → ts (n + 1) ≠ 0xFF#8) :
    InFrame ts (n + 1) (s.recvISR (ts (n + 1))) := by
  by_cases hlast : (n + 1) % 6 = 0
  · rw [hmarker hlast, recvISR_marker]
    refine ⟨by simp [hlast], by simp [hlast], by simp [hlast]⟩
  · have hbyte := hplain hlast
    have hdigit := h.digit
    refine ⟨?_, ?_, ?_⟩
    · rw [digit_recvISR _ hbyte, hdigit]
      rw [if_pos (by omega)]
      omega
    · intro hone
      exact rpm_recvISR hbyte (by omega)
    · intro hthree
      exact mph_recvISR hbyte (by omega)

theorem InFrame.rpmWord {ts : ℕ → UCHAR} {n : ℕ} {s : Xmega} (h : InFrame ts n s) {ch : UCHAR}
    {w : BitVec 16} (hw : s.rpmWord ch = some w) : n % 6 = 1 ∧ w = Word.join (ts n) ch := by
  rw [Xmega.rpmWord] at hw
  split_ifs at hw with hword
  have hone : n % 6 = 1 := by
    have hdigit := h.digit
    omega
  rw [h.rpm hone, Option.some_inj] at hw
  exact ⟨hone, hw.symm⟩

theorem InFrame.mphWord {ts : ℕ → UCHAR} {n : ℕ} {s : Xmega} (h : InFrame ts n s) {ch : UCHAR}
    {w : BitVec 16} (hw : s.mphWord ch = some w) : n % 6 = 3 ∧ w = Word.join (ts n) ch := by
  rw [Xmega.mphWord] at hw
  split_ifs at hw with hword
  have hthree : n % 6 = 3 := by
    have hdigit := h.digit
    omega
  rw [h.mph hthree, Option.some_inj] at hw
  exact ⟨hthree, hw.symm⟩

end Xmega

namespace DisplaySender

variable {s₀ : CalcSignals} {skip2 : Bool} {es : ℕ → DisplayEdge}

/-- The readings are of one instant of the run. -/
def Held (es : ℕ → DisplayEdge) (i : LedIn) : Prop :=
  ∃ t, (es t).rpmResult = i.rpmResult ∧ (es t).mphResult = i.mphResult

theorem tracks_log (h : ∀ n, (run s₀ skip2 es n).Finished) (n : ℕ) :
    Tracks skip2 (Held es) (run s₀ skip2 es n) (log s₀ skip2 es n) := by
  induction n with
  | zero => exact tracks_reset s₀ skip2 _
  | succ n ih => exact ih.clk (inTime_run h n) (rReg_run s₀ skip2 es n) ⟨n, rfl, rfl⟩

/-- Between the two bytes of a word the sampled value changes in one of them at most. -/
def WholeWords (l : SampleLog LedIn UCHAR) : Prop :=
  ∀ k i j b c, l.sent[k]? = some (some i, b) → l.sent[k + 1]? = some (some j, c) →
    ((k + 1) % 6 = 1 → Word.OneByte i.rpmResult j.rpmResult) ∧
      ((k + 1) % 6 = 3 → Word.OneByte i.mphResult j.mphResult)

/-- Only markers look like markers. -/
def PlainBytes (l : SampleLog LedIn UCHAR) : Prop :=
  l.Each fun k _ b => (k + 1) % 6 ≠ 0 → b ≠ 0xFF#8

/-- The bytes from the `k`-th marker on. -/
def fromMarker (l : SampleLog LedIn UCHAR) (k m : ℕ) : UCHAR := l.elements.getD (6 * k + 5 + m) 0

/-- The interrupt after the first `m + 1` of them. -/
def displayed (x : Xmega) (ts : ℕ → UCHAR) (m : ℕ) : Xmega :=
  Transition.exec Xmega.recvISR x ((List.range (m + 1)).map ts)

theorem inFrame_displayed {p : LedIn → Prop} {l : SampleLog LedIn UCHAR}
    (heach : l.Each (IsByte p)) (hplain : PlainBytes l) {k m : ℕ}
    (hm : 6 * k + 5 + m < l.elements.length) (x : Xmega) :
    Xmega.InFrame (fromMarker l k) m (displayed x (fromMarker l k) m) := by
  have hmarker {m : ℕ} (hm : 6 * k + 5 + m < l.elements.length) (hzero : m % 6 = 0) :
      fromMarker l k m = 0xFF#8 := by
    obtain ⟨y, -, ⟨i, rfl, -⟩, hbyte⟩ := heach.getD hm 0
    have hindex : (6 * k + 5 + m + 1) % 6 = 0 := by omega
    rw [hindex] at hbyte
    exact hbyte
  have hother {m : ℕ} (hm : 6 * k + 5 + m < l.elements.length) (hne : m % 6 ≠ 0) :
      fromMarker l k m ≠ 0xFF#8 := by
    obtain ⟨y, -, hbyte⟩ := hplain.getD hm 0
    exact hbyte (by omega)
  induction m with
  | zero =>
      rw [displayed, List.range_one, List.map_singleton, Transition.exec_cons,
        Transition.exec_nil, hmarker hm rfl, Xmega.recvISR_marker]
      exact ⟨rfl, by simp, by simp⟩
  | succ m ih =>
      have hnext := (ih (by omega)).recvISR (fun hzero => hmarker hm hzero)
        fun hne => hother hm hne
      rw [displayed, List.range_succ, List.map_append, Transition.exec_append]
      exact hnext

/-- The two bytes of a word are of one instant. -/
theorem joined_held {p : LedIn → Prop} {l : SampleLog LedIn UCHAR} (heach : l.Each (IsByte p))
    (hwhole : WholeWords l) {q : ℕ} (hq : q + 1 < l.elements.length) :
    ((q + 1) % 6 = 1 → ∃ i, p i ∧
      i.rpmResult = Word.join (l.elements.getD q 0) (l.elements.getD (q + 1) 0)) ∧
      ((q + 1) % 6 = 3 → ∃ i, p i ∧
        i.mphResult = Word.join (l.elements.getD q 0) (l.elements.getD (q + 1) 0)) := by
  obtain ⟨-, hlow, ⟨i, rfl, hi⟩, hbyte⟩ := heach.getD (Nat.lt_of_succ_lt hq) 0
  obtain ⟨-, hhigh, ⟨j, rfl, hj⟩, hbyte'⟩ := heach.getD hq 0
  obtain ⟨hrpm, hmph⟩ := hwhole q i j _ _ hlow hhigh
  rw [hbyte, hbyte']
  refine ⟨?_, ?_⟩
  · intro hone
    have htwo : (q + 1 + 1) % 6 = 2 := by omega
    rw [hone, htwo]
    exact Word.join_reading LedIn.rpmResult hi hj (hrpm hone)
  · intro hthree
    have hfour : (q + 1 + 1) % 6 = 4 := by omega
    rw [hthree, hfour]
    exact Word.join_reading LedIn.mphResult hi hj (hmph hthree)

/-- What the bytes of a run must be for the words of the display: none is dropped or taken for
a marker, and no word changes in both bytes while it is sent. -/
structure Undisturbed (s₀ : CalcSignals) (skip2 : Bool) (es : ℕ → DisplayEdge) (n : ℕ) : Prop where
  finished : ∀ i, (run s₀ skip2 es i).Finished
  whole : WholeWords (log s₀ skip2 es n)
  plain : PlainBytes (log s₀ skip2 es n)

/-- The words that the display puts together of these bytes are values of one instant. -/
def WordsHeld (es : ℕ → DisplayEdge) (x : Xmega) (ts : ℕ → UCHAR) (n : ℕ) : Prop :=
  ∀ m, m + 1 < n →
    (∀ w, (displayed x ts m).rpmWord (ts (m + 1)) = some w → ∃ t, (es t).rpmResult = w) ∧
      ∀ w, (displayed x ts m).mphWord (ts (m + 1)) = some w → ∃ t, (es t).mphResult = w

theorem Undisturbed.wordsHeld {n : ℕ} (h : Undisturbed s₀ skip2 es n) (k : ℕ) (x : Xmega) :
    WordsHeld es x (fromMarker (log s₀ skip2 es n) k)
      ((log s₀ skip2 es n).elements.length - (6 * k + 5)) := by
  intro m hm
  have heach := (tracks_log h.finished n).each
  have hframe := inFrame_displayed heach h.plain (k := k) (m := m) (by omega) x
  obtain ⟨hrpm, hmph⟩ := joined_held heach h.whole (q := 6 * k + 5 + m) (by omega)
  refine ⟨?_, ?_⟩
  · intro w hw
    obtain ⟨hone, rfl⟩ := hframe.rpmWord hw
    obtain ⟨i, ⟨t, hheld, -⟩, heq⟩ := hrpm (by omega)
    exact ⟨t, hheld.trans heq⟩
  · intro w hw
    obtain ⟨hthree, rfl⟩ := hframe.mphWord hw
    obtain ⟨i, ⟨t, -, hheld⟩, heq⟩ := hmph (by omega)
    exact ⟨t, hheld.trans heq⟩

end DisplaySender

end TruckControl
