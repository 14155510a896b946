import TruckControl.Model.Xmega

/-!
# The dash display link

The marker of a frame may stand in a word of the frame too, and there it is taken for a
marker.
-/

namespace TruckControl

/-- No byte of the word is the marker. -/
def Plain (w : BitVec 16) : Prop := Word.low w ≠ 0xFF#8 ∧ Word.high w ≠ 0xFF#8

instance (w : BitVec 16) : Decidable (Plain w) := inferInstanceAs (Decidable (_ ∧ _))

theorem plain_join {lo hi : UCHAR} (hlo : lo ≠ 0xFF#8) (hhi : hi ≠ 0xFF#8) :
    Plain (Word.join lo hi) := by
  rw [Plain, Word.low_join, Word.high_join]
  exact ⟨hlo, hhi⟩

namespace Xmega

/-! ## Frames without a marker in their words -/

/-- What the display shows is the frame. -/
def Shows (s : Xmega) (f : DisplayFrame) : Prop := s.rpm2 = f.rpm ∧ s.mph2 = f.mph

instance (s : Xmega) (f : DisplayFrame) : Decidable (s.Shows f) :=
  inferInstanceAs (Decidable (_ ∧ _))

/-- The two bytes behind the marker. -/
theorem recvISR_rpm {s : Xmega} (h : s.digit = 0) {w : BitVec 16} (hw : Plain w) :
    ((s.recvISR (Word.low w)).recvISR (Word.high w)).rpm2 = w ∧
      ((s.recvISR (Word.low w)).recvISR (Word.high w)).digit = 2 := by
  have hlow : (s.recvISR (Word.low w)).digit = 1 := by
    rw [digit_recvISR _ hw.1, h]
    rfl
  constructor
  · rw [rpm2_recvISR, if_pos ⟨hw.2, hlow⟩, rpm_recvISR hw.1 h]
    exact Word.join_low_high w
  · rw [digit_recvISR _ hw.2, hlow]
    rfl

/-- The two bytes after these. -/
theorem recvISR_mph {s : Xmega} (h : s.digit = 2) {w : BitVec 16} (hw : Plain w) :
    ((s.recvISR (Word.low w)).recvISR (Word.high w)).mph2 = w ∧
      ((s.recvISR (Word.low w)).recvISR (Word.high w)).rpm2 = s.rpm2 ∧
      ((s.recvISR (Word.low w)).recvISR (Word.high w)).digit = 4 := by
  have hlow : (s.recvISR (Word.low w)).digit = 3 := by
    rw [digit_recvISR _ hw.1, h]
    rfl
  refine ⟨?_, ?_, ?_⟩
  · rw [mph2_recvISR, if_pos ⟨hw.2, hlow⟩, mph_recvISR hw.1 h]
    exact Word.join_low_high w
  · rw [rpm2_recvISR, if_neg (by simp [hlow]), rpm2_recvISR, if_neg (by simp [h])]
  · rw [digit_recvISR _ hw.2, hlow]
    rfl

/-- A frame is shown, whatever came before it; its last byte may be anything. -/
theorem shows_recvFrame (s : Xmega) {f : DisplayFrame} (hrpm : Plain f.rpm)
    (hmph : Plain f.mph) : (s.recvFrame f).Shows f := by
  have hmarker : (s.recvISR 0xFF#8).digit = 0 := by rw [recvISR_marker]
  obtain ⟨hrpm2, hdigit⟩ := recvISR_rpm hmarker hrpm
  obtain ⟨hmph2, hkept, hlast⟩ := recvISR_mph hdigit hmph
  rw [Shows, recvFrame, DisplayFrame.bytes]
  simp only [Transition.exec_cons, Transition.exec_nil]
  rw [rpm2_recvISR, if_neg (by simp [hlast]), mph2_recvISR, if_neg (by simp [hlast])]
  exact ⟨hkept.trans hrpm2, hmph2⟩

/-! ## What can be shown at all -/

/-- Neither what is shown nor what is half read has a marker in it. -/
structure Clean (s : Xmega) : Prop where
  rpm2 : Plain s.rpm2
  mph2 : Plain s.mph2
  rpm : s.digit = 1 → ∃ b : UCHAR, b ≠ 0xFF#8 ∧ s.rpm = b.setWidth 16
  mph : s.digit = 3 → ∃ b : UCHAR, b ≠ 0xFF#8 ∧ s.mph = b.setWidth 16

theorem Clean.recvISR {s : Xmega} (h : s.Clean) (ch : UCHAR) : (s.recvISR ch).Clean := by
  by_cases hch : ch = 0xFF#8
  · rw [hch, recvISR_marker]
    refine ⟨h.rpm2, h.mph2, ?_, ?_⟩
    · intro hdigit
      cases hdigit
    · intro hdigit
      cases hdigit
  · have hdigit := s.digit_recvISR hch
    refine ⟨?_, ?_, ?_, ?_⟩
    · rw [rpm2_recvISR]
      split_ifs with hsecond
      · obtain ⟨b, hb, hrpm⟩ := h.rpm hsecond.2
        rw [hrpm]
        exact plain_join hb hch
      · exact h.rpm2
    · rw [mph2_recvISR]
      split_ifs with hsecond
      · obtain ⟨b, hb, hmph⟩ := h.mph hsecond.2
        rw [hmph]
        exact plain_join hb hch
      · exact h.mph2
    · intro hone
      have hzero : s.digit = 0 := by
        rw [hdigit] at hone
        split_ifs at hone <;> omega
      exact ⟨ch, hch, rpm_recvISR hch hzero⟩
    · intro hthree
      have htwo : s.digit = 2 := by
        rw [hdigit] at hthree
        split_ifs at hthree <;> omega
      exact ⟨ch, hch, mph_recvISR hch htwo⟩

theorem Clean.recvFrame {s : Xmega} (h : s.Clean) (f : DisplayFrame) : (s.recvFrame f).Clean :=
  Transition.inv_exec (fun _ ch h => h.recvISR ch) f.bytes h

/-! ## Any frames -/

/-- After each frame it is the frame that is shown. -/
def Follows (s : Xmega) (frames : List DisplayFrame) : Prop :=
  Transition.Meets recvFrame (fun s f => (s.recvFrame f).Shows f) s frames

instance (s : Xmega) (frames : List DisplayFrame) : Decidable (s.Follows frames) :=
  inferInstanceAs (Decidable (Transition.Meets _ _ _ _))

theorem follows_of_plain (s : Xmega) {frames : List DisplayFrame}
    (h : ∀ f ∈ frames, Plain f.rpm ∧ Plain f.mph) : s.Follows frames := by
  induction frames generalizing s with
  | nil => trivial
  | cons f frames ih =>
      obtain ⟨⟨hrpm, hmph⟩, hrest⟩ := List.forall_mem_cons.mp h
      exact ⟨s.shows_recvFrame hrpm hmph, ih (s.recvFrame f) hrest⟩

/-- From a state without markers, which is what no interrupt can bring in, the frames are
shown exactly when they have none. -/
theorem follows_iff_of_clean {s : Xmega} (h : s.Clean) (frames : List DisplayFrame) :
    s.Follows frames ↔ ∀ f ∈ frames, Plain f.rpm ∧ Plain f.mph := by
  constructor
  · intro hall
    rw [Follows] at hall
    induction frames generalizing s with
    | nil => simp
    | cons f frames ih =>
        have hclean := h.recvFrame f
        obtain ⟨hrpm, hmph⟩ := hall.1
        have hplain : Plain f.rpm ∧ Plain f.mph := by
          rw [← hrpm, ← hmph]
          exact ⟨hclean.rpm2, hclean.mph2⟩
        exact List.forall_mem_cons.mpr ⟨hplain, ih hclean hall.2⟩
  · intro hall
    exact s.follows_of_plain hall

/-- The state before the first interrupt. -/
def init : Xmega := ⟨0, 6010, 10, 0, 0, 0xFF, 0xFF, 0, 0, 0⟩

theorem clean_init : init.Clean := by
  refine ⟨by decide, by decide, ?_, ?_⟩
  · intro h
    cases h
  · intro h
    cases h

/-- Frames are shown from every state of the interrupt exactly when no byte of their
revolutions and speeds is the marker. -/
theorem follows_iff (frames : List DisplayFrame) :
    (∀ s : Xmega, s.Follows frames) ↔ ∀ f ∈ frames, Plain f.rpm ∧ Plain f.mph := by
  constructor
  · intro h
    exact (follows_iff_of_clean clean_init frames).mp (h init)
  · intro h s
    exact s.follows_of_plain h

/-- At 255 revolutions, and at 0x34 miles, the display shows the bytes that come next. -/
theorem not_follows_marker :
    ¬ init.Follows [⟨0x00FF, 0x0034, 0⟩] ∧
      (init.recvFrame ⟨0x00FF, 0x0034, 0⟩).rpm2 = 0x3400 := by
  decide

end Xmega

end TruckControl
