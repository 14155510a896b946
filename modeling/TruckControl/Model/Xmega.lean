import Mathlib.Data.Int.Notation
import TruckControl.Library.Transition
import TruckControl.Library.Word
import TruckControl.Model.Commands

/-! # The XMEGA of the dash display -/

namespace TruckControl

/-- The variables of `ISR(USARTC0_RXC_vect)`. -/
structure Xmega where
  digit : ℤ
  rpm : BitVec 16
  mph : BitVec 16
  rpm2 : BitVec 16
  mph2 : BitVec 16
  cmd : UCHAR
  cmd2 : UCHAR
  doneRpm : ℤ
  doneMph : ℤ
  doneCmd : ℤ

namespace Xmega

/-- `ISR(USARTC0_RXC_vect)` on the received byte. -/
def recvISR (s : Xmega) (ch : UCHAR) : Xmega :=
  if ch = 0xFF#8 then { s with digit := 0, rpm := 0, mph := 0 }
  else
    match s.digit with
    | 0 => { s with digit := 1, rpm := ch.setWidth 16 }
    | 1 =>
        let rpm := s.rpm ||| ch.setWidth 16 <<< 8
        if rpm ≠ s.rpm2 then { s with digit := 2, rpm2 := rpm, doneRpm := 1, rpm := 0 }
        else { s with digit := 2, rpm := rpm }
    | 2 => { s with digit := 3, mph := ch.setWidth 16 }
    | 3 =>
        let mph := s.mph ||| ch.setWidth 16 <<< 8
        if mph ≠ s.mph2 then { s with digit := 4, mph2 := mph, doneMph := 1, mph := 0 }
        else { s with digit := 4, mph := mph }
    | 4 =>
        if ch ≠ s.cmd2 then { s with digit := 5, cmd := ch, cmd2 := ch, doneCmd := 1 }
        else { s with digit := 5, cmd := ch }
    | _ => s

/-- After the marker. -/
theorem recvISR_marker (s : Xmega) :
    s.recvISR 0xFF#8 = { s with digit := 0, rpm := 0, mph := 0 } := by
  rw [recvISR, if_pos rfl]

theorem digit_recvISR (s : Xmega) {ch : UCHAR} (hch : ch ≠ 0xFF#8) :
    (s.recvISR ch).digit = if 0 ≤ s.digit ∧ s.digit ≤ 4 then s.digit + 1 else s.digit := by
  simp only [recvISR, if_neg hch]
  split <;> (try split_ifs) <;> simp_all
  omega

theorem rpm_recvISR {s : Xmega} {ch : UCHAR} (hch : ch ≠ 0xFF#8) (h : s.digit = 0) :
    (s.recvISR ch).rpm = ch.setWidth 16 := by
  simp only [recvISR, if_neg hch, h]

theorem mph_recvISR {s : Xmega} {ch : UCHAR} (hch : ch ≠ 0xFF#8) (h : s.digit = 2) :
    (s.recvISR ch).mph = ch.setWidth 16 := by
  simp only [recvISR, if_neg hch, h]

/-- The word is shown with its second byte, new or not. -/
theorem rpm2_recvISR (s : Xmega) (ch : UCHAR) :
    (s.recvISR ch).rpm2 =
      if ch ≠ 0xFF#8 ∧ s.digit = 1 then s.rpm ||| ch.setWidth 16 <<< 8 else s.rpm2 := by
  rw [recvISR]
  by_cases hch : ch = 0xFF#8
  · simp [hch]
  · simp only [if_neg hch]
    split <;> (try split_ifs) <;> simp_all

theorem mph2_recvISR (s : Xmega) (ch : UCHAR) :
    (s.recvISR ch).mph2 =
      if ch ≠ 0xFF#8 ∧ s.digit = 3 then s.mph ||| ch.setWidth 16 <<< 8 else s.mph2 := by
  rw [recvISR]
  by_cases hch : ch = 0xFF#8
  · simp [hch]
  · simp only [if_neg hch]
    split <;> (try split_ifs) <;> simp_all

end Xmega

/-! ## The frames of the FPGA -/

/-- What is shown on the dash. -/
structure DisplayFrame where
  rpm : BitVec 16
  mph : BitVec 16
  ledCmd : UCHAR
  deriving DecidableEq, Repr

def DisplayFrame.bytes (f : DisplayFrame) : List UCHAR :=
  [0xFF, Word.low f.rpm, Word.high f.rpm, Word.low f.mph, Word.high f.mph, f.ledCmd]

/-- The interrupts of a whole frame. -/
def Xmega.recvFrame (s : Xmega) (f : DisplayFrame) : Xmega :=
  Transition.exec Xmega.recvISR s f.bytes

end TruckControl
