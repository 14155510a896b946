import TruckControl.Library.MarkedFrames
import TruckControl.Library.Transition
import TruckControl.Model.Tcp

/-! # The serial line from the STM32 to the TS-7200 -/

namespace TruckControl

open MarkedFrames

/-- The byte in front of a frame. -/
def marker : UCHAR := 0xFF

/-! ## The bytes of a message -/

/-- `var64 <<= 8; var64 |= (uint64_t)b;` -/
def pushByte (var64 : BitVec 64) (b : UCHAR) : BitVec 64 := var64 <<< 8 ||| b.setWidth 64

/-- `pack64`, on the bytes at `buff[0]` to `buff[7]`. -/
def pack64 (buff : ℕ → UCHAR) : BitVec 64 :=
  let var64 := (buff 7).setWidth 64
  let var64 := pushByte var64 (buff 6)
  let var64 := pushByte var64 (buff 5)
  let var64 := pushByte var64 (buff 4)
  let var64 := pushByte var64 (buff 3)
  let var64 := pushByte var64 (buff 2)
  let var64 := pushByte var64 (buff 1)
  pushByte var64 (buff 0)

/-- `StartTask7200` moves the low byte of `avr_buffer[0]` to `ucbuff[i]`. -/
def takeByte (s : List UCHAR × BitVec 64) (i : ℕ) : List UCHAR × BitVec 64 :=
  (s.1.set i (s.2.setWidth 8), s.2 >>> 8)

/-- The first eight bytes of `ucbuff` are overwritten, and the others kept. -/
def unpack (ucbuff : List UCHAR) (avrBuffer : BitVec 64) : List UCHAR :=
  ((List.range 8).foldl takeByte (ucbuff, avrBuffer)).1

/-- What a frame leaves in `read_serial_buffer`. -/
def readSerialBuffer (buff : ℕ → UCHAR) : List UCHAR :=
  (List.range 8).map buff ++ List.replicate (serialBuffSize - 8) 0#8

theorem length_readSerialBuffer (buff : ℕ → UCHAR) :
    (readSerialBuffer buff).length = serialBuffSize := by
  simp [readSerialBuffer, serialBuffSize]

theorem getLsbD_pushByte (var64 : BitVec 64) (b : UCHAR) (i : ℕ) :
    (pushByte var64 b).getLsbD i =
      if i < 8 then b.getLsbD i else decide (i < 64) && var64.getLsbD (i - 8) := by
  simp only [pushByte, BitVec.getLsbD_or, BitVec.getLsbD_shiftLeft, BitVec.getLsbD_setWidth]
  by_cases hi : i < 8
  · have hlt : i < 64 := by omega
    simp [hi, hlt]
  · have hb : b.getLsbD i = false := BitVec.getLsbD_of_ge b i (by omega)
    simp [hi, hb]

theorem setWidth_pushByte (var64 : BitVec 64) (b : UCHAR) :
    (pushByte var64 b).setWidth 8 = b := by
  apply BitVec.eq_of_getLsbD_eq
  intro i hi
  rw [BitVec.getLsbD_setWidth, getLsbD_pushByte, if_pos hi]
  simp [hi]

/-- All bits from `n` on are zero. -/
def BelowBit (n : ℕ) (var64 : BitVec 64) : Prop := ∀ i, n ≤ i → var64.getLsbD i = false

theorem belowBit_setWidth (b : UCHAR) : BelowBit 8 (b.setWidth 64) := by
  intro i hi
  rw [BitVec.getLsbD_setWidth, BitVec.getLsbD_of_ge b i hi, Bool.and_false]

theorem BelowBit.pushByte {n : ℕ} {var64 : BitVec 64} (h : BelowBit n var64) (b : UCHAR) :
    BelowBit (n + 8) (pushByte var64 b) := by
  intro i hi
  rw [getLsbD_pushByte, if_neg (by omega), h (i - 8) (by omega), Bool.and_false]

theorem pushByte_shift {n : ℕ} (hn : n ≤ 56) {var64 : BitVec 64} (h : BelowBit n var64)
    (b : UCHAR) : pushByte var64 b >>> 8 = var64 := by
  apply BitVec.eq_of_getLsbD_eq
  intro i hi
  rw [BitVec.getLsbD_ushiftRight, getLsbD_pushByte, if_neg (by omega), Nat.add_sub_cancel_left]
  by_cases hlow : i < 56
  · have hlt : 8 + i < 64 := by omega
    simp [hlt]
  · rw [h i (by omega), Bool.and_false]

/-- Unpacking gives back what was packed, in front of what `ucbuff` held. -/
theorem unpack_pack64 (ucbuff : List UCHAR) (hlen : 8 ≤ ucbuff.length) (buff : ℕ → UCHAR) :
    unpack ucbuff (pack64 buff) = (List.range 8).map buff ++ ucbuff.drop 8 := by
  obtain ⟨a, b, c, d, e, f, g, h, rest, rfl⟩ : ∃ a b c d e f g h rest,
      ucbuff = a :: b :: c :: d :: e :: f :: g :: h :: rest := by
    match ucbuff, hlen with
    | a :: b :: c :: d :: e :: f :: g :: h :: rest, _ => exact ⟨a, b, c, d, e, f, g, h, rest, rfl⟩
  have h7 := belowBit_setWidth (buff 7)
  have h6 := h7.pushByte (buff 6)
  have h5 := h6.pushByte (buff 5)
  have h4 := h5.pushByte (buff 4)
  have h3 := h4.pushByte (buff 3)
  have h2 := h3.pushByte (buff 2)
  have h1 := h2.pushByte (buff 1)
  simp only [unpack, pack64, List.range_succ, List.range_zero, List.nil_append, List.foldl_append,
    List.foldl_cons, List.foldl_nil, takeByte, setWidth_pushByte,
    pushByte_shift (by decide) h1, pushByte_shift (by decide) h2, pushByte_shift (by decide) h3,
    pushByte_shift (by decide) h4, pushByte_shift (by decide) h5, pushByte_shift (by decide) h6,
    pushByte_shift (by decide) h7]
  simp

/-! ## The line -/

/-- The queue of `StartTask7200`, its buffer, the bytes under way and the reading loop of
`serial_recv_task`. `accepted` and `read` record what the queue has taken and what
`read_serial_buffer` held after each frame. -/
structure SerialLine where
  serverUp : ℕ
  send7200 : List (BitVec 64)
  ucbuff : List UCHAR
  line : List UCHAR
  reader : Receiver UCHAR
  accepted : List (ℕ → UCHAR)
  read : List (List UCHAR)

inductive LineEvent where
  /-- Some task of the STM32 packs a message and puts it on the queue. -/
  | xQueueSend (buff : ℕ → UCHAR)
  /-- `StartTask7200` takes a message and transmits it. -/
  | startTask7200
  /-- `read_serial` returns. -/
  | readSerial

namespace SerialLine

def step (s : SerialLine) : LineEvent → SerialLine
  | .xQueueSend buff =>
      if s.send7200.length < 10 then
        { s with send7200 := s.send7200 ++ [pack64 buff], accepted := s.accepted ++ [buff] }
      else s
  | .startTask7200 =>
      match s.send7200 with
      | [] => s
      | avrBuffer :: rest =>
          let ucbuff := unpack s.ucbuff avrBuffer
          { s with
            send7200 := rest
            ucbuff := ucbuff
            line := s.line ++ if s.serverUp = 1 then frame marker ucbuff else [] }
  | .readSerial =>
      match s.line with
      | [] => s
      | ch :: rest =>
          let got := recv marker serialBuffSize s.reader ch
          { s with line := rest, reader := got.1, read := s.read ++ got.2 }

/-- The server is up, and `serial_recv_task` begins to hunt with nothing under way. The
bytes `old` of an earlier message may be left in `ucbuff`, which was zeroed once. -/
def start (old : ℕ → UCHAR) : SerialLine where
  serverUp := 1
  send7200 := []
  ucbuff := readSerialBuffer old
  line := []
  reader := .hunting
  accepted := []
  read := []

end SerialLine

end TruckControl
