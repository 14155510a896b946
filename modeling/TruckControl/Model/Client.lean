import TruckControl.Library.Resync
import TruckControl.Model.Tcp

/-! # The two ends of the socket as receivers: the client and `get_msg` -/

namespace TruckControl

/-! ## Texts -/

/-- A text that `send_msg` is called with; `after i` lies `i` bytes behind its beginning,
where it and its NUL end before that. -/
structure TextMsg where
  text : List UCHAR
  after : ℕ → UCHAR
  msgType : UCHAR
  strlen : 0#8 ∉ text

/-- `send_msg(2 * strlen(text), text, type)`. -/
def TextMsg.sendMsg (m : TextMsg) : SendMsg where
  msgLen := 2 * m.text.length
  msg i := (m.text ++ [0#8]).getD i (m.after i)
  msgType := m.msgType

/-! ## `Preamble` -/

def sizePacketLength : ℕ := 16

/-- `BitConverter.GetBytes(preamble)`. -/
def correctPreamble : List UCHAR :=
  (List.range 8).map fun i => (0x00F0F0F0F0F0F0F8#64 >>> (8 * i)).setWidth 8

theorem correctPreamble_eq : correctPreamble = prePreamble := by decide

/-- `BitConverter.ToInt32`. -/
def toInt32 (bytes : List UCHAR) (i : ℕ) : ℤ :=
  (bytes.getD (i + 3) 0 ++ bytes.getD (i + 2) 0 ++ bytes.getD (i + 1) 0 ++ bytes.getD i 0 :
    BitVec 32).toInt

/-- `ToShouldReceive`. -/
def toShouldReceive (preamblePacket : List UCHAR) : ℤ :=
  if preamblePacket.take 8 ≠ correctPreamble ∨ toInt32 preamblePacket 8 < 0 then -1
  else toInt32 preamblePacket 8

/-! ## The client -/

/-- How much `onReceived` asks for behind a header; nothing if it is corrupted. -/
def shouldReceive (preamblePacket : List UCHAR) : Option ℕ :=
  if toShouldReceive preamblePacket < 0 then none
  else some (toShouldReceive preamblePacket).toNat

/-- The client reads a stream, in pieces of any size; `Resync.search` is `CheckPreamble`. -/
def OnReceived :
    Resync.Receiver UCHAR → List UCHAR → Resync.Receiver UCHAR → List (List UCHAR) → Prop :=
  Resync.Feeds correctPreamble sizePacketLength shouldReceive

/-- A character of `chars`, to which the bytes were copied; an array is zero at first. -/
def charAt (bytes : List UCHAR) (i : ℕ) : BitVec 16 :=
  bytes.getD (2 * i + 1) 0 ++ bytes.getD (2 * i) 0

/-- `type_msg` and `ret` of `Process_Msg`; copying from byte 2 on needs two bytes. -/
def processMsg (bytes : List UCHAR) : Option (BitVec 16 × List (BitVec 16)) :=
  if bytes.length < 2 then none
  else some (charAt bytes 0, (List.range (bytes.length / 2)).map (charAt (bytes.drop 2)))

/-- What was sent, as the client has it. -/
def TextMsg.received (m : TextMsg) : BitVec 16 × List (BitVec 16) :=
  (m.msgType.setWidth 16, m.text.map fun b => b.setWidth 16)

/-! ## The server -/

/-- `get_msg` on the sixteen bytes it has read; `none` is -1. -/
def getMsg (preamble : List UCHAR) : Option ℕ :=
  if preamble.take 8 ≠ prePreamble then none
  else some ((preamble.getD 9 0).toNat <<< 8 ||| (preamble.getD 8 0).toNat)

/-- A stream read by the rule of `get_msg`: headers of sixteen bytes, each followed by as
many bytes as it says. -/
def getMsgs (stream : List UCHAR) : Option (List (List UCHAR)) :=
  if stream = [] then some []
  else if _ : stream.length < 16 then none
  else
    match getMsg (stream.take 16) with
    | none => none
    | some len =>
        if len ≤ stream.length - 16 then
          (getMsgs (stream.drop (16 + len))).map fun rest => (stream.drop 16).take len :: rest
        else none
termination_by stream.length
decreasing_by
  rw [List.length_drop]
  omega

end TruckControl
