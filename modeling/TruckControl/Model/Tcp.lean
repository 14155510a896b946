import TruckControl.Library.Interleaving
import TruckControl.Model.Commands

/-! # What the tasks write to the socket and to the serial port -/

namespace TruckControl

/-- `pre_preamble`. -/
def prePreamble : List UCHAR := [0xF8, 0xF0, 0xF0, 0xF0, 0xF0, 0xF0, 0xF0, 0x00]

/-- The arguments of a call of `send_msg`; `msg i` is the byte at `msg[i]`. -/
structure SendMsg where
  msgLen : ℕ
  msg : ℕ → UCHAR
  msgType : UCHAR

/-- What `send_msg` gives to `send_tcp` on an open socket, one call after the other. Each
call takes and releases the lock of the socket. The length is raised before it is sent,
so one byte more than the caller's goes out. -/
def SendMsg.sendTcps (m : SendMsg) : Frame (List UCHAR) where
  head := prePreamble
  tail :=
    let msgLen := m.msgLen + 1
    [BitVec.ofNat 8 msgLen] :: [0#8] :: List.replicate 6 [0#8] ++
      [m.msgType] :: [0#8] :: (List.range msgLen).flatMap fun i => [[m.msg i], [0#8]]

/-- The message as the client has to find it. -/
def SendMsg.bytes (m : SendMsg) : List UCHAR := m.sendTcps.pieces.flatten

def serialBuffSize : ℕ := 50

/-- The arguments of `send_serialother`. `send_serial` is the case of a zero buffer. -/
structure SendSerial where
  cmd : UCHAR
  buf : ℕ → UCHAR

/-- `send_serial` and `send_serialother` hold the lock of the port for the whole frame. -/
def SendSerial.writes (m : SendSerial) : Frame (List UCHAR) where
  head := m.cmd :: (List.range serialBuffSize).map m.buf
  tail := []

def sendSerial (cmd : UCHAR) : SendSerial := ⟨cmd, fun _ => 0⟩

end TruckControl
