import Mathlib.Algebra.Group.Nat.Defs
import TruckControl.Library.ShortReads
import TruckControl.Model.Commands

/-! # Sending a file to the upload server -/

namespace TruckControl

open ShortReads

/-- `BufferSize` of the sender; `chunk` and `UPLOAD_BUFF_SIZE2` of the server. -/
def uploadChunk : ℕ := 10000

/-! ## `SendFiles` -/

/-- `BitConverter.GetBytes`. -/
def int32Bytes (n : BitVec 32) : List UCHAR :=
  [n.extractLsb' 0 8, n.extractLsb' 8 8, n.extractLsb' 16 8, n.extractLsb' 24 8]

/-- `SendingBuffer` after `Fs.Read`. -/
def sendingBuffer (size : ℕ) (fs : List UCHAR) : List UCHAR :=
  fs.take size ++ List.replicate (size - fs.length) 0#8

/-- The packets that are written, one for each round of the loop. A negative size makes
`new byte[]` throw, and nothing more is sent. -/
def sendPackets : ℕ → BitVec 32 → List UCHAR → List UCHAR
  | 0, _, _ => []
  | rounds + 1, totalLength, fs =>
      if totalLength.toInt > uploadChunk then
        sendingBuffer uploadChunk fs ++
          sendPackets rounds (totalLength - BitVec.ofNat 32 uploadChunk) (fs.drop uploadChunk)
      else if totalLength.toInt < 0 then []
      else
        sendingBuffer totalLength.toNat fs ++
          sendPackets rounds totalLength (fs.drop totalLength.toNat)

/-- `NoOfPackets`. -/
def noOfPackets (size : ℕ) : ℕ := (size + (uploadChunk - 1)) / uploadChunk

/-- All that `SendTCP` writes to the connection. `Convert.ToInt32` throws on a number of
packets that is no `int`. -/
def sendTCP (file : List UCHAR) : List UCHAR :=
  if noOfPackets file.length < 2 ^ 31 then
    int32Bytes (BitVec.ofNat 32 file.length) ++
      int32Bytes (BitVec.ofNat 32 (noOfPackets file.length)) ++
      sendPackets (noOfPackets file.length) (BitVec.ofNat 32 file.length) file
  else []

/-! ## The server -/

/-- The bytes of a `recv_tcp` that asks for `len` and returns `rc`: as many of the stream, if
they are there, and none for -1. -/
def recvTcp (rc : ℤ) (len : ℕ) (stream : List UCHAR) : List UCHAR :=
  stream.take (min rc.toNat len)

/-- `fsize` and `iter`, four bytes each, low byte first. A `long` has 32 bits. -/
def fsize (temp : ℕ → UCHAR) : BitVec 32 := temp 3 ++ temp 2 ++ temp 1 ++ temp 0

def iter (temp : ℕ → UCHAR) : BitVec 32 := temp 7 ++ temp 6 ++ temp 5 ++ temp 4

/-- The rounds of the loop in `main` that are left, from round `j` on: what is received goes
to `msg_buf`, and `msg_buf` to the file. A negative size asks for all there is, and `write`
refuses it. What goes past the end of `msg_buf` has no result. -/
def copyChunks (rc : ℕ → ℤ) : ℕ → ℕ → BitVec 32 → (ℕ → UCHAR) → List UCHAR → Option (List UCHAR)
  | 0, _, _, _, _ => some []
  | left + 1, j, fsize, msgBuf, stream =>
      let len := if left = 0 then fsize.toInt else uploadChunk
      let got := recvTcp (rc j) (if len < 0 then stream.length else len.toNat) stream
      if len ≤ uploadChunk ∧ got.length ≤ uploadChunk then
        let msgBuf := afterRead msgBuf got
        (copyChunks rc left (j + 1) (fsize - BitVec.ofNat 32 uploadChunk) msgBuf
          (stream.drop got.length)).map ((List.range len.toNat).map msgBuf ++ ·)
      else none

/-- What `main` returns, and the file it has written. -/
structure Uploaded where
  ret : ℤ
  file : List UCHAR
  deriving DecidableEq, Repr

/-- `main` of the server, compiled for `COPY_FILE`, on a connection that brings `stream`.
`temp` is what lies in the variable before the header is received, and `rc j` what the
`j`-th call of `recv_tcp` returns. -/
def copyFile (temp : ℕ → UCHAR) (rc : ℕ → ℤ) (stream : List UCHAR) : Option Uploaded :=
  let got := recvTcp (rc 0) 8 stream
  let temp := afterRead temp got
  (copyChunks (fun j => rc (j + 1)) (iter temp).toInt.toNat 0 (fsize temp) (fun _ => 0#8)
    (stream.drop got.length)).map (Uploaded.mk 0)

end TruckControl
