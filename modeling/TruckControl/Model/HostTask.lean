import Mathlib.Data.Int.Notation
import Mathlib.Logic.Function.Basic
import TruckControl.Library.Reports
import TruckControl.Library.ShortReads
import TruckControl.Model.Client

/-! # `get_host_cmd_task`, from the socket to its `switch` -/

namespace TruckControl

def uploadBuffSize : ℕ := 10000

/-- The elements of `cmd_array`. -/
def cmdArraySize : ℕ := 107

/-- An index that is used: of a store to `msg_buf` or to `msg_buf2`, or of the look-up of the
command's name. -/
inductive HostAccess where
  | msgBuf (i : ℕ)
  | msgBuf2 (i : ℤ)
  | cmdArray (i : ℕ)
  deriving DecidableEq, Repr

namespace HostAccess

/-- The index is one of the array. -/
def InRange : HostAccess → Prop
  | msgBuf i => i < uploadBuffSize
  | msgBuf2 i => 0 ≤ i ∧ i < (uploadBuffSize / 2 : ℕ)
  | cmdArray i => i < cmdArraySize

instance : DecidablePred InRange
  | msgBuf _ => inferInstanceAs (Decidable (_ < _))
  | msgBuf2 _ => inferInstanceAs (Decidable (_ ∧ _))
  | cmdArray _ => inferInstanceAs (Decidable (_ < _))

end HostAccess

/-- The variables of the task, and what the client has sent that is not read yet. What is
stored outside of an array is kept beside it. `taking` ends with the socket or the task. -/
structure HostTask where
  j : ℤ
  msgBuf : ℕ → UCHAR
  msgBuf2 : ℤ → UCHAR
  stream : List UCHAR
  taking : Bool

namespace HostTask

/-- `preamble` of `get_msg` when it is compared. The variable is not initialised: `junk` is
what it holds, and stays where the socket ends too early. -/
def preamble (junk : ℕ → UCHAR) (s : HostTask) : List UCHAR :=
  (List.range 16).map (ShortReads.afterRead junk (s.stream.take 16))

/-- What `recv_tcp(&msg_buf[0], msg_len, 1)` gets behind the header. -/
def body (msgLen : ℕ) (s : HostTask) : List UCHAR := (s.stream.drop 16).take msgLen

/-- `memset(msg_buf, 0, sizeof(msg_buf))`. -/
def cleared (s : HostTask) : ℕ → UCHAR := fun i => if i < uploadBuffSize then 0 else s.msgBuf i

/-- The first `n` turns of `for(i = 2;i < msg_len+2;i+=2) msg_buf2[j++] = msg_buf[i];`. -/
def copyText : ℕ → HostTask → HostTask
  | 0, s => s
  | n + 1, s =>
      let s := copyText n s
      { s with msgBuf2 := Function.update s.msgBuf2 s.j (s.msgBuf (2 * n + 2)), j := s.j + 1 }

/-- How many turns the loop has: as many as there are `i = 2, 4, ..` below `msg_len + 2`. -/
def turns (msgLen : ℕ) : ℕ := (msgLen + 1) / 2

/-- The task with a message in its buffers, and the command. -/
def receive (junk : ℕ → UCHAR) (s : HostTask) : HostTask × UCHAR :=
  match getMsg (s.preamble junk) with
  | none =>
      ({ s with msgBuf := s.cleared, stream := s.stream.drop 16 }, CmdType.badMsg.toByte)
  | some msgLen =>
      let msgBuf := ShortReads.afterRead s.cleared (s.body msgLen)
      (copyText (turns msgLen)
        { s with msgBuf := msgBuf, stream := s.stream.drop (16 + msgLen) }, msgBuf 0)

/-- What the `switch` does with these variables. -/
def handle (cmd : UCHAR) (s : HostTask) : HostTask :=
  match CmdType.ofByte cmd with
  | some .setTime | some .updateConfig => { s with j := 0 }
  | some .disconnect => { s with taking := false }
  | some .exitProgram => { s with j := 0, taking := false }
  | _ => s

/-- A turn of the `while` loop. -/
def step (s : HostTask) (junk : ℕ → UCHAR) : HostTask :=
  if s.taking then handle (s.receive junk).2 (s.receive junk).1 else s

/-- The indexes that a turn uses, in their order. -/
def accesses (s : HostTask) (junk : ℕ → UCHAR) : List HostAccess :=
  if s.taking then
    let stored := match getMsg (s.preamble junk) with
      | none => []
      | some msgLen =>
          (List.range (s.body msgLen).length).map .msgBuf ++
            (List.range (turns msgLen)).map fun k => .msgBuf2 (s.j + k)
    let cmd := (s.receive junk).2
    stored ++ if cmd > 0 then [.cmdArray cmd.toNat] else []
  else []

/-- The task at the beginning of a connection. `j` is not initialised. -/
def start (j : ℤ) (stream : List UCHAR) : HostTask where
  j := j
  msgBuf := fun _ => 0
  msgBuf2 := fun _ => 0
  stream := stream
  taking := true

end HostTask

end TruckControl
