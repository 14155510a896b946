import Mathlib.Data.Int.Notation
import TruckControl.Model.Commands

/-! # `param.conf` -/

namespace TruckControl

/-- `sizeof(PARAM_STRUCT)`: seventeen integers. -/
def sizeofParams : ℕ := 17 * 4

def passwordSize : ℕ := 6

/-- `ps` and `password`, as they lie in memory. -/
structure ParamBlock where
  ps : List UCHAR
  password : List UCHAR
  length_ps : ps.length = sizeofParams
  length_password : password.length = passwordSize

@[ext] theorem ParamBlock.ext {b c : ParamBlock} (hps : b.ps = c.ps)
    (hpassword : b.password = c.password) : b = c := by
  cases b
  cases c
  cases hps
  cases hpassword
  rfl

/-- `read(fp, buf, n)` at the beginning of `file`: a short file leaves the end of the buffer
as it was. -/
def readInto (n : ℕ) (file buf : List UCHAR) : List UCHAR :=
  file.take n ++ buf.drop (file.take n).length

theorem length_readInto {n : ℕ} {buf : List UCHAR} (h : n ≤ buf.length) (file : List UCHAR) :
    (readInto n file buf).length = buf.length := by
  rw [readInto, List.length_append, List.length_drop, List.length_take]
  omega

/-- A buffer is overwritten as a whole if there is enough to read. -/
theorem readInto_whole {n : ℕ} {file buf : List UCHAR} (hfile : n ≤ file.length)
    (hbuf : buf.length = n) : readInto n file buf = file.take n := by
  have hlength : (file.take n).length = buf.length := by
    rw [List.length_take, hbuf]
    omega
  rw [readInto, hlength, List.drop_length, List.append_nil]

/-- The bytes that were there are the bytes that are read. -/
theorem readInto_eq_iff (n : ℕ) (file buf : List UCHAR) :
    readInto n file buf = buf ↔ file.take n <+: buf := by
  rw [readInto]
  constructor
  · intro h
    exact ⟨_, h⟩
  · intro h
    obtain ⟨rest, rfl⟩ := h
    rw [List.drop_left]

/-- What `LoadParams` returns, and what it leaves in memory. -/
structure Loaded where
  ret : ℤ
  block : ParamBlock

/-- `LoadParams`; `none` is a file that cannot be opened, and `id` what the variable holds
before it is first read into. -/
def loadParams (id : UCHAR) (file : Option (List UCHAR)) (b : ParamBlock) : Loaded :=
  match file with
  | none => ⟨-2, b⟩
  | some content =>
      let id := content.headD id
      if id ≠ 0xAA#8 then ⟨-3, b⟩
      else
        let rest := content.drop 1
        let b : ParamBlock :=
          { ps := readInto sizeofParams rest b.ps
            password := readInto 4 (rest.drop sizeofParams) b.password
            length_ps := by rw [length_readInto (Nat.le_of_eq b.length_ps.symm), b.length_ps]
            length_password := by
              rw [length_readInto (by rw [b.length_password]; decide), b.length_password] }
        let id := (rest.drop (sizeofParams + 4)).headD id
        if id ≠ 0x55#8 then ⟨-4, b⟩ else ⟨0, b⟩

/-- What `WriteParams` has written to the emptied file when it is through. -/
def writeParams (b : ParamBlock) : List UCHAR :=
  0xAA#8 :: b.ps ++ b.password.take 4 ++ [0x55#8]

end TruckControl
