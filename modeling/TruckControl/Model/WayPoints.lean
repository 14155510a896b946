import Mathlib.Algebra.Group.Int.Defs
import Mathlib.Algebra.Group.Nat.Defs
import TruckControl.Library.Chunks
import TruckControl.Model.ParamFile

/-! # `waypoints.conf` -/

namespace TruckControl

/-- `sizeof(WAYPOINTS)`: two numbers, the name of thirty characters, and two bytes to align. -/
def sizeofWaypoints : ℕ := 40

/-- A record, as it lies in memory and in the file. -/
structure WayPoint where
  bytes : List UCHAR
  length_bytes : bytes.length = sizeofWaypoints

namespace WayPoint

@[ext] theorem ext {r s : WayPoint} (h : r.bytes = s.bytes) : r = s := by
  cases r
  cases s
  cases h
  rfl

/-- `memset(wp[i].name,0,30)`. -/
def clearName (r : WayPoint) : WayPoint where
  bytes := r.bytes.take 8 ++ List.replicate 30 0 ++ r.bytes.drop 38
  length_bytes := by
    rw [List.length_append, List.length_append, List.length_take, List.length_drop,
      List.length_replicate, r.length_bytes]
    decide

/-- `read(fp,(void*)&wp[i],sizeof(WAYPOINTS))`. -/
def readFrom (file : List UCHAR) (r : WayPoint) : WayPoint where
  bytes := readInto sizeofWaypoints file r.bytes
  length_bytes := by
    rw [length_readInto (Nat.le_of_eq r.length_bytes.symm), r.length_bytes]

end WayPoint

/-- `no_recs`: the length of the file as a `long` and then a `size_t` of `w` bits, divided,
and stored in an `int`. -/
def noRecs (w length : ℕ) : ℤ :=
  let filesize : ℤ := length - 2
  Int.bmod (filesize % 2 ^ w / sizeofWaypoints) (2 ^ 32)

/-- What the loop of `LoadWayPoints` works on: the rest of the file, the memory from `wp` on,
and the indexes that have been stored to. -/
structure WpLoading where
  rest : List UCHAR
  wp : ℕ → WayPoint
  stores : List ℕ

def WpLoading.next (s : WpLoading) (i : ℕ) : WpLoading where
  rest := s.rest.drop sizeofWaypoints
  wp := Function.update s.wp i ((s.wp i).clearName.readFrom s.rest)
  stores := i :: s.stores

/-- What `LoadWayPoints` returns, and what it leaves. -/
structure WpLoaded where
  ret : ℤ
  wp : ℕ → WayPoint
  stores : List ℕ
  errmsg : String

/-- `LoadWayPoints`. A file that cannot be opened comes with the text of `strerror`; `id` is
what the variable holds before it is read into. -/
def loadWayPoints (w : ℕ) (id : UCHAR) (file : Except String (List UCHAR)) (wp : ℕ → WayPoint)
    (errmsg : String) : WpLoaded :=
  match file with
  | .error errmsg => ⟨-2, wp, [], errmsg⟩
  | .ok content =>
      let noRecs := noRecs w content.length
      let id := content.headD id
      if id ≠ 0xAB#8 then ⟨-3, wp, [], errmsg⟩
      else
        let s := (List.range noRecs.toNat).foldl WpLoading.next ⟨content.drop 1, wp, []⟩
        let id := s.rest.headD id
        if id ≠ 0x54#8 then ⟨-4, s.wp, s.stores, errmsg⟩
        else ⟨noRecs, s.wp, s.stores, "Success"⟩

/-- What `WriteWayPoints` has written to the emptied file when it is through. -/
def writeWayPoints (wp : ℕ → WayPoint) : List UCHAR :=
  0xAB#8 :: (wp 0).bytes ++ [0x54#8]

/-- The elements of `wp`. -/
def maxWayPoints : ℕ := 45

end TruckControl
