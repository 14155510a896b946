import TruckControl.Model.Upload

/-!
# Uploading a file

The server writes `msg_buf` to the file after each receive, whatever the receive has brought,
and reports nothing.
-/

namespace TruckControl

open ShortReads

variable {temp : ℕ → UCHAR} {rc : ℕ → ℤ} {file stream : List UCHAR}

/-- The server has written the file, or it has reported a failure. -/
def Faithful (file : List UCHAR) (result : Option Uploaded) : Prop :=
  ∃ u ∈ result, u.file = file ∨ u.ret ≠ 0

/-- The number of bytes that are asked for in the last round, after `m` others. -/
def lastSize (temp : ℕ → UCHAR) (m : ℕ) : ℤ :=
  (fsize temp - BitVec.ofNat 32 (uploadChunk * m)).toInt

/-- The counts of the receives as those of the library's reads. -/
def counts (rc : ℕ → ℤ) : ℕ → ℕ := fun j => (rc j).toNat

/-- The last round stays in `msg_buf`. -/
def LastFits (rc : ℕ → ℤ) (size : ℤ) (stream : List UCHAR) (n : ℕ) : Prop :=
  size ≤ uploadChunk ∧ (size < 0 →
    min (rc n).toNat (stream.length - start (counts rc) uploadChunk stream.length n) ≤ uploadChunk)

instance (rc : ℕ → ℤ) (size : ℤ) (stream : List UCHAR) (n : ℕ) :
    Decidable (LastFits rc size stream n) :=
  inferInstanceAs (Decidable (_ ∧ (_ → _)))

theorem copyChunks_last (n : ℕ) (size : BitVec 32) (msgBuf : ℕ → UCHAR) :
    copyChunks rc 1 n size msgBuf stream =
      if size.toInt ≤ uploadChunk ∧ (size.toInt < 0 → min (rc n).toNat stream.length ≤ uploadChunk)
      then some (copy (counts rc) [size.toInt.toNat] n msgBuf stream) else none := by
  rw [copyChunks, if_pos rfl, copy, copy]
  simp only [copyChunks, Option.map_some, List.append_nil]
  by_cases hneg : size.toInt < 0
  · have hzero : size.toInt.toNat = 0 := Int.toNat_of_nonpos (Int.le_of_lt hneg)
    have hgot : (recvTcp (rc n) stream.length stream).length = min (rc n).toNat stream.length := by
      rw [recvTcp, List.length_take, Nat.min_assoc, Nat.min_self]
    rw [if_pos hneg, hgot]
    simp only [hneg, hzero, true_implies, List.range_zero, List.map_nil]
  · have hgot : (recvTcp (rc n) size.toInt.toNat stream).length ≤ size.toInt.toNat := by
      rw [recvTcp, List.length_take]
      omega
    have hfits : size.toInt ≤ uploadChunk ∧
        (recvTcp (rc n) size.toInt.toNat stream).length ≤ uploadChunk ↔
          size.toInt ≤ uploadChunk := by
      refine and_iff_left_of_imp fun hle => ?_
      omega
    rw [if_neg hneg]
    simp only [hfits, hneg, false_implies, and_true]
    rfl

theorem copyChunks_round (m n : ℕ) (size : BitVec 32) (msgBuf : ℕ → UCHAR) :
    let got := stream.take (min (counts rc n) uploadChunk)
    copyChunks rc (m + 2) n size msgBuf stream =
      (copyChunks rc (m + 1) (n + 1) (size - BitVec.ofNat 32 uploadChunk) (afterRead msgBuf got)
        (stream.drop got.length)).map
        ((List.range uploadChunk).map (afterRead msgBuf got) ++ ·) := by
  intro got
  have hpos : ¬ (uploadChunk : ℤ) < 0 := by decide
  have hgot : got.length ≤ uploadChunk := by
    rw [List.length_take]
    omega
  rw [copyChunks, if_neg (Nat.succ_ne_zero m)]
  simp only [if_neg hpos, Int.toNat_natCast]
  exact if_pos ⟨Int.le_refl _, hgot⟩

/-- The loop is a copy by reads that may come short. -/
theorem copyChunks_eq (rc : ℕ → ℤ) (stream : List UCHAR) (m n : ℕ) (size : BitVec 32) :
    let left := stream.drop (start (counts rc) uploadChunk stream.length n)
    let msgBuf := place (counts rc) uploadChunk (fun _ => 0#8) stream n
    let last := (size - BitVec.ofNat 32 (uploadChunk * m)).toInt
    copyChunks rc (m + 1) n size msgBuf left =
      if LastFits rc last stream (n + m) then
        some (copy (counts rc) (List.replicate m uploadChunk ++ [last.toNat]) n msgBuf left)
      else none := by
  intro left msgBuf last
  induction m generalizing n size with
  | zero =>
      have hlast : last = size.toInt := by
        simp only [last, Nat.mul_zero, BitVec.sub_zero]
      rw [copyChunks_last, hlast, List.replicate_zero, List.nil_append, Nat.add_zero]
      refine if_congr ?_ rfl rfl
      rw [LastFits, List.length_drop]
  | succ m ih =>
      have hlast : last =
          (size - BitVec.ofNat 32 uploadChunk - BitVec.ofNat 32 (uploadChunk * m)).toInt := by
        rw [BitVec.sub_sub, ← BitVec.ofNat_add, Nat.add_comm uploadChunk, ← Nat.mul_succ]
      have hread : afterRead msgBuf (left.take (min (counts rc n) uploadChunk)) =
          place (counts rc) uploadChunk (fun _ => 0#8) stream (n + 1) :=
        funext fun i => afterRead_place (Nat.le_refl uploadChunk) id
      rw [copyChunks_round, hread, drop_start, ih, ← hlast, List.replicate_succ, List.cons_append,
        copy, hread, drop_start, Nat.add_right_comm n 1 m, Nat.add_assoc n m 1]
      split_ifs with hfits
      · rfl
      · rfl

/-! ## The whole file -/

/-- The rounds in the header make up a file of this size. -/
def Announces (temp : ℕ → UCHAR) (rc : ℕ → ℤ) (stream : List UCHAR) (size : ℕ) : Prop :=
  match (iter temp).toInt.toNat with
  | 0 => size = 0
  | m + 1 => LastFits rc (lastSize temp m) stream m ∧
      size = uploadChunk * m + (lastSize temp m).toNat

/-- The header that is received is right for the file, and so is every byte: at each place of
a chunk stands what the last receive that has reached so far has brought there, or zero if
none has. -/
def Arrives (temp : ℕ → UCHAR) (rc : ℕ → ℤ) (file : List UCHAR) : Prop :=
  let got := recvTcp (rc 0) 8 (sendTCP file)
  let rest := (sendTCP file).drop got.length
  Announces (afterRead temp got) (fun j => rc (j + 1)) rest file.length ∧
    ∀ p < file.length, file[p]? = some (place (counts fun j => rc (j + 1)) uploadChunk
      (fun _ => 0#8) rest (p / uploadChunk + 1) (p % uploadChunk))

/-- A list is given by its length and its places. -/
theorem map_range_eq_iff {f : ℕ → UCHAR} {n : ℕ} :
    (List.range n).map f = file ↔ file.length = n ∧ ∀ p < file.length, file[p]? = some (f p) := by
  constructor
  · rintro rfl
    have hlen : ((List.range n).map f).length = n := by
      rw [List.length_map, List.length_range]
    refine ⟨hlen, fun p hp => ?_⟩
    rw [List.getElem?_map, List.getElem?_range (hlen ▸ hp)]
    rfl
  · rintro ⟨rfl, hall⟩
    apply List.ext_getElem?
    intro p
    by_cases hp : p < file.length
    · rw [hall p hp, List.getElem?_map, List.getElem?_range hp]
      rfl
    · rw [List.getElem?_eq_none (Nat.le_of_not_lt hp), List.getElem?_eq_none]
      rw [List.length_map, List.length_range]
      exact Nat.le_of_not_lt hp

/-- What the loop writes from the start of the file on. -/
theorem copyChunks_zero (m : ℕ) (size : BitVec 32) :
    let last := (size - BitVec.ofNat 32 (uploadChunk * m)).toInt
    copyChunks rc (m + 1) 0 size (fun _ => 0#8) stream =
      if LastFits rc last stream m then
        some ((List.range (uploadChunk * m + last.toNat)).map fun p =>
          place (counts rc) uploadChunk (fun _ => 0#8) stream (p / uploadChunk + 1)
            (p % uploadChunk))
      else none := by
  intro last
  have hloop := copyChunks_eq rc stream m 0 size
  have hcopy (hle : last.toNat ≤ uploadChunk) :=
    copy_eq (counts rc) (by decide : 0 < uploadChunk) hle (fun _ => 0#8) stream m 0
  simp only [Nat.zero_add] at hloop hcopy
  refine hloop.trans ?_
  by_cases hfits : LastFits rc last stream m
  · rw [if_pos hfits, if_pos hfits, hcopy (Int.toNat_le.mpr hfits.1)]
  · rw [if_neg hfits, if_neg hfits]

/-- `main` returns 0 whatever it has written. -/
theorem faithful_iff (written : Option (List UCHAR)) :
    Faithful file (written.map (Uploaded.mk 0)) ↔ written = some file := by
  cases written with
  | none => simp [Faithful]
  | some w => simp [Faithful]

/-- The file that is sent and the file that is written are the same exactly when it has
arrived; and no failure is ever reported. -/
theorem copyFile_faithful_iff (temp : ℕ → UCHAR) (rc : ℕ → ℤ) (file : List UCHAR) :
    Faithful file (copyFile temp rc (sendTCP file)) ↔ Arrives temp rc file := by
  rw [copyFile, faithful_iff, Arrives, Announces]
  generalize recvTcp (rc 0) 8 (sendTCP file) = got
  generalize (sendTCP file).drop got.length = rest
  generalize afterRead temp got = header
  cases hm : (iter header).toInt.toNat with
  | zero =>
      rw [copyChunks, Option.some.injEq]
      constructor
      · rintro rfl
        exact ⟨rfl, fun p hp => absurd hp (Nat.not_lt_zero p)⟩
      · intro h
        exact (List.length_eq_zero_iff.mp h.1).symm
  | succ m =>
      rw [copyChunks_zero]
      simp only [lastSize]
      split_ifs with hfits
      · rw [Option.some.injEq, map_range_eq_iff]
        exact and_congr_left fun _ => (and_iff_right hfits).symm
      · constructor
        · intro h
          cases h
        · intro h
          exact absurd h.1.1 hfits

/-! ## Receives that bring what they ask for -/

theorem toInt_ofNat_of_lt {n : ℕ} (h : n < 2 ^ 31) : (BitVec.ofNat 32 n).toInt = n := by
  rw [BitVec.toInt_eq_toNat_cond, BitVec.toNat_ofNat, Nat.mod_eq_of_lt (by omega)]
  omega

theorem sendingBuffer_of_le {size : ℕ} {fs : List UCHAR} (h : size ≤ fs.length) :
    sendingBuffer size fs = fs.take size := by
  rw [sendingBuffer, Nat.sub_eq_zero_of_le h, List.replicate_zero, List.append_nil]

/-- The packets of a file that is not too large are the file. -/
theorem sendPackets_eq {fs : List UCHAR} (h : fs.length < 2 ^ 31) :
    sendPackets (noOfPackets fs.length) (BitVec.ofNat 32 fs.length) fs = fs := by
  have hpackets : noOfPackets fs.length = (fs.length + 9999) / 10000 := rfl
  generalize noOfPackets fs.length = rounds at hpackets ⊢
  induction rounds generalizing fs with
  | zero =>
      have hnil : fs = [] := List.length_eq_zero_iff.mp (by omega)
      rw [hnil, sendPackets]
  | succ rounds ih =>
      rw [sendPackets, toInt_ofNat_of_lt h]
      by_cases hlong : (fs.length : ℤ) > uploadChunk
      · have hchunk : uploadChunk = 10000 := rfl
        have hdrop : (fs.drop uploadChunk).length = fs.length - uploadChunk := List.length_drop
        have hrest := @ih (fs.drop uploadChunk) (by omega) (by omega)
        rw [if_pos hlong, sendingBuffer_of_le (by omega),
          BitVec.ofNat_sub_ofNat_of_le _ _ (by decide) (by omega), ← hdrop, hrest,
          List.take_append_drop]
      · have hsize : (BitVec.ofNat 32 fs.length).toNat = fs.length := by
          rw [BitVec.toNat_ofNat, Nat.mod_eq_of_lt (by omega)]
        have hrounds : rounds = 0 := by
          have hchunk : uploadChunk = 10000 := rfl
          omega
        rw [if_neg hlong, if_neg (by omega), hsize, sendingBuffer_of_le (Nat.le_refl _),
          List.take_length, hrounds, sendPackets, List.append_nil]

/-- The file as the server finds it behind the header. -/
theorem sendTCP_eq (h : file.length < 2 ^ 31) :
    sendTCP file = int32Bytes (BitVec.ofNat 32 file.length) ++
      int32Bytes (BitVec.ofNat 32 (noOfPackets file.length)) ++ file := by
  have hpackets : noOfPackets file.length < 2 ^ 31 := by
    rw [noOfPackets, uploadChunk]
    omega
  rw [sendTCP, if_pos hpackets, sendPackets_eq h]

/-- Four bytes are put together again. -/
theorem append_extractLsb (n : BitVec 32) : n.extractLsb' 24 8 ++ n.extractLsb' 16 8 ++
    n.extractLsb' 8 8 ++ n.extractLsb' 0 8 = n := by
  apply BitVec.eq_of_getLsbD_eq
  intro i hi
  simp only [BitVec.getLsbD_append, BitVec.getLsbD_extractLsb']
  grind

theorem start_full {k : ℕ → ℕ} {c size : ℕ} (h : ∀ j, min c (size - c * j) ≤ k j) (n : ℕ) :
    start k c size n = min (c * n) size := by
  induction n with
  | zero => rw [start, Nat.mul_zero, Nat.zero_min]
  | succ n ih =>
      have hn := h n
      rw [start_succ, ih, Nat.mul_succ]
      omega

theorem place_full {k : ℕ → ℕ} {c : ℕ} (hc : 0 < c)
    (h : ∀ j, min c (stream.length - c * j) ≤ k j) {p : ℕ} (hp : p < stream.length)
    (buf : ℕ → UCHAR) : some (place k c buf stream (p / c + 1) (p % c)) = stream[p]? := by
  have hdiv := Nat.div_add_mod p c
  have hmod := Nat.mod_lt p hc
  have hsource : source k c stream.length (p % c) (p / c + 1) = some p := by
    have hnext : c * (p / c + 1) = c * (p / c) + c := Nat.mul_succ _ _
    rw [source_succ, start_full h, start_full h, if_pos (by omega), Nat.min_eq_left (by omega),
      hdiv]
  rw [place, hsource, List.getElem?_eq_getElem hp]
  simp [hp]

/-- A file of less than 2^31 bytes arrives when every receive brings all it asks for. -/
theorem arrives_of_full (hsize : file.length < 2 ^ 31) (hheader : 8 ≤ rc 0)
    (hfull : ∀ j, (min uploadChunk (file.length - uploadChunk * j) : ℕ) ≤ rc (j + 1)) :
    Arrives temp rc file := by
  have hgot : recvTcp (rc 0) 8 (sendTCP file) = int32Bytes (BitVec.ofNat 32 file.length) ++
      int32Bytes (BitVec.ofNat 32 (noOfPackets file.length)) := by
    rw [recvTcp, Nat.min_eq_right (by omega), sendTCP_eq hsize]
    rfl
  have hrest : (sendTCP file).drop (recvTcp (rc 0) 8 (sendTCP file)).length = file := by
    rw [hgot, sendTCP_eq hsize]
    rfl
  have hk (j : ℕ) : min uploadChunk (file.length - uploadChunk * j) ≤
      counts (fun j => rc (j + 1)) j := by
    have hj := hfull j
    rw [counts]
    omega
  rw [Arrives, hrest, hgot]
  refine ⟨?_, fun p hp => (place_full (by decide) hk hp _).symm⟩
  have hfsize : fsize (afterRead temp (int32Bytes (BitVec.ofNat 32 file.length) ++
      int32Bytes (BitVec.ofNat 32 (noOfPackets file.length)))) = BitVec.ofNat 32 file.length :=
    append_extractLsb _
  have hiter : iter (afterRead temp (int32Bytes (BitVec.ofNat 32 file.length) ++
      int32Bytes (BitVec.ofNat 32 (noOfPackets file.length)))) =
        BitVec.ofNat 32 (noOfPackets file.length) :=
    append_extractLsb _
  generalize afterRead temp (int32Bytes (BitVec.ofNat 32 file.length) ++
    int32Bytes (BitVec.ofNat 32 (noOfPackets file.length))) = header at hfsize hiter ⊢
  have hpackets : noOfPackets file.length = (file.length + 9999) / 10000 := rfl
  rw [Announces, hiter, toInt_ofNat_of_lt (by omega), Int.toNat_natCast]
  cases hm : noOfPackets file.length with
  | zero => exact (by omega : file.length = 0)
  | succ m =>
      have hmul : uploadChunk * m = 10000 * m := rfl
      have hchunk : uploadChunk = 10000 := rfl
      have hlast : lastSize header m = (file.length - uploadChunk * m : ℕ) := by
        rw [lastSize, hfsize, BitVec.ofNat_sub_ofNat_of_le _ _ (by omega) (by omega),
          toInt_ofNat_of_lt (by omega)]
      change LastFits _ _ file m ∧ _
      rw [hlast, Int.toNat_natCast, LastFits]
      omega

/-- One byte is sent, and the second receive comes to its time limit. -/
theorem copyFile_not_faithful :
    ¬ Faithful [1#8]
        (copyFile (fun _ => 0#8) (fun j => if j = 0 then 8 else -1) (sendTCP [1#8])) := by
  have hwritten : copyFile (fun _ => 0#8) (fun j => if j = 0 then 8 else -1) (sendTCP [1#8]) =
      some ⟨0, [0#8]⟩ := by decide
  rw [hwritten]
  simp [Faithful]

end TruckControl
