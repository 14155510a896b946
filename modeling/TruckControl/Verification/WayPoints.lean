import Mathlib.Tactic.SplitIfs
import TruckControl.Model.WayPoints

/-!
# The way points

The file has no count: the reader infers one from the length, and the writer writes one
record whatever there is.
-/

namespace TruckControl

/-! ## The count -/

/-- On both kinds of machines the count of a file of at least two bytes does not exceed the
records that it has. -/
theorem le_of_le_noRecs {w length n : ℕ} (hw : w = 32 ∨ w = 64) (hlength : 2 ≤ length)
    (hn : (n : ℤ) ≤ noRecs w length) : sizeofWaypoints * n + 2 ≤ length := by
  have hsize : sizeofWaypoints = 40 := rfl
  rw [noRecs, Int.bmod_def, hsize] at hn
  rw [hsize]
  rcases hw with rfl | rfl
  · split_ifs at hn <;> omega
  · split_ifs at hn <;> omega

/-- Below two bytes the subtraction wraps, and the count is far above the table. -/
theorem lt_noRecs {w length : ℕ} (hw : w = 32 ∨ w = 64) (hlength : length < 2) :
    45 < noRecs w length := by
  have hall : ∀ w ∈ [32, 64], ∀ length < 2, 45 < noRecs w length := by decide
  exact hall w (by simpa using hw) length hlength

/-! ## The loop -/

/-- The loop after `n` turns. -/
def wpLoading (content : List UCHAR) (wp : ℕ → WayPoint) (n : ℕ) : WpLoading :=
  (List.range n).foldl WpLoading.next ⟨content.drop 1, wp, []⟩

variable {content : List UCHAR} {wp : ℕ → WayPoint} {n : ℕ}

theorem wpLoading_succ (n : ℕ) :
    wpLoading content wp (n + 1) = (wpLoading content wp n).next n := by
  rw [wpLoading, List.range_succ, List.foldl_append, wpLoading]
  rfl

theorem rest_wpLoading (n : ℕ) :
    (wpLoading content wp n).rest = (content.drop 1).drop (sizeofWaypoints * n) :=
  rest_foldl_range WpLoading.rest (fun _ _ => rfl) _ n

/-- Every index below the count is stored to, once. -/
theorem stores_wpLoading (n : ℕ) : (wpLoading content wp n).stores = (List.range n).reverse := by
  induction n with
  | zero => rfl
  | succ n ih =>
      rw [wpLoading_succ, WpLoading.next, ih, List.range_succ, List.reverse_append]
      rfl

/-- As far as the file reaches its records are stored. -/
theorem bytes_wpLoading (h : sizeofWaypoints * n ≤ (content.drop 1).length) {i : ℕ} (hi : i < n) :
    ((wpLoading content wp n).wp i).bytes = chunk sizeofWaypoints (content.drop 1) i := by
  induction n with
  | zero => exact absurd hi (Nat.not_lt_zero i)
  | succ n ih =>
      rw [Nat.mul_succ] at h
      rw [wpLoading_succ]
      simp only [WpLoading.next]
      by_cases hin : i = n
      · subst hin
        have hlength :
            sizeofWaypoints ≤ ((content.drop 1).drop (sizeofWaypoints * i)).length := by
          rw [List.length_drop]
          omega
        rw [Function.update_self, rest_wpLoading]
        exact readInto_whole hlength (WayPoint.length_bytes _)
      · rw [Function.update_of_ne hin]
        exact ih (by omega) (by omega)

/-! ## Loading any file -/

/-- Nothing is stored outside of `wp`, and the code returned is negative or the number of
records stored, which are those of the file. -/
def LoadsWithin (content : List UCHAR) (r : WpLoaded) : Prop :=
  (∀ i ∈ r.stores, i < maxWayPoints) ∧
    (r.ret < 0 ∨ (r.ret = r.stores.length ∧ ∀ i < r.stores.length,
      (r.wp i).bytes = chunk sizeofWaypoints (content.drop 1) i))

variable {id : UCHAR}

theorem stores_loadWayPoints (w : ℕ) (wp : ℕ → WayPoint) (errmsg : String)
    (hmark : content.headD id = 0xAB#8) :
    (loadWayPoints w id (.ok content) wp errmsg).stores =
      (List.range (noRecs w content.length).toNat).reverse := by
  simp only [loadWayPoints, hmark, ne_eq, not_true_eq_false, if_false]
  split_ifs <;> exact stores_wpLoading _

/-- The end mark is missing, or everything has been read. -/
theorem loadWayPoints_cases (w : ℕ) (wp : ℕ → WayPoint) (errmsg : String)
    (hmark : content.headD id = 0xAB#8) :
    (loadWayPoints w id (.ok content) wp errmsg).ret = -4 ∨
      (loadWayPoints w id (.ok content) wp errmsg).ret = noRecs w content.length ∧
        (loadWayPoints w id (.ok content) wp errmsg).wp =
          (wpLoading content wp (noRecs w content.length).toNat).wp := by
  simp only [loadWayPoints, hmark, ne_eq, not_true_eq_false, if_false]
  split_ifs
  · exact .inr ⟨rfl, rfl⟩
  · exact .inl rfl

theorem loadsWithin_iff {w : ℕ} (hw : w = 32 ∨ w = 64) (id : UCHAR) (content : List UCHAR)
    (wp : ℕ → WayPoint) (errmsg : String) :
    LoadsWithin content (loadWayPoints w id (.ok content) wp errmsg) ↔
      content.headD id ≠ 0xAB#8 ∨ noRecs w content.length ≤ maxWayPoints := by
  by_cases hmark : content.headD id = 0xAB#8
  · have hstores := stores_loadWayPoints w wp errmsg hmark
    constructor
    · intro h
      refine .inr (Int.not_lt.mp fun hlt => ?_)
      have hmem : maxWayPoints ∈ (loadWayPoints w id (.ok content) wp errmsg).stores := by
        rw [hstores, List.mem_reverse, List.mem_range]
        omega
      exact absurd (h.1 _ hmem) (Nat.lt_irrefl _)
    · rintro (hne | hle)
      · exact absurd hmark hne
      · have hlength : 2 ≤ content.length := by
          by_contra hshort
          have hlarge := lt_noRecs hw (Nat.lt_of_not_ge hshort)
          exact absurd hle (Int.not_le.mpr hlarge)
        refine ⟨?_, ?_⟩
        · intro i hi
          rw [hstores, List.mem_reverse, List.mem_range] at hi
          omega
        · rcases loadWayPoints_cases w wp errmsg hmark with hret | ⟨hret, hwp⟩
          · rw [hret]
            exact .inl (by decide)
          · rw [hret, hwp, hstores, List.length_reverse, List.length_range]
            by_cases hneg : noRecs w content.length < 0
            · exact .inl hneg
            · refine .inr ⟨by omega, fun i hi => bytes_wpLoading ?_ hi⟩
              have hfits := le_of_le_noRecs (n := (noRecs w content.length).toNat) hw hlength
                (by omega)
              rw [List.length_drop]
              omega
  · have hret : loadWayPoints w id (.ok content) wp errmsg = ⟨-3, wp, [], errmsg⟩ := by
      simp only [loadWayPoints, if_pos hmark]
    rw [hret]
    have hnegative : (-3 : ℤ) < 0 := by decide
    exact iff_of_true ⟨by simp, .inl hnegative⟩ (.inl hmark)

/-! ## The round trip -/

/-- What was written for the first `n` way points is loaded as these. -/
def WpRoundTrips (w n : ℕ) (id : UCHAR) (wp wp' : ℕ → WayPoint) (errmsg : String) : Prop :=
  (loadWayPoints w id (.ok (writeWayPoints wp)) wp' errmsg).ret = n ∧
    ∀ i < n, (loadWayPoints w id (.ok (writeWayPoints wp)) wp' errmsg).wp i = wp i

theorem loadWayPoints_writeWayPoints {w : ℕ} (hw : w = 32 ∨ w = 64) (id : UCHAR)
    (wp wp' : ℕ → WayPoint) (errmsg : String) :
    (loadWayPoints w id (.ok (writeWayPoints wp)) wp' errmsg).ret = 1 ∧
      (loadWayPoints w id (.ok (writeWayPoints wp)) wp' errmsg).wp 0 = wp 0 := by
  have hbody : (writeWayPoints wp).drop 1 = (wp 0).bytes ++ [0x54#8] := rfl
  have hlength : (writeWayPoints wp).length = 42 := by
    rw [writeWayPoints, List.length_append, List.length_cons, (wp 0).length_bytes]
    rfl
  have hrecs : noRecs w 42 = 1 := by
    have hall : ∀ w ∈ [32, 64], noRecs w 42 = 1 := by decide
    exact hall w (by simpa using hw)
  have hmark : (writeWayPoints wp).headD id = 0xAB#8 := rfl
  have hrest : (wpLoading (writeWayPoints wp) wp' 1).rest = [0x54#8] := by
    rw [rest_wpLoading, hbody, Nat.mul_one, ← (wp 0).length_bytes, List.drop_left]
  have hresult : loadWayPoints w id (.ok (writeWayPoints wp)) wp' errmsg =
      ⟨1, (wpLoading (writeWayPoints wp) wp' 1).wp, (wpLoading (writeWayPoints wp) wp' 1).stores,
        "Success"⟩ := by
    have hone : (List.range (1 : ℤ).toNat).foldl WpLoading.next
        ⟨(writeWayPoints wp).drop 1, wp', []⟩ = wpLoading (writeWayPoints wp) wp' 1 := rfl
    simp only [loadWayPoints, hmark, hlength, hrecs, hone, hrest, ne_eq, not_true_eq_false,
      if_false, List.headD_cons]
  rw [hresult]
  refine ⟨rfl, WayPoint.ext ?_⟩
  have hreach : sizeofWaypoints * 1 ≤ ((writeWayPoints wp).drop 1).length := by
    rw [List.length_drop, hlength]
    decide
  rw [bytes_wpLoading hreach Nat.zero_lt_one, hbody, chunk, Nat.mul_zero, List.drop_zero,
    ← (wp 0).length_bytes, List.take_left]

/-- The writer writes one record, so one is what comes back. -/
theorem wpRoundTrips_iff {w : ℕ} (hw : w = 32 ∨ w = 64) (n : ℕ) (id : UCHAR)
    (wp wp' : ℕ → WayPoint) (errmsg : String) : WpRoundTrips w n id wp wp' errmsg ↔ n = 1 := by
  obtain ⟨hret, hfirst⟩ := loadWayPoints_writeWayPoints hw id wp wp' errmsg
  rw [WpRoundTrips, hret]
  constructor
  · intro h
    omega
  · rintro rfl
    refine ⟨rfl, fun i hi => ?_⟩
    rw [Nat.lt_one_iff] at hi
    rw [hi, hfirst]

/-! ## Both -/

/-- The count is that of the whole records in the file unless it wraps. -/
theorem noRecs_le_iff {w length : ℕ} (hw : w = 32 ∨ w = 64) (hlength : length < 2 ^ 31) :
    noRecs w length ≤ maxWayPoints ↔ 2 ≤ length ∧ length ≤ 1841 := by
  have hsize : sizeofWaypoints = 40 := rfl
  have hmax : maxWayPoints = 45 := rfl
  rw [noRecs, Int.bmod_def, hsize, hmax]
  rcases hw with rfl | rfl
  · split_ifs <;> omega
  · split_ifs <;> omega

/-- On machines of either width: a file written for `n` way points is loaded as these for one
of them only, and a file is loaded within bounds exactly if it has no mark or if the count
that its length stands for is not larger than the table. -/
theorem wayPoints_iff {w : ℕ} (hw : w = 32 ∨ w = 64) (id : UCHAR) (wp wp' : ℕ → WayPoint)
    (errmsg : String) (n : ℕ) (content : List UCHAR) :
    (WpRoundTrips w n id wp wp' errmsg ↔ n = 1) ∧
      (LoadsWithin content (loadWayPoints w id (.ok content) wp' errmsg) ↔
        content.headD id ≠ 0xAB#8 ∨ noRecs w content.length ≤ maxWayPoints) ∧
      (content.length < 2 ^ 31 → (noRecs w content.length ≤ maxWayPoints ↔
        2 ≤ content.length ∧ content.length ≤ 1841)) :=
  ⟨wpRoundTrips_iff hw n id wp wp' errmsg, loadsWithin_iff hw id content wp' errmsg,
    noRecs_le_iff hw⟩

/-- A way point whose bytes are all the same. -/
def wayPointOf (b : UCHAR) : WayPoint := ⟨List.replicate sizeofWaypoints b, List.length_replicate⟩

/-- One way point is loaded over others. -/
theorem wayPoints_single :
    WpRoundTrips 32 1 0 (fun _ => wayPointOf 0x41) (fun _ => wayPointOf 0) "" :=
  (wayPoints_iff (.inl rfl) 0 (fun _ => wayPointOf 0x41) (fun _ => wayPointOf 0) "" 1 []).1.mpr rfl

/-- Two way points do not come back, and neither do none; and a file of forty-six records is
stored beyond the table. -/
theorem wayPoints_fail :
    ¬ WpRoundTrips 32 2 0 (fun _ => wayPointOf 0) (fun _ => wayPointOf 0) "" ∧
      ¬ WpRoundTrips 32 0 0 (fun _ => wayPointOf 0) (fun _ => wayPointOf 0) "" ∧
      ¬ LoadsWithin (0xAB#8 :: List.replicate 1841 0)
        (loadWayPoints 32 0 (.ok (0xAB#8 :: List.replicate 1841 0)) (fun _ => wayPointOf 0)
          "") := by
  refine ⟨?_, ?_, ?_⟩
  · rw [wpRoundTrips_iff (.inl rfl)]
    decide
  · rw [wpRoundTrips_iff (.inl rfl)]
    decide
  · have hlength : (0xAB#8 :: List.replicate 1841 (0 : UCHAR)).length = 1842 := by
      rw [List.length_cons, List.length_replicate]
    rw [loadsWithin_iff (.inl rfl), hlength, noRecs_le_iff (.inl rfl) (by decide)]
    rintro (hmark | ⟨-, hle⟩)
    · exact hmark rfl
    · omega

end TruckControl
