import TruckControl.Model.Odata
import TruckControl.Model.OdataFile

/-!
# The database file

A file that begins with the mark is loaded record by record, and nothing asks whether it is
long enough.
-/

namespace TruckControl

open SortedList

/-- The bytes of record `i` of a file. -/
def recordBytes (content : List UCHAR) (i : ℕ) : List UCHAR :=
  chunk sizeofOData (content.drop 1) i

/-- The list holds the forty records of the file. -/
def Holds (content : List UCHAR) (oll : OMemory) : Prop :=
  ∀ i < numPortBits, ∃ r, oll.find i = some r ∧ r.bytes = recordBytes content i

/-- Either all records are loaded, or none is and the code says so. -/
def LoadsOrFails (file : Except String (List UCHAR)) (oll : OMemory) (r : OLoaded) : Prop :=
  (r.ret = 0 ∧ ∃ content, file = .ok content ∧ Holds content r.oll) ∨ (r.ret < 0 ∧ r.oll = oll)

/-- The mark and forty records. -/
def Complete (content : List UCHAR) : Prop := 1 + osize ≤ content.length

instance (content : List UCHAR) : Decidable (Complete content) :=
  inferInstanceAs (Decidable (_ ≤ _))

/-! ## The loop -/

/-- The loop after `n` turns. -/
def loading (content : List UCHAR) (oData : ORecord) (oll : OMemory) (n : ℕ) : OLoading :=
  (List.range n).foldl OLoading.next ⟨content.drop 1, oData, oll⟩

variable {content : List UCHAR} {oData : ORecord} {oll : OMemory}

theorem loading_succ (n : ℕ) :
    loading content oData oll (n + 1) = (loading content oData oll n).next n := by
  rw [loading, List.range_succ, List.foldl_append, loading]
  rfl

theorem rest_loading (n : ℕ) :
    (loading content oData oll n).rest = (content.drop 1).drop (sizeofOData * n) :=
  rest_foldl_range OLoading.rest (fun _ _ => rfl) _ n

theorem bytes_next (h : Complete content) {n : ℕ} (hn : n < numPortBits) :
    (readORecord (loading content oData oll n).rest (loading content oData oll n).oData).bytes =
      recordBytes content n := by
  have hlength : sizeofOData ≤ ((content.drop 1).drop (sizeofOData * n)).length := by
    rw [Complete, osize] at h
    have hmul := Nat.mul_le_mul_left sizeofOData (Nat.succ_le_of_lt hn)
    rw [Nat.mul_succ] at hmul
    rw [List.length_drop, List.length_drop]
    omega
  change readInto sizeofOData _ _ = _
  rw [rest_loading, readInto_whole hlength (ORecord.length_bytes _)]
  rfl

/-- After `n` turns on a file that is long enough the first `n` records are in the list. -/
theorem find_loading (h : Complete content) {n : ℕ} (hn : n ≤ numPortBits) {i : ℕ} (hi : i < n) :
    ∃ r, (loading content oData oll n).oll.find i = some r ∧ r.bytes = recordBytes content i := by
  induction n with
  | zero => exact absurd hi (Nat.not_lt_zero i)
  | succ n ih =>
      rw [loading_succ]
      simp only [OLoading.next, find_insert]
      by_cases hin : i = n
      · refine ⟨_, if_pos hin, ?_⟩
        rw [bytes_next h hn, hin]
      · rw [if_neg hin]
        exact ih (Nat.le_of_succ_le hn) (by omega)

/-! ## The condition -/

theorem Holds.complete (h : Holds content oll) : Complete content := by
  obtain ⟨r, -, hbytes⟩ := h 39 (by decide)
  have hlength := congrArg List.length hbytes
  rw [r.length_bytes] at hlength
  have hlast := (length_chunk_iff (by decide : 0 < sizeofOData)).mp hlength.symm
  rw [List.length_drop] at hlast
  rw [Complete, osize]
  have hforty : sizeofOData * (39 + 1) = sizeofOData * numPortBits := rfl
  have hpos : 0 < sizeofOData * numPortBits := by decide
  rw [hforty] at hlast
  omega

theorem olLoadConfig_marked {id : UCHAR} (hmark : content.headD id = 0xAA#8) :
    olLoadConfig id oData (.ok content) oll =
      ⟨0, (loading content oData oll numPortBits).oll, "Success"⟩ := by
  simp only [olLoadConfig, hmark, ne_eq, not_true_eq_false, if_false]
  rfl

theorem olLoadConfig_unmarked {id : UCHAR} (hmark : content.headD id ≠ 0xAA#8) :
    olLoadConfig id oData (.ok content) oll =
      ⟨-1, oll, "invalid file format - id is not 0x55"⟩ := by
  simp only [olLoadConfig, if_pos hmark]

theorem loadsOrFails_iff (id : UCHAR) (oData : ORecord) (content : List UCHAR) (oll : OMemory) :
    LoadsOrFails (.ok content) oll (olLoadConfig id oData (.ok content) oll) ↔
      content.headD id ≠ 0xAA#8 ∨ Complete content := by
  by_cases hmark : content.headD id = 0xAA#8
  · rw [olLoadConfig_marked hmark]
    constructor
    · rintro (⟨-, content', hfile, hholds⟩ | ⟨hret, -⟩)
      · cases hfile
        exact .inr hholds.complete
      · exact absurd hret (Int.lt_irrefl 0)
    · rintro (hne | hcomplete)
      · exact absurd hmark hne
      · exact .inl ⟨rfl, content, rfl, fun i hi => find_loading hcomplete (Nat.le_refl _) hi⟩
  · rw [olLoadConfig_unmarked hmark]
    have hnegative : (-1 : ℤ) < 0 := by decide
    exact iff_of_true (.inr ⟨hnegative, rfl⟩) (.inl hmark)

/-! ## The round trip -/

theorem length_writtenRecord {pio : Option ORecord} (h : pio.isSome) :
    (writtenRecord pio).length = sizeofOData := by
  cases pio with
  | none => cases h
  | some pio => exact pio.length_bytes

/-- The mark and forty records behind it are a file of these records. -/
theorem recordBytes_marked (f : ℕ → List UCHAR)
    (hf : ∀ i < numPortBits, (f i).length = sizeofOData) :
    (0xAA#8 :: (List.range (osize / sizeofOData)).flatMap f).length = 1 + osize ∧
      ∀ i < numPortBits,
        recordBytes (0xAA#8 :: (List.range (osize / sizeofOData)).flatMap f) i = f i := by
  have hsize : osize / sizeofOData = numPortBits := rfl
  rw [hsize]
  refine ⟨?_, fun i hi => ?_⟩
  · rw [List.length_cons, length_flatMap_range _ _ hf, osize, Nat.add_comm]
  · rw [recordBytes, List.drop_one, List.tail_cons, chunk_flatMap _ hf hi]

/-- What is written of a list with all forty records is a complete file of them. -/
theorem recordBytes_olWriteConfig (h : ∀ i < numPortBits, (oll.find i).isSome) :
    Complete (olWriteConfig osize oll) ∧ ∀ i < numPortBits,
      recordBytes (olWriteConfig osize oll) i = writtenRecord (oll.find i) := by
  have hfile := recordBytes_marked (fun i => writtenRecord (oll.find i)) fun i hi =>
    length_writtenRecord (h i hi)
  exact ⟨Nat.le_of_eq hfile.1.symm, hfile.2⟩

theorem olLoadConfig_olWriteConfig (h : ∀ i < numPortBits, (oll.find i).isSome) (id : UCHAR)
    (oData : ORecord) (oll' : OMemory) :
    (olLoadConfig id oData (.ok (olWriteConfig osize oll)) oll').ret = 0 ∧
      ∀ i < numPortBits,
        (olLoadConfig id oData (.ok (olWriteConfig osize oll)) oll').oll.find i = oll.find i := by
  obtain ⟨hcomplete, hbytes⟩ := recordBytes_olWriteConfig h
  have hmark : (olWriteConfig osize oll).headD id = 0xAA#8 := rfl
  rw [olLoadConfig_marked hmark]
  refine ⟨rfl, fun i hi => ?_⟩
  obtain ⟨r, hfind, hr⟩ : ∃ r,
      (loading (olWriteConfig osize oll) oData oll' numPortBits).oll.find i = some r ∧
        r.bytes = recordBytes (olWriteConfig osize oll) i :=
    find_loading hcomplete (Nat.le_refl _) hi
  obtain ⟨s, hs⟩ := Option.isSome_iff_exists.mp (h i hi)
  rw [hbytes i hi, hs] at hr
  simp only [hfind, hs]
  rw [ORecord.ext hr]

/-! ## The database of the other modules -/

/-- The fields of the records that a complete file gives an empty list are those of the
database it stores. -/
theorem map_olLoadConfig (db : Database) {id : UCHAR} (hmark : content.headD id = 0xAA#8)
    (h : Complete content)
    (hdb : ∀ i < numPortBits, ∀ r : ORecord, r.bytes = recordBytes content i →
      r.odata = db.records i) :
    (olLoadConfig id oData (.ok content) init).oll.map ORecord.odata = db.olLoadConfig := by
  have hturns (n : ℕ) (hn : n ≤ numPortBits) :
      (loading content oData init n).oll.map ORecord.odata =
        (List.range n).foldl (fun l i => ollistInsertData i l (db.records i)) ollistInit := by
    induction n with
    | zero => rfl
    | succ n ih =>
        rw [loading_succ, List.range_succ, List.foldl_append, ← ih (Nat.le_of_succ_le hn)]
        simp only [OLoading.next, map_insert]
        rw [hdb n hn _ (bytes_next h hn)]
        rfl
  rw [olLoadConfig_marked hmark]
  exact hturns numPortBits (Nat.le_refl _)

/-! ## Any file, any list -/

/-- A file is loaded as a whole, or refused with the list unchanged, exactly if it has no mark
or is long enough; and what has been written of forty records is loaded as it was. -/
theorem odataFile_iff (id : UCHAR) (oData : ORecord) (content : List UCHAR) (oll : OMemory) :
    (LoadsOrFails (.ok content) oll (olLoadConfig id oData (.ok content) oll) ↔
        content.headD id ≠ 0xAA#8 ∨ Complete content) ∧
      ((∀ i < numPortBits, (oll.find i).isSome) → ∀ oll',
        (olLoadConfig id oData (.ok (olWriteConfig osize oll)) oll').ret = 0 ∧
          ∀ i < numPortBits,
            (olLoadConfig id oData (.ok (olWriteConfig osize oll)) oll').oll.find i =
              oll.find i) :=
  ⟨loadsOrFails_iff id oData content oll, fun h oll' => olLoadConfig_olWriteConfig h id oData oll'⟩

/-- A record whose bytes are all the same. -/
def filled (b : UCHAR) : ORecord := ⟨List.replicate sizeofOData b, List.length_replicate⟩

/-- Forty records that differ. -/
def numbered : OMemory :=
  (List.range numPortBits).foldl (fun l i => l.insert i (filled (.ofNat 8 i))) init

theorem find_numbered {i : ℕ} (hi : i < numPortBits) :
    numbered.find i = some (filled (.ofNat 8 i)) := by
  rw [numbered, find_foldl_insert i (fun i => filled (.ofNat 8 i)) _ _ (List.mem_range.mpr hi)]

theorem odataFile_numbered :
    (olLoadConfig 0 (filled 0) (.ok (olWriteConfig osize numbered)) init).ret = 0 ∧
      ∀ i < numPortBits,
        (olLoadConfig 0 (filled 0) (.ok (olWriteConfig osize numbered)) init).oll.find i =
          some (filled (.ofNat 8 i)) := by
  have hall : ∀ i < numPortBits, (numbered.find i).isSome := by
    intro i hi
    rw [find_numbered hi]
    rfl
  obtain ⟨hret, hfind⟩ := (odataFile_iff 0 (filled 0) [] numbered).2 hall init
  exact ⟨hret, fun i hi => (hfind i hi).trans (find_numbered hi)⟩

/-- A file that ends in its third record. -/
theorem loadsOrFails_cut :
    ¬ LoadsOrFails (.ok (0xAA#8 :: List.replicate 100 0)) init
      (olLoadConfig 0 (filled 0) (.ok (0xAA#8 :: List.replicate 100 0)) init) := by
  rw [loadsOrFails_iff]
  rintro (hmark | hcomplete)
  · exact hmark rfl
  · revert hcomplete
    rw [Complete, List.length_cons, List.length_replicate]
    decide

end TruckControl
