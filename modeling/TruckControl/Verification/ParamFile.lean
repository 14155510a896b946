import Mathlib.Order.Basic
import TruckControl.Model.ParamFile

/-!
# Loading a file that was not written to its end

`LoadParams` reads into `ps` and `password` before it has seen the end marker.
-/

namespace TruckControl

/-- The outcome of a load is that of the last completed write, or an error and nothing else. -/
def Atomic (last : Option ParamBlock) (b : ParamBlock) (r : Loaded) : Prop :=
  (r.ret = 0 ∧ ∃ w ∈ last, r.block.ps = w.ps ∧ r.block.password.take 4 = w.password.take 4) ∨
    r.ret < 0 ∧ r.block = b

/-- The file has no beginning, or it is complete and holds what was written last, or it is
not complete and nothing in it differs from what is in memory. -/
def Intact (id : UCHAR) (file : Option (List UCHAR)) (last : Option ParamBlock)
    (b : ParamBlock) : Prop :=
  ∀ content ∈ file, content.headD id = 0xAA#8 →
    if (content.drop 1)[sizeofParams + 4]? = some 0x55#8 then
      ∃ w ∈ last, (content.drop 1).take (sizeofParams + 4) = w.ps ++ w.password.take 4
    else
      (content.drop 1).take sizeofParams <+: b.ps ∧
        ((content.drop 1).drop sizeofParams).take 4 <+: b.password

/-- What is read of a file that begins with the marker. -/
theorem loadParams_marked {id : UCHAR} {content : List UCHAR} (h : content.headD id = 0xAA#8)
    (b : ParamBlock) :
    (loadParams id (some content) b).ret =
        (if (content.drop 1)[sizeofParams + 4]? = some 0x55#8 then 0 else -4) ∧
      (loadParams id (some content) b).block.ps = readInto sizeofParams (content.drop 1) b.ps ∧
      (loadParams id (some content) b).block.password =
        readInto 4 ((content.drop 1).drop sizeofParams) b.password := by
  have hend : ((content.drop 1).drop (sizeofParams + 4)).headD 0xAA#8 ≠ 0x55#8 ↔
      (content.drop 1)[sizeofParams + 4]? ≠ some 0x55#8 := by
    rw [List.headD_eq_head?_getD, List.head?_drop]
    cases (content.drop 1)[sizeofParams + 4]? with
    | none => simp
    | some c => simp
  have hmarked : ¬ content.headD id ≠ 0xAA#8 := fun hne => hne h
  simp only [loadParams, if_neg hmarked]
  by_cases hcomplete : (content.drop 1)[sizeofParams + 4]? = some 0x55#8
  · rw [if_pos hcomplete, if_neg (by rw [h, hend]; exact fun hne => hne hcomplete)]
    exact ⟨rfl, rfl, rfl⟩
  · rw [if_neg hcomplete, if_pos (by rw [h, hend]; exact hcomplete)]
    exact ⟨rfl, rfl, rfl⟩

/-- A read that is not cut short replaces as much as it asks for. -/
theorem readInto_of_le {n : ℕ} {file : List UCHAR} (h : n ≤ file.length) (buf : List UCHAR) :
    readInto n file buf = file.take n ++ buf.drop n := by
  rw [readInto, List.length_take, Nat.min_eq_left h]

/-- Up to its end marker, a file holds what `WriteParams` writes of a block exactly when it
is read back as that block. -/
theorem take_eq_iff {body : List UCHAR} (h : sizeofParams + 4 ≤ body.length)
    (b w : ParamBlock) :
    body.take (sizeofParams + 4) = w.ps ++ w.password.take 4 ↔
      readInto sizeofParams body b.ps = w.ps ∧
        (readInto 4 (body.drop sizeofParams) b.password).take 4 = w.password.take 4 := by
  have hps : readInto sizeofParams body b.ps = body.take sizeofParams := by
    rw [readInto_of_le (by omega), List.drop_eq_nil_of_le (Nat.le_of_eq b.length_ps),
      List.append_nil]
  have hrest : 4 ≤ (body.drop sizeofParams).length := by
    rw [List.length_drop]
    omega
  have hpassword : (readInto 4 (body.drop sizeofParams) b.password).take 4 =
      (body.drop sizeofParams).take 4 := by
    rw [readInto_of_le hrest, List.take_left']
    rw [List.length_take]
    omega
  rw [hps, hpassword, List.take_add]
  constructor
  · intro heq
    apply List.append_inj heq
    rw [List.length_take, w.length_ps]
    omega
  · intro heq
    rw [heq.1, heq.2]

theorem atomic_iff_intact (id : UCHAR) (file : Option (List UCHAR))
    (last : Option ParamBlock) (b : ParamBlock) :
    Atomic last b (loadParams id file b) ↔ Intact id file last b := by
  cases file with
  | none =>
      constructor
      · intro _ content hmem
        cases hmem
      · intro _
        exact .inr ⟨Int.negSucc_lt_zero 1, rfl⟩
  | some content =>
      by_cases hid : content.headD id = 0xAA#8
      · obtain ⟨hret, hps, hpassword⟩ := loadParams_marked hid b
        have hintact : Intact id (some content) last b ↔
            if (content.drop 1)[sizeofParams + 4]? = some 0x55#8 then
              ∃ w ∈ last, (content.drop 1).take (sizeofParams + 4) = w.ps ++ w.password.take 4
            else
              (content.drop 1).take sizeofParams <+: b.ps ∧
                ((content.drop 1).drop sizeofParams).take 4 <+: b.password := by
          constructor
          · intro h
            exact h content rfl hid
          · intro h content' hmem _
            cases hmem
            exact h
        rw [hintact, Atomic, hret, hps, hpassword]
        by_cases hcomplete : (content.drop 1)[sizeofParams + 4]? = some 0x55#8
        · -- the end marker is there, and all of the block has been replaced
          have hlen : sizeofParams + 4 ≤ (content.drop 1).length :=
            Nat.le_of_lt (List.getElem?_eq_some_iff.mp hcomplete).1
          simp only [if_pos hcomplete, take_eq_iff hlen b, true_and, Int.lt_irrefl, false_and,
            or_false]
        · -- an error is reported
          have hsame : (loadParams id (some content) b).block = b ↔
              (content.drop 1).take sizeofParams <+: b.ps ∧
                ((content.drop 1).drop sizeofParams).take 4 <+: b.password := by
            rw [ParamBlock.ext_iff, hps, hpassword, readInto_eq_iff, readInto_eq_iff]
          simp only [if_neg hcomplete, hsame]
          simp
      · have hbad : loadParams id (some content) b = ⟨-3, b⟩ := by
          simp only [loadParams, if_pos hid]
        rw [hbad]
        constructor
        · intro _ content' hmem h
          cases hmem
          exact absurd h hid
        · intro _
          exact .inr ⟨Int.negSucc_lt_zero 2, rfl⟩

/-- What is in a file whose writing was cut off before the end marker. -/
theorem intact_cut_iff (id : UCHAR) (last : Option ParamBlock) (b w : ParamBlock) {n : ℕ}
    (hn : n < (writeParams w).length) :
    Intact id (some ((writeParams w).take n)) last b ↔
      n = 0 ∨ w.ps.take (n - 1) <+: b.ps ∧
        (w.password.take 4).take (n - 1 - sizeofParams) <+: b.password := by
  have hpw : (w.password.take 4).length = 4 := by
    rw [List.length_take, w.length_password]
    decide
  cases n with
  | zero =>
      refine ⟨fun _ => .inl rfl, fun _ content hmem _ => ?_⟩
      cases hmem
      rw [List.take_zero, if_neg (by simp)]
      simp
  | succ m =>
      have hm : m ≤ sizeofParams + 4 := by
        rw [writeParams, List.length_append, List.length_append, List.length_cons, hpw,
          w.length_ps, List.length_singleton] at hn
        omega
      have hcontent : (writeParams w).take (m + 1) =
          0xAA#8 :: (w.ps ++ (w.password.take 4 ++ [0x55#8])).take m := by
        rw [writeParams, List.append_assoc, List.cons_append, List.take_succ_cons]
      have hend : ((w.ps ++ (w.password.take 4 ++ [0x55#8])).take m)[sizeofParams + 4]? =
          none := by
        rw [List.getElem?_eq_none_iff, List.length_take]
        omega
      have hps : ((w.ps ++ (w.password.take 4 ++ [0x55#8])).take m).take sizeofParams =
          w.ps.take m := by
        rw [List.take_take, Nat.min_comm, ← List.take_take, List.take_left' w.length_ps]
      have hpassword : (((w.ps ++ (w.password.take 4 ++ [0x55#8])).take m).drop
          sizeofParams).take 4 = (w.password.take 4).take (m - sizeofParams) := by
        rw [List.drop_take, List.drop_left' w.length_ps, List.take_take, Nat.min_comm,
          ← List.take_take, List.take_left' hpw]
      have hintact : Intact id (some ((writeParams w).take (m + 1))) last b ↔
          w.ps.take m <+: b.ps ∧
            (w.password.take 4).take (m - sizeofParams) <+: b.password := by
        rw [hcontent]
        constructor
        · intro h
          have := h _ rfl rfl
          rwa [List.drop_succ_cons, List.drop_zero, hend, if_neg (by simp), hps, hpassword] at this
        · intro h content hmem _
          cases hmem
          rwa [List.drop_succ_cons, List.drop_zero, hend, if_neg (by simp), hps, hpassword]
      rw [hintact, Nat.add_sub_cancel]
      simp

/-- A load is atomic exactly when the file is intact. In particular, after a write that was
cut off `n` bytes behind its beginning, when these hold nothing but the marker and what is
in memory already. -/
theorem loadParams_atomic_iff (id : UCHAR) (last : Option ParamBlock) (b : ParamBlock) :
    (∀ file, Atomic last b (loadParams id file b) ↔ Intact id file last b) ∧
    ∀ w n, n < (writeParams w).length →
      (Atomic last b (loadParams id (some ((writeParams w).take n)) b) ↔
        n = 0 ∨ w.ps.take (n - 1) <+: b.ps ∧
          (w.password.take 4).take (n - 1 - sizeofParams) <+: b.password) := by
  constructor
  · intro file
    exact atomic_iff_intact id file last b
  · intro w n hn
    rw [atomic_iff_intact, intact_cut_iff id last b w hn]

/-- All bytes alike. -/
def uniformBlock (c : UCHAR) : ParamBlock where
  ps := List.replicate sizeofParams c
  password := List.replicate passwordSize c
  length_ps := List.length_replicate
  length_password := List.length_replicate

/-- One byte of `ps` was written behind the marker. -/
theorem loadParams_not_atomic :
    ¬ ∀ (id : UCHAR) (last : Option ParamBlock) (b : ParamBlock) (file : Option (List UCHAR)),
      Atomic last b (loadParams id file b) := by
  intro h
  have hcut := h 0 (some (uniformBlock 0)) (uniformBlock 0)
    (some ((writeParams (uniformBlock 1)).take 2))
  rw [atomic_iff_intact, intact_cut_iff _ _ _ _ (by decide)] at hcut
  exact absurd hcut (by decide)

end TruckControl
