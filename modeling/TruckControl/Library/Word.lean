import Mathlib.Data.Nat.Notation

/-! # The two bytes of a word -/

namespace TruckControl.Word

def low (w : BitVec 16) : BitVec 8 := w.setWidth 8

def high (w : BitVec 16) : BitVec 8 := (w >>> 8).setWidth 8

/-- Put a word together from its bytes. -/
def join (lo hi : BitVec 8) : BitVec 16 := lo.setWidth 16 ||| hi.setWidth 16 <<< 8

theorem getLsbD_join (lo hi : BitVec 8) (i : ℕ) :
    (join lo hi).getLsbD i = if i < 8 then lo.getLsbD i else hi.getLsbD (i - 8) := by
  rw [join, BitVec.getLsbD_or, BitVec.getLsbD_shiftLeft, BitVec.getLsbD_setWidth,
    BitVec.getLsbD_setWidth]
  by_cases hi8 : i < 8
  · have hi16 : i < 16 := by omega
    simp [hi8, hi16]
  · have hlo : lo.getLsbD i = false := BitVec.getLsbD_of_ge lo i (by omega)
    by_cases hi16 : i < 16
    · have hrest : i - 8 < 16 := by omega
      simp [hi8, hi16, hlo, hrest]
    · have hhi : hi.getLsbD (i - 8) = false := BitVec.getLsbD_of_ge hi _ (by omega)
      simp [hi16, hlo, hhi]

@[simp] theorem join_low_high (w : BitVec 16) : join (low w) (high w) = w := by
  apply BitVec.eq_of_getLsbD_eq
  intro i hi
  rw [getLsbD_join, low, high, BitVec.getLsbD_setWidth, BitVec.getLsbD_setWidth,
    BitVec.getLsbD_ushiftRight]
  by_cases hi8 : i < 8
  · simp [hi8]
  · have hrest : i - 8 < 8 := by omega
    have hsum : 8 + (i - 8) = i := by omega
    simp [hi8, hrest, hsum]

@[simp] theorem low_join (lo hi : BitVec 8) : low (join lo hi) = lo := by
  apply BitVec.eq_of_getLsbD_eq
  intro i hi8
  rw [low, BitVec.getLsbD_setWidth, getLsbD_join]
  simp [hi8]

@[simp] theorem high_join (lo hi : BitVec 8) : high (join lo hi) = hi := by
  apply BitVec.eq_of_getLsbD_eq
  intro i hi8
  rw [high, BitVec.getLsbD_setWidth, BitVec.getLsbD_ushiftRight, getLsbD_join]
  simp [hi8]

/-! ## A word that changes while it is sent -/

/-- One of the bytes at least is the same. -/
def OneByte (v w : BitVec 16) : Prop := low v = low w ∨ high v = high w

instance (v w : BitVec 16) : Decidable (OneByte v w) := inferInstanceAs (Decidable (_ ∨ _))

/-- The low byte of one word and the high byte of another make one of the two exactly if the
words differ in one byte at most. -/
theorem join_eq_or_iff (v w : BitVec 16) :
    join (low v) (high w) = v ∨ join (low v) (high w) = w ↔ OneByte v w := by
  constructor
  · rintro (h | h)
    · right
      rw [← congrArg high h, high_join]
    · left
      rw [← congrArg low h, low_join]
  · rintro (h | h)
    · right
      rw [h, join_low_high]
    · left
      rw [← h, join_low_high]

/-- Of two readings that differ in one byte at most, the bytes make up one. -/
theorem join_reading {ι : Type*} {p : ι → Prop} (f : ι → BitVec 16) {i j : ι} (hi : p i)
    (hj : p j) (h : OneByte (f i) (f j)) :
    ∃ k, p k ∧ f k = join (low (f i)) (high (f j)) := by
  rcases (join_eq_or_iff (f i) (f j)).mpr h with heq | heq
  · exact ⟨i, hi, heq.symm⟩
  · exact ⟨j, hj, heq.symm⟩

end TruckControl.Word
