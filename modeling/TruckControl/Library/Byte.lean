import Mathlib.Data.Nat.Notation

/-!
# Single bits of a byte

Port registers are bytes that are read and written one bit at a time, through
masks. `assign` is the read-modify-write of one bit, `highestBit` the position of
the highest bit of a mask.
-/

namespace TruckControl.Byte

/-- Write one bit through the mask `1 <<< i`. -/
def assign (b : BitVec 8) (i : ℕ) (v : Bool) : BitVec 8 :=
  if v then b ||| (1#8 <<< i) else b &&& ~~~(1#8 <<< i)

theorem getLsbD_mask {i : ℕ} (hi : i < 8) (j : ℕ) : (1#8 <<< i).getLsbD j = decide (j = i) := by
  rw [BitVec.getLsbD_shiftLeft, BitVec.getLsbD_one]
  by_cases hji : j = i
  · simp [hji, hi]
  · have hout : j < i ∨ j - i ≠ 0 := by omega
    rcases hout with hlt | hne
    · simp [hji, hlt]
    · simp [hji, hne]

@[simp] theorem getLsbD_assign (b : BitVec 8) (i j : ℕ) (v : Bool) (hi : i < 8) :
    (assign b i v).getLsbD j = if j = i then v else b.getLsbD j := by
  rw [assign]
  cases v with
  | false =>
    rw [if_neg Bool.false_ne_true, BitVec.getLsbD_and, BitVec.getLsbD_not, getLsbD_mask hi]
    by_cases hj : j < 8
    · by_cases hji : j = i <;> simp [hj, hji]
    · have hji : j ≠ i := by omega
      have hb : b.getLsbD j = false := BitVec.getLsbD_of_ge b j (by omega)
      simp [hji, hb]
  | true =>
    rw [if_pos rfl, BitVec.getLsbD_or, getLsbD_mask hi]
    by_cases hji : j = i <;> simp [hji]

/-- Shift the mask right, counting, until it is empty; `fuel` bounds the shifts of a
mask that is not. -/
def shiftCount : ℕ → BitVec 8 → ℕ → ℕ
  | 0, _, i => i
  | fuel + 1, mask, i =>
      let mask := mask >>> 1
      if mask = 0 then i + 1 else shiftCount fuel mask (i + 1)

/-- The position of the highest bit of a mask, and 0 for the empty mask. -/
def highestBit (mask : BitVec 8) : ℕ := shiftCount 8 mask 0 - 1

theorem highestBit_lt : ∀ mask : BitVec 8, highestBit mask < 8 := by decide +kernel

theorem getLsbD_highestBit : ∀ mask : BitVec 8, mask ≠ 0 →
    mask.getLsbD (highestBit mask) = true := by decide +kernel

theorem getLsbD_of_highestBit_lt : ∀ mask : BitVec 8, ∀ j < 8, highestBit mask < j →
    mask.getLsbD j = false := by decide +kernel

/-- The highest bit is the one that is set with none set above it. -/
theorem highestBit_eq_iff {mask : BitVec 8} {i : ℕ} (hm : mask ≠ 0) :
    highestBit mask = i ↔
      mask.getLsbD i = true ∧ ∀ j < 8, i < j → mask.getLsbD j = false := by
  constructor
  · rintro rfl
    exact ⟨getLsbD_highestBit mask hm, getLsbD_of_highestBit_lt mask⟩
  · rintro ⟨hi, habove⟩
    have hlt : i < 8 := BitVec.lt_of_getLsbD hi
    rcases Nat.lt_trichotomy (highestBit mask) i with h | h | h
    · rw [getLsbD_of_highestBit_lt mask i hlt h] at hi
      cases hi
    · exact h
    · have := getLsbD_highestBit mask hm
      rw [habove _ (highestBit_lt mask) h] at this
      cases this

/-- A mask exceeds `0x80` when it has a lower bit beside bit 7. -/
theorem gt_iff : ∀ mask : BitVec 8,
    mask > 0x80#8 ↔ mask.getLsbD 7 = true ∧ ∃ j < 7, mask.getLsbD j = true := by
  decide +kernel

theorem le_of_getLsbD_seven {mask : BitVec 8} (h : mask.getLsbD 7 = false) : ¬ mask > 0x80#8 := by
  rw [gt_iff, h]
  simp

/-- The mask of the bits in which two bytes differ. -/
theorem getLsbD_xor_iff (a b : BitVec 8) (i : ℕ) :
    (a ^^^ b).getLsbD i = true ↔ a.getLsbD i ≠ b.getLsbD i := by
  rw [BitVec.getLsbD_xor]
  cases a.getLsbD i <;> cases b.getLsbD i <;> decide

/-- All bits in which `a` differs are set in `a`. -/
theorem xor_and_eq_iff (a b : BitVec 8) :
    (a ^^^ b) &&& a = a ^^^ b ↔
      ∀ i < 8, a.getLsbD i ≠ b.getLsbD i → a.getLsbD i = true := by
  constructor
  · intro h i _ hne
    have hbit := (getLsbD_xor_iff a b i).mpr hne
    rw [← h, BitVec.getLsbD_and, Bool.and_eq_true] at hbit
    exact hbit.2
  · intro h
    apply BitVec.eq_of_getLsbD_eq
    intro i hi
    by_cases hne : a.getLsbD i = b.getLsbD i
    · simp [hne]
    · simp [h i hi hne]

/-- Writing all bits in which `a` differs to one level. -/
theorem getLsbD_settle (a b : BitVec 8) {i : ℕ} (hi : i < 8) (v : Bool) :
    (if v then a ||| (a ^^^ b) else a &&& ~~~(a ^^^ b)).getLsbD i =
      if a.getLsbD i ≠ b.getLsbD i then v else a.getLsbD i := by
  cases v <;> simp only [Bool.false_eq_true, if_true, if_false, BitVec.getLsbD_or,
    BitVec.getLsbD_and, BitVec.getLsbD_not, BitVec.getLsbD_xor, hi, decide_true, Bool.true_and]
  all_goals cases a.getLsbD i <;> cases b.getLsbD i <;> rfl

end TruckControl.Byte
