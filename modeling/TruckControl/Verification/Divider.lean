import Mathlib.Algebra.Group.Nat.Defs
import Mathlib.Algebra.Order.Ring.Nat
import TruckControl.Library.LongDivision
import TruckControl.Model.SpeedSensor

/-!
# The divider

It gives the quotient, or ones only if the divisor is zero.
-/

namespace TruckControl

namespace Div

open LongDivision

variable {s : Div} {dvnd dvsr k : ℕ}

/-- What it computes. -/
def quotient (dvnd dvsr : ℕ) : ℕ := if dvsr = 0 then 2 ^ 23 - 1 else dvnd / dvsr

/-- The divider after `k` of its shifts, with the bits of the quotient at the end of `rl_reg`. -/
structure Dividing (dvnd dvsr k q : ℕ) (s : Div) : Prop where
  stateReg : s.stateReg = if k < 23 then .op else .last
  nReg : s.nReg.toNat = 24 - k
  dReg : s.dReg.toNat = dvsr
  rlReg : s.rlReg.toNat = (dvnd * 2 ^ k + q) % 2 ^ 23
  lt : q < 2 ^ k
  rhReg : 0 < dvsr → Partial dvsr (dvnd / 2 ^ (23 - k)) q s.rhReg.toNat
  ones : dvsr = 0 → q = 2 ^ k - 1

/-! ## One shift -/

theorem toNat_qBit (s : Div) : s.qBit.toNat = bit s.dReg.toNat s.rhReg.toNat := by
  rw [qBit, bit]
  by_cases hle : s.dReg.toNat ≤ s.rhReg.toNat
  · simp [BitVec.le_def, hle]
  · simp [BitVec.le_def, hle]

theorem toNat_rhTmp (s : Div) :
    s.rhTmp.toNat = s.rhReg.toNat - s.dReg.toNat * bit s.dReg.toNat s.rhReg.toNat := by
  rw [rhTmp, bit]
  by_cases hle : s.dReg.toNat ≤ s.rhReg.toNat
  · rw [if_pos (BitVec.le_def.mpr hle), if_pos hle, Nat.mul_one,
      BitVec.toNat_sub_of_le (BitVec.le_def.mpr hle)]
  · rw [if_neg fun h => hle (BitVec.le_def.mp h), if_neg hle, Nat.mul_zero, Nat.sub_zero]

theorem toNat_shiftConcat (x : BitVec 23) (b : Bool) :
    (x.shiftConcat b).toNat = (2 * x.toNat + b.toNat) % 2 ^ 23 := by
  rw [BitVec.toNat_shiftConcat, Nat.shiftLeft_eq, Nat.pow_one, Nat.mul_comm]

/-- The bit that leaves `rl_reg` is the next one of the dividend. -/
theorem msb_rlReg {q : ℕ} (hk : k < 23) (h : s.rlReg.toNat = (dvnd * 2 ^ k + q) % 2 ^ 23)
    (hq : q < 2 ^ k) : s.rlReg.msb.toNat = dvnd / 2 ^ (22 - k) % 2 := by
  have hmsb : s.rlReg.msb.toNat = s.rlReg.toNat / 2 ^ 22 := by
    have hlt := s.rlReg.isLt
    rw [BitVec.msb_eq_decide]
    by_cases hle : 2 ^ 22 ≤ s.rlReg.toNat
    · rw [decide_eq_true hle, Bool.toNat_true]
      omega
    · rw [decide_eq_false hle, Bool.toNat_false]
      omega
  have hsplit : 2 ^ 22 = 2 ^ k * 2 ^ (22 - k) := by
    rw [← Nat.pow_add]
    congr 1
    omega
  have hdiv : (dvnd * 2 ^ k + q) / 2 ^ 22 = dvnd / 2 ^ (22 - k) := by
    rw [hsplit, ← Nat.div_div_eq_div_mul, Nat.add_comm,
      Nat.add_mul_div_right _ _ (Nat.two_pow_pos k), Nat.div_eq_of_lt hq, Nat.zero_add]
  rw [hmsb, h, show 2 ^ 23 = 2 ^ 22 * 2 from rfl, Nat.mod_mul_right_div_self, hdiv]

/-- What is shifted into `rl_reg`. -/
theorem toNat_rlReg_shift {q : ℕ} (h : s.rlReg.toNat = (dvnd * 2 ^ k + q) % 2 ^ 23) :
    (s.rlReg.shiftConcat s.qBit).toNat =
      (dvnd * 2 ^ (k + 1) + (2 * q + bit s.dReg.toNat s.rhReg.toNat)) % 2 ^ 23 := by
  have hpow : dvnd * 2 ^ (k + 1) = 2 * (dvnd * 2 ^ k) := by
    rw [Nat.pow_succ, ← Nat.mul_assoc, Nat.mul_comm]
  rw [toNat_shiftConcat, toNat_qBit, h, hpow]
  omega

theorem clk_op (hop : s.stateReg = .op) (start : Bool) (x y : BitVec 23) :
    s.clk start x y =
      { s with
        rlReg := s.rlReg.shiftConcat s.qBit
        rhReg := s.rhTmp.shiftConcat s.rlReg.msb
        nReg := s.nReg - 1
        stateReg := if s.nReg - 1 = 1 then .last else .op } := by
  simp only [clk, hop]

theorem bit_of_ones (h : dvsr = 0) (r : ℕ) : bit dvsr r = 1 := by
  rw [bit, if_pos (by omega)]

theorem Dividing.toNat_nReg {q : ℕ} (h : Dividing dvnd dvsr k q s) (hk : k < 23) :
    (s.nReg - 1).toNat = 24 - (k + 1) := by
  have hle : (1 : BitVec 5) ≤ s.nReg := by
    rw [BitVec.le_def, h.nReg]
    change 1 ≤ _
    omega
  rw [BitVec.toNat_sub_of_le hle, h.nReg]
  change 24 - k - 1 = _
  omega

/-- The remainder takes the next bit of the dividend. -/
theorem Dividing.rhReg_shift {q : ℕ} (h : Dividing dvnd dvsr k q s) (hk : k < 23)
    (hdvsr : dvsr ≤ 2 ^ 22) (hpos : 0 < dvsr) :
    Partial dvsr (dvnd / 2 ^ (23 - (k + 1))) (2 * q + bit dvsr s.rhReg.toNat)
      (s.rhTmp.shiftConcat s.rlReg.msb).toNat := by
  have hpart := h.rhReg hpos
  have hsub := hpart.sub_lt
  have hdouble : 2 * (dvnd / 2 ^ (23 - k)) + dvnd / 2 ^ (22 - k) % 2 =
      dvnd / 2 ^ (23 - (k + 1)) := by
    rw [show 23 - k = (22 - k) + 1 by omega, show 23 - (k + 1) = 22 - k by omega, Nat.pow_succ,
      ← Nat.div_div_eq_div_mul]
    omega
  have hrh : (s.rhTmp.shiftConcat s.rlReg.msb).toNat =
      2 * (s.rhReg.toNat - dvsr * bit dvsr s.rhReg.toNat) + dvnd / 2 ^ (22 - k) % 2 := by
    rw [toNat_shiftConcat, toNat_rhTmp, h.dReg, msb_rlReg hk h.rlReg h.lt, Nat.mod_eq_of_lt]
    omega
  rw [hrh, ← hdouble]
  exact hpart.step (by omega)

theorem Dividing.clk {q : ℕ} (h : Dividing dvnd dvsr k q s) (hk : k < 23)
    (hdvsr : dvsr ≤ 2 ^ 22) (start : Bool) (x y : BitVec 23) :
    Dividing dvnd dvsr (k + 1) (2 * q + bit dvsr s.rhReg.toNat) (s.clk start x y) := by
  have hop : s.stateReg = .op := by rw [h.stateReg, if_pos hk]
  have hn := h.toNat_nReg hk
  have hbit := bit_le dvsr s.rhReg.toNat
  have hlt := h.lt
  rw [clk_op hop]
  refine ⟨?_, hn, h.dReg, ?_, ?_, h.rhReg_shift hk hdvsr, fun hzero => ?_⟩
  · have hlast : s.nReg - 1 = 1 ↔ ¬ k + 1 < 23 := by
      rw [← BitVec.toNat_inj, hn]
      change _ = 1 ↔ _
      omega
    change (if s.nReg - 1 = 1 then DivState.last else .op) = _
    by_cases hend : k + 1 < 23
    · rw [if_neg fun heq => hlast.mp heq hend, if_pos hend]
    · rw [if_pos (hlast.mpr hend), if_neg hend]
  · have hshift := toNat_rlReg_shift h.rlReg
    rw [h.dReg] at hshift
    exact hshift
  · rw [Nat.pow_succ]
    omega
  · rw [h.ones hzero, bit_of_ones hzero, Nat.pow_succ]
    have hpos := Nat.two_pow_pos k
    omega

/-! ## The quotient -/

/-- The divider when it has been started. -/
theorem dividing_start (x y : BitVec 23) :
    Dividing x.toNat y.toNat 0 0
      { stateReg := .op, rhReg := 0, rlReg := x, dReg := y, nReg := 24 } := by
  refine ⟨rfl, rfl, rfl, ?_, by decide, fun hpos => ?_, fun _ => rfl⟩
  · rw [Nat.pow_zero, Nat.mul_one, Nat.add_zero, Nat.mod_eq_of_lt x.isLt]
  · rw [Nat.div_eq_of_lt x.isLt]
    exact LongDivision.start hpos

theorem Dividing.last {q : ℕ} (h : Dividing dvnd dvsr 23 q s) (hdvnd : dvnd < 2 ^ 23)
    (start : Bool) (x y : BitVec 23) :
    (s.clk start x y).stateReg = .done ∧
      (s.clk start x y).rlReg.toNat = quotient dvnd dvsr := by
  have hlast : s.stateReg = .last := h.stateReg
  have hclk : s.clk start x y =
      { s with rlReg := s.rlReg.shiftConcat s.qBit, rhReg := s.rhTmp, stateReg := .done } := by
    simp only [Div.clk, hlast]
  have hshift := toNat_rlReg_shift h.rlReg
  rw [h.dReg] at hshift
  rw [hclk]
  refine ⟨rfl, hshift.trans ?_⟩
  rw [quotient]
  split_ifs with hzero
  · rw [h.ones hzero, bit_of_ones hzero]
    omega
  · have hdiv := (h.rhReg (Nat.pos_of_ne_zero hzero)).div_eq (Nat.pos_of_ne_zero hzero)
    rw [Nat.sub_self, Nat.pow_zero, Nat.div_one] at hdiv
    have hle : dvnd / dvsr ≤ dvnd := Nat.div_le_self dvnd dvsr
    rw [hdiv] at hle ⊢
    omega

end Div

end TruckControl
