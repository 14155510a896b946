import Mathlib.Algebra.Group.Nat.Defs
import Mathlib.Order.Lattice
import TruckControl.Library.Transition
import TruckControl.Model.UartRx

/-!
# A byte on the line

The receiver counts ticks from the start of a frame on, and takes a bit at every sixteenth.
The ticks have no phase in common with the frame, so that a bit has to be on the line for one
period of the ticks.
-/

namespace TruckControl

namespace UartRx

/-! ## The bits -/

/-- The register after `n` bits of a byte. -/
def shifted (byte old : UCHAR) : ℕ → UCHAR
  | 0 => old
  | n + 1 => BitVec.cons (byte.getLsbD n) ((shifted byte old n).extractLsb' 1 7)

theorem getLsbD_shifted (byte old : UCHAR) (n : ℕ) {i : ℕ} (hi : i < 8) :
    (shifted byte old n).getLsbD i =
      if i + n < 8 then old.getLsbD (i + n) else byte.getLsbD (i + n - 8) := by
  induction n generalizing i with
  | zero => simp [shifted, hi]
  | succ n ih =>
      rw [shifted, BitVec.getLsbD_cons]
      by_cases hlast : i = 7
      · have hlow : ¬ i + (n + 1) < 8 := by omega
        have hbit : i + (n + 1) - 8 = n := by omega
        rw [if_pos hlast, if_neg hlow, hbit]
      · have hnext : 1 + i < 8 := by omega
        have hin : i < 7 := by omega
        have hplace : 1 + i + n = i + (n + 1) := by omega
        rw [if_neg hlast, BitVec.getLsbD_extractLsb', ih hnext, hplace]
        simp [hin]

@[simp] theorem shifted_eight (byte old : UCHAR) : shifted byte old 8 = byte := by
  apply BitVec.eq_of_getLsbD_eq
  intro i hi
  rw [getLsbD_shifted byte old 8 hi, if_neg (by omega), Nat.add_sub_cancel]

/-! ## The ticks of a frame -/

/-- How many ticks of the frame have been counted, of 152. -/
def ticks (u : UartRx) : ℕ :=
  match u.stateRegRx with
  | .idle => 152
  | .start => u.sReg.toNat
  | .data => 8 + 16 * u.nReg.toNat + u.sReg.toNat
  | .stop => 136 + u.sReg.toNat

/-- What there is of the byte. -/
def Reads (byte old : UCHAR) (u : UartRx) : Prop :=
  match u.stateRegRx with
  | .idle | .stop => u.bReg = byte
  | .start => u.sReg.toNat < 8 ∧ u.bReg = old
  | .data => u.bReg = shifted byte old u.nReg.toNat

variable {byte old : UCHAR} {u : UartRx} {rx : Bool}

theorem clk_idle (h : u.stateRegRx = .idle) (sTick : Bool) : u.clk sTick true = u := by
  rw [clk, h]
  rfl

theorem clk_of_not_tick (h : u.stateRegRx ≠ .idle) (rx : Bool) : u.clk false rx = u := by
  rw [clk]
  cases hstate : u.stateRegRx with
  | idle => exact absurd hstate h
  | start | data | stop => rfl

theorem awaitsTick_iff : u.awaitsTick = true ↔ u.ticks = 151 := by
  rw [awaitsTick, ticks, decide_eq_true_eq, ← BitVec.toNat_inj]
  cases u.stateRegRx with
  | idle => simp
  | start => simp; omega
  | data => simp; omega
  | stop =>
      simp only [true_and]
      exact ⟨fun h => by rw [h]; rfl, fun h => Nat.add_left_cancel h⟩

theorem ticks_lt (h : u.stateRegRx ≠ .idle) : u.ticks < 152 := by
  rw [ticks]
  cases hstate : u.stateRegRx with
  | idle => exact absurd hstate h
  | start | data | stop =>
      dsimp only
      omega

theorem toNat_sReg_add_one (h : u.sReg ≠ 15) : (u.sReg + 1).toNat = u.sReg.toNat + 1 := by
  have hne : u.sReg.toNat ≠ 15 := fun heq => h (BitVec.eq_of_toNat_eq heq)
  rw [BitVec.toNat_add]
  exact Nat.mod_eq_of_lt (by change u.sReg.toNat + 1 < 16; omega)

theorem toNat_nReg_add_one (h : u.nReg ≠ 7) : (u.nReg + 1).toNat = u.nReg.toNat + 1 := by
  have hne : u.nReg.toNat ≠ 7 := fun heq => h (BitVec.eq_of_toNat_eq heq)
  rw [BitVec.toNat_add]
  exact Nat.mod_eq_of_lt (by change u.nReg.toNat + 1 < 8; omega)

/-- A tick is one more, and takes a bit where it has to. -/
theorem Reads.tick (h : u.Reads byte old) (hbusy : u.stateRegRx ≠ .idle) (rx : Bool)
    (hrx : ∀ n < 8, u.ticks = 23 + 16 * n → rx = byte.getLsbD n) :
    (u.clk true rx).Reads byte old ∧ (u.clk true rx).ticks = u.ticks + 1 := by
  cases hstate : u.stateRegRx with
  | idle => exact absurd hstate hbusy
  | start =>
      simp only [Reads, hstate] at h
      by_cases hs : u.sReg = 7
      · simp [clk, hstate, hs, Reads, ticks, shifted, h.2]
      · have hne : u.sReg.toNat ≠ 7 := fun heq => hs (BitVec.eq_of_toNat_eq heq)
        have h15 : u.sReg ≠ 15 := by
          intro heq
          rw [heq] at h
          exact absurd h.1 (by decide)
        simp only [clk, hstate, hs, Reads, ticks, if_true, if_false, toNat_sReg_add_one h15]
        exact ⟨⟨by omega, h.2⟩, trivial⟩
  | data =>
      simp only [Reads, hstate] at h
      by_cases hs : u.sReg = 15
      · have hticks : u.ticks = 23 + 16 * u.nReg.toNat := by
          simp only [ticks, hstate, hs]
          change 8 + 16 * u.nReg.toNat + 15 = _
          omega
        have hbit := hrx u.nReg.toNat u.nReg.isLt hticks
        by_cases hn : u.nReg = 7
        · have hbyte : BitVec.cons rx (u.bReg.extractLsb' 1 7) = byte := by
            rw [hn] at hbit h
            rw [hbit, h]
            exact shifted_eight byte old
          simp [clk, hstate, hs, hn, Reads, ticks, hbyte]
        · have hnext : BitVec.cons rx (u.bReg.extractLsb' 1 7) =
              shifted byte old (u.nReg.toNat + 1) := by
            rw [hbit, h]
            rfl
          simp only [clk, hstate, hs, hn, Reads, ticks, if_true, if_false, hnext,
            toNat_nReg_add_one hn]
          refine ⟨trivial, ?_⟩
          change 8 + 16 * (u.nReg.toNat + 1) + 0 = 8 + 16 * u.nReg.toNat + 15 + 1
          omega
      · simp only [clk, hstate, hs, Reads, ticks, if_true, if_false, toNat_sReg_add_one hs]
        exact ⟨h, rfl⟩
  | stop =>
      simp only [Reads, hstate] at h
      by_cases hs : u.sReg = 15
      · simp [clk, hstate, hs, Reads, ticks, h]
      · simp only [clk, hstate, hs, Reads, ticks, if_true, if_false, toNat_sReg_add_one hs]
        exact ⟨h, rfl⟩

end UartRx

end TruckControl
