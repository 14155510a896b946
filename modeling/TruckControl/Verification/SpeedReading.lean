import TruckControl.Verification.SpeedSensor

/-!
# The readings of the two sensors

A reading is the dividend over the ticks between two edges, kept to the register's sixteen bits.
-/

namespace TruckControl

open Sensor

/-- The sensor after these samples, from reset on. -/
def sensorAfter (clkCount dvnd : ℕ) (samples : List Bool) : Sensor :=
  Sensor.reset.run clkCount (BitVec.ofNat 23 dvnd) samples

/-- A run in which two successive edges are measured, up to the result. -/
structure Measurement (clkCount dvnd : ℕ) where
  before : List Bool
  between : List Bool
  after : List Bool
  waite : (sensorAfter clkCount dvnd before).prdCountUnit.pstateReg = .waite
  low : (sensorAfter clkCount dvnd before).prdCountUnit.delayReg = false
  noEdge : List.IsChain (fun a b => b = true → a = true) (true :: between)
  falls : (true :: between).getLast (List.cons_ne_nil _ _) = false
  long : clkCount ≤ between.length
  /-- The result is written at the last of these edges. -/
  published : after.length = 29

namespace Measurement

variable {clkCount dvnd : ℕ}

/-- All samples. -/
def samples (r : Measurement clkCount dvnd) : List Bool :=
  r.before ++ true :: (r.between ++ true :: r.after)

/-- The clocks from one edge to the next. -/
def spacing (r : Measurement clkCount dvnd) : ℕ := r.between.length + 1

/-- The ticks of the period, as they would be without a limit. -/
def ticks (r : Measurement clkCount dvnd) : ℕ := (r.spacing - 1) / clkCount

/-- The published result. -/
def reading (r : Measurement clkCount dvnd) : ℕ :=
  (sensorAfter clkCount dvnd r.samples).result.toNat

/-- It is the nearest that the register can hold. -/
def Exact (r : Measurement clkCount dvnd) : Prop := r.reading = min 65535 (dvnd / r.ticks)

theorem reading_eq (r : Measurement clkCount dvnd) (hc : 0 < clkCount) (hle : clkCount ≤ 2 ^ 16)
    (hdvnd : dvnd < 2 ^ 23) :
    r.reading = Div.quotient dvnd (r.ticks % 2 ^ 17) % 2 ^ 16 := by
  have hfactor : (BitVec.ofNat 23 dvnd).toNat = dvnd := by
    rw [BitVec.toNat_ofNat, Nat.mod_eq_of_lt hdvnd]
  have hfirst := (valid_run r.before).counting clkCount (BitVec.ofNat 23 dvnd) r.waite r.low
  have hcounted := hfirst.run (BitVec.ofNat 23 dvnd) hc hle r.noEdge
  rw [r.falls, Nat.zero_add] at hcounted
  have hperiod := Nat.mod_lt (r.between.length / clkCount) (Nat.two_pow_pos 17)
  have hstage := (hcounted.stage (BitVec.ofNat 23 dvnd)).run clkCount hperiod
    (Nat.le_of_eq ((Nat.zero_add _).trans r.published))
  rw [Nat.zero_add, r.published] at hstage
  have hresult := hstage.result_eq
  rw [hfactor] at hresult
  rw [reading, sensorAfter, samples, Sensor.run, Transition.exec_append, Transition.exec_cons,
    Transition.exec_append, Transition.exec_cons]
  exact hresult

theorem ticks_pos (r : Measurement clkCount dvnd) (hc : 0 < clkCount) : 0 < r.ticks := by
  rw [ticks, spacing, Nat.add_sub_cancel]
  exact Nat.div_pos r.long hc

theorem ticks_mono (r r' : Measurement clkCount dvnd) (h : r.spacing ≤ r'.spacing) :
    r.ticks ≤ r'.ticks := Nat.div_le_div_right (Nat.sub_le_sub_right h 1)

/-- Among exact readings the longer spacing has the smaller one. -/
theorem Exact.reading_le {r r' : Measurement clkCount dvnd} (hr : r.Exact) (hr' : r'.Exact)
    (hc : 0 < clkCount) (h : r.spacing ≤ r'.spacing) : r'.reading ≤ r.reading := by
  have hdiv : dvnd / r'.ticks ≤ dvnd / r.ticks :=
    Nat.div_le_div_left (ticks_mono r r' h) (r.ticks_pos hc)
  rw [hr, hr']
  exact min_le_min_left 65535 hdiv

end Measurement

/-! ## Where the registers hold the values -/

/-- The ticks for which the revolutions are exact: a quotient of at most sixteen bits, and a
period that has not wrapped. -/
def RpmRange (n : ℕ) : Prop := 92 ≤ n ∧ n < 2 ^ 17

/-- A speed of zero is exact after a wrap too, if the period wrapped to one that gives zero. -/
def MphRange (n : ℕ) : Prop := n < 2 ^ 17 ∨ mphDvnd < n % 2 ^ 17

/-- Noise: the quotient has more than sixteen bits. -/
theorem rpm_noise : ∀ m < 92, 0 < m →
    45 < rpmDvnd / m % 2 ^ 16 ∧ rpmDvnd / m % 2 ^ 16 < 65535 ∧ 65535 < rpmDvnd / m := by
  decide

theorem quotient_pos {dvnd m : ℕ} (h : 0 < m) : Div.quotient dvnd m = dvnd / m := by
  rw [Div.quotient, if_neg (by omega)]

theorem rpm_eq_iff {n : ℕ} (hn : 0 < n) :
    Div.quotient rpmDvnd (n % 2 ^ 17) % 2 ^ 16 = min 65535 (rpmDvnd / n) ↔ RpmRange n := by
  rw [RpmRange]
  by_cases hwrap : n < 2 ^ 17
  · rw [Nat.mod_eq_of_lt hwrap, quotient_pos hn]
    by_cases hnoise : n < 92
    · have hm := rpm_noise n hnoise hn
      omega
    · have hle : rpmDvnd / n ≤ rpmDvnd / 92 := Nat.div_le_div_left (by omega) (by decide)
      rw [show rpmDvnd / 92 = 65217 from rfl] at hle
      rw [Nat.min_eq_right (by omega), Nat.mod_eq_of_lt (by omega)]
      omega
  · refine iff_of_false (fun heq => ?_) (by omega)
    have hexpected : rpmDvnd / n ≤ 45 := by
      have hle : rpmDvnd / n ≤ rpmDvnd / 2 ^ 17 := Nat.div_le_div_left (by omega) (by decide)
      exact hle
    rcases Nat.eq_zero_or_pos (n % 2 ^ 17) with hzero | hpos
    · rw [hzero, show Div.quotient rpmDvnd 0 % 2 ^ 16 = 65535 from rfl] at heq
      omega
    · rw [quotient_pos hpos] at heq
      by_cases hnoise : n % 2 ^ 17 < 92
      · have hm := rpm_noise (n % 2 ^ 17) hnoise hpos
        omega
      · have hle : rpmDvnd / (n % 2 ^ 17) ≤ rpmDvnd / 92 :=
          Nat.div_le_div_left (by omega) (by decide)
        rw [show rpmDvnd / 92 = 65217 from rfl] at hle
        -- the period wrapped to less, so the quotient is larger than the one expected
        have hlow : rpmDvnd / n < 45 ∨ n ≤ 133333 := by
          by_cases hlong : n ≤ 133333
          · exact Or.inr hlong
          · exact Or.inl ((Nat.div_lt_iff_lt_mul hn).mpr (by rw [rpmDvnd]; omega))
        have hhigh : 45 ≤ rpmDvnd / (n % 2 ^ 17) :=
          (Nat.le_div_iff_mul_le hpos).mpr (by rw [rpmDvnd]; omega)
        rcases hlow with hlow | hshort
        · omega
        · have hmore : 46 ≤ rpmDvnd / (n % 2 ^ 17) :=
            (Nat.le_div_iff_mul_le hpos).mpr (by rw [rpmDvnd]; omega)
          omega

theorem mph_eq_iff {n : ℕ} (hn : 0 < n) :
    Div.quotient mphDvnd (n % 2 ^ 17) % 2 ^ 16 = min 65535 (mphDvnd / n) ↔ MphRange n := by
  rw [MphRange]
  have hle (m : ℕ) : mphDvnd / m ≤ 20000 := Nat.div_le_self mphDvnd m
  by_cases hwrap : n < 2 ^ 17
  · have hquot := hle n
    rw [Nat.mod_eq_of_lt hwrap, quotient_pos hn, Nat.min_eq_right (by omega),
      Nat.mod_eq_of_lt (by omega)]
    omega
  · have hexpected : mphDvnd / n = 0 := Nat.div_eq_of_lt (by rw [mphDvnd]; omega)
    rw [hexpected, Nat.min_zero]
    rcases Nat.eq_zero_or_pos (n % 2 ^ 17) with hzero | hpos
    · rw [hzero, show Div.quotient mphDvnd 0 % 2 ^ 16 = 65535 from rfl]
      omega
    · have hquot := hle (n % 2 ^ 17)
      have hdiv : mphDvnd / (n % 2 ^ 17) = 0 ↔ mphDvnd < n % 2 ^ 17 :=
        Nat.div_eq_zero_iff_lt hpos
      rw [quotient_pos hpos, Nat.mod_eq_of_lt (by omega)]
      omega

theorem Measurement.rpm_iff (r : Measurement rpmClockCount rpmDvnd) :
    r.Exact ↔ RpmRange r.ticks := by
  rw [Exact, r.reading_eq (by decide) (by decide) (by decide)]
  exact rpm_eq_iff (r.ticks_pos (by decide))

theorem Measurement.mph_iff (v : Measurement mphClockCount mphDvnd) :
    v.Exact ↔ MphRange v.ticks := by
  rw [Exact, v.reading_eq (by decide) (by decide) (by decide)]
  exact mph_eq_iff (v.ticks_pos (by decide))

/-- The readings are exact just in these ranges, and within them a longer spacing never gives a
larger reading. -/
theorem readings_exact_iff (r r' : Measurement rpmClockCount rpmDvnd)
    (v v' : Measurement mphClockCount mphDvnd) :
    ((r.Exact ↔ RpmRange r.ticks) ∧ (v.Exact ↔ MphRange v.ticks)) ∧
      (RpmRange r.ticks → RpmRange r'.ticks → r.spacing ≤ r'.spacing →
        r'.reading ≤ r.reading) ∧
      (MphRange v.ticks → MphRange v'.ticks → v.spacing ≤ v'.spacing →
        v'.reading ≤ v.reading) := by
  refine ⟨⟨r.rpm_iff, v.mph_iff⟩, fun hr hr' h => ?_, fun hv hv' h => ?_⟩
  · exact (r.rpm_iff.mpr hr).reading_le (r'.rpm_iff.mpr hr') (by decide) h
  · exact (v.mph_iff.mpr hv).reading_le (v'.mph_iff.mpr hv') (by decide) h

/-! ## Out of the range -/

namespace Measurement

theorem noEdge_low (last : Bool) (n : ℕ) :
    List.IsChain (fun a b => b = true → a = true) (last :: List.replicate n false) := by
  induction n generalizing last with
  | zero => exact List.IsChain.singleton last
  | succ n ih =>
      rw [List.replicate_succ, List.isChain_cons_cons]
      exact ⟨fun h => Bool.noConfusion h, ih false⟩

/-- The first edge comes at once, and the second one after `k` ticks. -/
def ofTicks (clkCount dvnd k : ℕ) (hc : 0 < clkCount) (hk : 0 < k) :
    Measurement clkCount dvnd where
  before := [false, false]
  between := List.replicate (k * clkCount) false
  after := List.replicate 29 false
  waite := rfl
  low := rfl
  noEdge := noEdge_low true _
  falls := by
    have hlong : 0 < k * clkCount := Nat.mul_pos hk hc
    have hne : List.replicate (k * clkCount) false ≠ [] := by
      simp only [ne_eq, List.replicate_eq_nil_iff]
      omega
    rw [List.getLast_cons hne, List.getLast_replicate]
  long := by
    rw [List.length_replicate]
    exact Nat.le_mul_of_pos_left clkCount hk
  published := List.length_replicate

theorem ticks_ofTicks {clkCount dvnd k : ℕ} (hc : 0 < clkCount) (hk : 0 < k) :
    (ofTicks clkCount dvnd k hc hk).ticks = k := by
  rw [ticks, spacing, ofTicks, Nat.add_sub_cancel, List.length_replicate, Nat.mul_div_cancel _ hc]

theorem reading_ofTicks (clkCount dvnd k : ℕ) (hc : 0 < clkCount) (hk : 0 < k)
    (hle : clkCount ≤ 2 ^ 16) (hdvnd : dvnd < 2 ^ 23) :
    (ofTicks clkCount dvnd k hc hk).reading = Div.quotient dvnd (k % 2 ^ 17) % 2 ^ 16 := by
  rw [reading_eq _ hc hle hdvnd, ticks_ofTicks]

/-- One tick of noise reads less than 92 ticks, and a truck that stood still reads most. -/
theorem not_exact_noise :
    (ofTicks rpmClockCount rpmDvnd 1 (by decide) (by decide)).reading = 36224 ∧
      (ofTicks rpmClockCount rpmDvnd 92 (by decide) (by decide)).reading = 65217 ∧
      (ofTicks mphClockCount mphDvnd (2 ^ 17) (by decide) (by decide)).reading = 65535 ∧
      ¬ (ofTicks rpmClockCount rpmDvnd 1 (by decide) (by decide)).Exact ∧
      ¬ (ofTicks mphClockCount mphDvnd (2 ^ 17) (by decide) (by decide)).Exact := by
  have hnoise := reading_ofTicks rpmClockCount rpmDvnd 1 (by decide) (by decide) (by decide)
    (by decide)
  have hshort := reading_ofTicks rpmClockCount rpmDvnd 92 (by decide) (by decide) (by decide)
    (by decide)
  have hstill := reading_ofTicks mphClockCount mphDvnd (2 ^ 17) (by decide) (by decide)
    (by decide) (by decide)
  refine ⟨hnoise, hshort, hstill, ?_, ?_⟩
  · rw [Exact, hnoise, ticks_ofTicks]
    decide
  · rw [Exact, hstill, ticks_ofTicks]
    decide

end Measurement

end TruckControl
