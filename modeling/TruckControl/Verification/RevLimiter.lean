import TruckControl.Library.Hysteresis
import TruckControl.Library.Transition
import TruckControl.Library.Waiting
import TruckControl.Model.RevLimiter

/-!
# The rev limiter and the speeds it compares

A speed is compared at the edge after the one that samples it, so the first comparison after
an override is one with a speed from before it.
-/

namespace TruckControl.RevLimitUnit

variable {s : RevLimitUnit} {low high : BitVec 26}

/-! ## The speeds of a run -/

/-- The speeds that are sampled in a run with the override off. -/
def sampled (s : RevLimitUnit) : List RevIn → List (BitVec 16)
  | [] => []
  | i :: es =>
      if s.revReg = .revIdle then i.rpmResult :: (s.clk i).sampled es else (s.clk i).sampled es

/-- Those of them that have been compared: each sample compares the one before. -/
def compared (s : RevLimitUnit) (es : List RevIn) : List (BitVec 16) := (s.sampled es).dropLast

/-- The override is off and the limits are these. -/
def Limited (low high : BitVec 26) (es : List RevIn) : Prop :=
  ∀ i ∈ es, i.stlvRevLimitOverride = false ∧ i.highRevLimit = high ∧ i.lowRevLimit = low

instance (low high : BitVec 26) (es : List RevIn) : Decidable (Limited low high es) :=
  inferInstanceAs (Decidable (∀ i ∈ es, _))

/-- A speed above the high limit. -/
def Above (high : BitVec 26) (x : BitVec 16) : Prop := x.toNat > high.toNat

/-- A speed below the low limit. -/
def Below (low : BitVec 26) (x : BitVec 16) : Prop := x.toNat < low.toNat

instance (high : BitVec 26) : DecidablePred (Above high) :=
  fun x => inferInstanceAs (Decidable (x.toNat > high.toNat))

instance (low : BitVec 26) : DecidablePred (Below low) :=
  fun x => inferInstanceAs (Decidable (x.toNat < low.toNat))

/-! ## One clock edge -/

theorem clk_revIdle {i : RevIn} (hreg : s.revReg = .revIdle)
    (hoff : i.stlvRevLimitOverride = false) :
    (s.clk i).urpmResult = i.rpmResult ∧
      (s.clk i).revLimit = Hysteresis.latch (Above i.highRevLimit) (Below i.lowRevLimit)
        s.revLimit s.urpmResult := by
  simp only [clk, revCase, hreg, hoff]
  exact ⟨rfl, rfl⟩

theorem clk_of_not_revIdle (i : RevIn) (hreg : s.revReg ≠ .revIdle) :
    (s.clk i).urpmResult = s.urpmResult ∧ (s.clk i).revLimit = s.revLimit := by
  cases hrev : s.revReg with
  | revIdle => exact absurd hrev hreg
  | revStart1 | revStart2 =>
      simp only [clk, revCase, hrev]
      split_ifs <;> exact ⟨rfl, rfl⟩
  | revDone => simp only [clk, revCase, hrev, and_self]

/-- The override turns the relay on. -/
theorem clk_override {i : RevIn} (hreg : s.revReg = .revIdle)
    (hon : i.stlvRevLimitOverride = true) : (s.clk i).revLimit = true := by
  simp [clk, revCase, hreg, hon]

/-! ## Runs -/

theorem revLimit_exec {es : List RevIn} (h : Limited low high es) :
    (Transition.exec clk s es).revLimit =
      ((s.urpmResult :: s.sampled es).dropLast).foldl
        (Hysteresis.latch (Above high) (Below low)) s.revLimit := by
  induction es generalizing s with
  | nil => rfl
  | cons i es ih =>
      obtain ⟨⟨hoff, rfl, rfl⟩, hes⟩ := List.forall_mem_cons.mp h
      rw [Transition.exec_cons, ih hes, sampled]
      split_ifs with hreg
      · obtain ⟨hurpm, hlimit⟩ := clk_revIdle hreg hoff
        rw [hurpm, hlimit]
        rfl
      · obtain ⟨hurpm, hlimit⟩ := clk_of_not_revIdle i hreg
        rw [hurpm, hlimit]

/-- The speed from before the run leaves the relay on. -/
def LeftOn (low high : BitVec 26) (s : RevLimitUnit) : Prop :=
  ¬ Above high s.urpmResult ∧ (Below low s.urpmResult ∨ s.revLimit = true)

theorem leftOn_iff : s.LeftOn low high ↔
    Hysteresis.latch (Above high) (Below low) s.revLimit s.urpmResult = true := by
  rw [LeftOn, Hysteresis.latch]
  split_ifs with habove hbelow <;> simp [*]

/-- After an edge in `rev_idle` with the override off, the speeds sampled and compared since
tell whether the relay is off exactly if the speed from before left it on, or one of them is
outside the band. The override turns it on. -/
theorem revLimit_eq_false_iff_cut {es : List RevIn} (h : Limited low high es)
    (hsome : s.sampled es ≠ []) :
    (((Transition.exec clk s es).revLimit = false ↔
        Hysteresis.Cut (Above high) (Below low) (s.compared es)) ↔
      s.LeftOn low high ∨ ∃ x ∈ s.compared es, Above high x ∨ Below low x) ∧
      ∀ (t : RevLimitUnit) (i : RevIn), t.revReg = .revIdle → i.stlvRevLimitOverride = true →
        (t.clk i).revLimit = true := by
  refine ⟨?_, fun t i => clk_override⟩
  rw [revLimit_exec h, List.dropLast_cons_of_ne_nil hsome, List.foldl_cons, ← compared,
    Hysteresis.foldl_latch_iff_cut, leftOn_iff]

/-! ## A speed from before the override -/

/-- A state that waits for the timer, at a count. -/
def waitingIn (r : StateRevLimit) (s : RevLimitUnit) (k : ℕ) : RevLimitUnit :=
  { s with
    revReg := r
    revNext := r
    timeDelayReg6 := BitVec.ofNat 26 k
    timeDelayNext6 := BitVec.ofNat 26 k }

theorem clk_waitingIn {r : StateRevLimit} (hr : r = .revStart1 ∨ r = .revStart2)
    (s : RevLimitUnit) (i : RevIn) :
    (fun s => clk s i)^[2 * (timeDelay6 + 1)] (s.waitingIn r 0) =
      s.waitingIn r (timeDelay6 + 1) := by
  apply Waiting.iterate_mul
  intro k hk
  have hbelow : ¬ (BitVec.ofNat 26 k).toNat > timeDelay6 := by
    have hmod := Nat.mod_le k (2 ^ 26)
    rw [BitVec.toNat_ofNat]
    omega
  rcases hr with rfl | rfl <;>
    simp only [Function.iterate_succ_apply, Function.iterate_zero_apply, waitingIn, clk, revCase,
      if_neg hbelow, BitVec.ofNat_add, BitVec.ofNat_eq_ofNat]

/-- The inputs at a speed with the default limits. -/
def running (override : Bool) (rpm : BitVec 16) : RevIn := ⟨override, rpm, 4200, 3700⟩

/-- The clock edges from one visit of `rev_idle` to the next. -/
def cycleClks : ℕ := 2 + (2 + (2 * (timeDelay6 + 1) + (2 + (2 * (timeDelay6 + 1) + 2))))

/-- The process in `rev_idle`. -/
def idleAt (urpmResult : BitVec 16) (revLimit : Bool) : RevLimitUnit :=
  { reset with urpmResult := urpmResult, revLimit := revLimit }

theorem clk_cycle :
    (fun s => clk s (running false 5000))^[cycleClks] (idleAt 0 true) = idleAt 5000 false := by
  have hsample : (fun s => clk s (running false 5000))^[2] (idleAt 0 true) =
      (idleAt 5000 false).waitingIn .revStart1 0 := rfl
  have hstart1 := clk_waitingIn (.inl rfl) (idleAt 5000 false) (running false 5000)
  have hstart2 := clk_waitingIn (.inr rfl) (idleAt 5000 false) (running false 5000)
  have hnext : (fun s => clk s (running false 5000))^[2]
      ((idleAt 5000 false).waitingIn .revStart1 (timeDelay6 + 1)) =
        (idleAt 5000 false).waitingIn .revStart2 0 := by decide +kernel
  have hdone : (fun s => clk s (running false 5000))^[2]
      ((idleAt 5000 false).waitingIn .revStart2 (timeDelay6 + 1)) =
        (idleAt 5000 false).waitingIn .revDone 0 := by decide +kernel
  have hidle : (fun s => clk s (running false 5000))^[2]
      ((idleAt 5000 false).waitingIn .revDone 0) = idleAt 5000 false := rfl
  rw [cycleClks, Function.iterate_add_apply, Function.iterate_add_apply,
    Function.iterate_add_apply, Function.iterate_add_apply, Function.iterate_add_apply, hsample,
    hstart1, hnext, hstart2, hdone, hidle]

/-- A reset, the override off for one visit of `rev_idle` and the wait after it, at 5000
revolutions, and the override on again. -/
def raced : RevLimitUnit :=
  Transition.exec clk reset ([running true 0] ++
    List.replicate cycleClks (running false 5000) ++ [running true 5000])

theorem raced_eq : raced = idleAt 5000 true := by
  have hfirst : Transition.exec clk reset [running true 0] = idleAt 0 true := rfl
  rw [raced, Transition.exec_append, Transition.exec_append, hfirst, Transition.exec_replicate,
    clk_cycle]
  rfl

/-- The override is taken off again, and the engine turns within the band. -/
def withinBand : List RevIn := List.replicate 2 (running false 4000)

/-- The speed of the time before the override is compared, and the relay stays off at a speed
that is not above the limit. -/
theorem not_cut_raced :
    Limited 3700 4200 withinBand ∧ raced.sampled withinBand = [4000, 4000] ∧
      ¬ ((Transition.exec clk raced withinBand).revLimit = false ↔
        Hysteresis.Cut (Above 4200) (Below 3700) (raced.compared withinBand)) := by
  rw [compared, raced_eq]
  refine ⟨by decide, by decide, ?_⟩
  intro h
  have hcut := h.mp (by decide)
  have hcompared : ((idleAt 5000 true).sampled withinBand).dropLast = [4000] := by decide
  rw [hcompared, Hysteresis.cut_cons] at hcut
  rcases hcut with ⟨habove, -⟩ | hnil
  · exact absurd habove (by decide)
  · exact Hysteresis.not_cut_nil _ _ hnil

/-- With a speed outside the band the comparison makes up for it. -/
theorem revLimit_eq_false_iff_cut_overrun :
    ((Transition.exec clk raced (List.replicate 2 (running false 4300))).revLimit = false ↔
      Hysteresis.Cut (Above 4200) (Below 3700)
        (raced.compared (List.replicate 2 (running false 4300)))) := by
  have hsome : raced.sampled (List.replicate 2 (running false 4300)) = [4300, 4300] := by
    rw [raced_eq]
    decide
  have hcompared : raced.compared (List.replicate 2 (running false 4300)) = [4300] := by
    rw [compared, hsome]
    rfl
  refine (revLimit_eq_false_iff_cut (by decide) (by rw [hsome]; decide)).1.mpr (.inr ?_)
  exact ⟨4300, by rw [hcompared]; decide, by decide⟩

end TruckControl.RevLimitUnit
