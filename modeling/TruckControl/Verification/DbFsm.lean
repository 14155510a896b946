import Mathlib.Algebra.Group.Nat.Defs
import Mathlib.Order.Lattice
import TruckControl.Library.Debounce
import TruckControl.Model.DbFsm

/-!
# How long a sensor signal has to be stable

The counter is not reset before the second clock at which `temp1` is `1000`, and it stays at
zero for two clocks: the tick comes twice in a row, every 8195 clocks. An input has to be
different for little more than one period, and two are always enough.
-/

namespace TruckControl

namespace EgState

/-- The output, and the ticks that the state has waited for. -/
def debounced : EgState → Debounced
  | zero => ⟨false, none⟩
  | wait1_1 => ⟨false, some 0⟩
  | wait1_2 => ⟨false, some 1⟩
  | wait1_3 => ⟨false, some 2⟩
  | one => ⟨true, none⟩
  | wait0_1 => ⟨true, some 0⟩
  | wait0_2 => ⟨true, some 1⟩
  | wait0_3 => ⟨true, some 2⟩

theorem debounced_stateNext (sw mTick : Bool) (s : EgState) :
    (DbFsm.stateNext sw mTick s).debounced = Debounced.step 3 mTick sw s.debounced := by
  cases s <;> cases sw <;> cases mTick <;> rfl

end EgState

namespace DbFsm

theorem run_concat (sws : List Bool) (sw : Bool) : run (sws ++ [sw]) = (run sws).clk sw := by
  rw [run, List.foldl_append]
  rfl

/-! ## The ticks -/

/-- Where the counter is in its period: at zero for the first time, for the second time, and
on its way. -/
def position (n : ℕ) : ℕ := (n + 1) % 8195

def tick (n : ℕ) : Bool := position n ≤ 1

theorem toNat_zero : (0 : BitVec 14).toNat = 0 := rfl

theorem toNat_one : (1 : BitVec 14).toNat = 1 := rfl

theorem counter_run (sws : List Bool) :
    (run sws).qReg.toNat = position sws.length - 1 ∧
      (run sws).temp1.toNat =
        if position sws.length = 0 then 8 else (position sws.length - 2) / 1024 := by
  induction sws using List.reverseRecOn with
  | nil => exact ⟨rfl, rfl⟩
  | append_singleton sws sw ih =>
      obtain ⟨hq, htemp⟩ := ih
      have hlt : position sws.length < 8195 := Nat.mod_lt _ (by decide)
      have hnext : position (sws ++ [sw]).length =
          if position sws.length = 8194 then 0 else position sws.length + 1 := by
        rw [position, position, List.length_append, List.length_singleton]
        split <;> omega
      rw [run_concat, clk]
      dsimp only
      generalize position sws.length = p at *
      rw [hnext]
      refine ⟨?_, ?_⟩
      · split
        · rename_i hend
          have height : (run sws).temp1.toNat = 8 := by
            rw [hend]
            rfl
          rw [toNat_zero]
          split at htemp <;> split <;> omega
        · rename_i hgo
          have height : (run sws).temp1.toNat ≠ 8 := fun heq => hgo (BitVec.eq_of_toNat_eq heq)
          rw [BitVec.toNat_add, toNat_one]
          split at htemp <;> split <;> omega
      · rw [BitVec.extractLsb'_toNat, Nat.shiftRight_eq_div_pow, hq]
        split
        · rename_i hp
          rw [hp]
          rfl
        · rename_i hp
          rw [if_neg (Nat.succ_ne_zero p)]
          omega

theorem mTick_run (sws : List Bool) : (run sws).mTick = tick sws.length := by
  obtain ⟨hq, -⟩ := counter_run sws
  rw [mTick, tick, decide_eq_decide, ← BitVec.toNat_inj, hq, toNat_zero]
  omega

/-- The state is that of a debouncer with these ticks. -/
theorem debounced_run (sws : List Bool) :
    (run sws).stateReg.debounced = Debounced.run 3 tick 0 ⟨false, none⟩ sws := by
  induction sws using List.reverseRecOn with
  | nil => rfl
  | append_singleton sws sw ih =>
      rw [run_concat, Debounced.run_concat, ← ih, clk, EgState.debounced_stateNext, mTick_run,
        Nat.zero_add]

theorem db_eq (s : DbFsm) : s.db = s.stateReg.debounced.out := by
  rw [db]
  cases s.stateReg <;> rfl

/-- How many ticks there are in `k` clocks. -/
theorem count_tick (n k : ℕ) :
    Nat.count (fun j => tick (n + j) = true) k + n / 8195 + (n + 8194) / 8195 =
      (n + k) / 8195 + (n + k + 8194) / 8195 := by
  induction k with
  | zero => simp
  | succ k ih =>
      rw [Nat.count_succ]
      by_cases htick : tick (n + k) = true
      · rw [if_pos htick]
        rw [tick, position, decide_eq_true_eq] at htick
        omega
      · rw [if_neg htick]
        rw [tick, position, decide_eq_true_eq] at htick
        omega

/-! ## The output -/

/-- The clocks for which a new input has to stay, from where the counter is at the first. -/
def delay (position : ℕ) : ℕ := if position = 0 then 8197 else 16391 - position

theorem settled_of_last {sws : List Bool} {v : Bool} (hdb : (run sws).db = !v)
    (hlast : sws.getLast? ≠ some v) : (run sws).stateReg.debounced = ⟨!v, none⟩ := by
  rw [db_eq] at hdb
  rcases List.eq_nil_or_concat' sws with rfl | ⟨sws, sw, rfl⟩
  · exact congrArg (Debounced.mk · none) hdb
  · have hsw : sw = !v := by
      rw [List.getLast?_concat] at hlast
      cases sw <;> cases v <;> simp_all
    rw [debounced_run, Debounced.run_concat] at hdb ⊢
    rw [← hsw] at hdb ⊢
    have hnone := Debounced.waits_step hdb
    generalize Debounced.step 3 (tick (0 + sws.length)) sw
      (Debounced.run 3 tick 0 ⟨false, none⟩ sws) = d at *
    obtain ⟨out, waits⟩ := d
    rw [show out = sw from hdb, show waits = none from hnone]

/-- The output follows an input that stays different at exactly that clock, whatever the
inputs were before. -/
theorem db_follows_iff {sws : List Bool} {v : Bool} (hdb : (run sws).db = !v)
    (hlast : sws.getLast? ≠ some v) (k : ℕ) :
    (run (sws ++ List.replicate k v)).db = v ↔ delay ((sws.length + 1) % 8195) ≤ k := by
  have hrun := debounced_run (sws ++ List.replicate k v)
  rw [Debounced.run_append, ← debounced_run, settled_of_last hdb hlast, Nat.zero_add] at hrun
  rw [db_eq, hrun, delay]
  have hne : ¬ (!v) = v := by simp
  cases k with
  | zero =>
      rw [List.replicate_zero, Debounced.run, iff_false_left hne]
      split <;> omega
  | succ k =>
      have hcount := count_tick (sws.length + 1) k
      rw [Debounced.run_settled (by decide)]
      generalize Nat.count (fun j => tick (sws.length + 1 + j) = true) k = count at *
      by_cases hlt : count < 3
      · rw [if_pos hlt, iff_false_left hne]
        split <;> omega
      · rw [if_neg hlt, iff_true_left rfl]
        split <;> omega

/-- The output only changes after 8197 equal inputs in a row. -/
theorem stable_of_change {sws : List Bool} {sw : Bool}
    (hchange : (run (sws ++ [sw])).db ≠ (run sws).db) :
    ∃ before, sws ++ [sw] = before ++ List.replicate 8197 sw := by
  have hcounts : Debounced.Counts 3 tick sws (Debounced.run 3 tick 0 ⟨false, none⟩ sws) :=
    Debounced.counts_run (by decide) false sws
  obtain ⟨-, hflip⟩ := Debounced.counts_concat hcounts (by decide) sw
  rw [db_eq, db_eq, debounced_run, debounced_run, Debounced.run_concat, Nat.zero_add] at hchange
  obtain ⟨before, k, hsws, hcount⟩ := hflip hchange
  have hticks := count_tick (before.length + 1) k
  rw [hcount] at hticks
  refine ⟨before ++ List.replicate (k + 1 - 8197) sw, ?_⟩
  rw [hsws, List.append_assoc, List.replicate_append_replicate]
  congr 2
  omega

/-- And 16390 equal inputs are enough, whatever the inputs were before. -/
theorem db_of_stable (sws : List Bool) (v : Bool) :
    (run (sws ++ List.replicate 16390 v)).db = v := by
  have hcounts : Debounced.Counts 3 tick sws (Debounced.run 3 tick 0 ⟨false, none⟩ sws) :=
    Debounced.counts_run (by decide) false sws
  rw [db_eq, debounced_run, Debounced.run_append, Nat.zero_add]
  generalize Debounced.run 3 tick 0 ⟨false, none⟩ sws = d at *
  obtain ⟨out, waits⟩ := d
  by_cases hout : out = v
  · rw [hout]
    exact Debounced.run_same waits 16390
  · have hflip : out = !v := by
      cases out <;> cases v <;> simp_all
    subst hflip
    cases waits with
    | none =>
        have hticks := count_tick (sws.length + 1) 16389
        rw [Debounced.run_settled (by decide) 16389, if_neg]
        omega
    | some w =>
        have hticks := count_tick sws.length 16390
        rw [Debounced.run_waiting (hcounts w rfl).1, if_neg]
        omega

/-- The output is free of glitches: it changes only after 8197 equal inputs, and it is the
input after 16390. -/
theorem db_debounces (sws : List Bool) :
    (∀ sw, (run (sws ++ [sw])).db ≠ (run sws).db →
      ∃ before, sws ++ [sw] = before ++ List.replicate 8197 sw) ∧
      ∀ v, (run (sws ++ List.replicate 16390 v)).db = v :=
  ⟨fun _ => stable_of_change, db_of_stable sws⟩

/-- After four inputs that bounce, an input has to stay for 16386 clocks. -/
theorem db_follows_bounce :
    (run ([true, false, true, false] ++ List.replicate 16386 true)).db = true ∧
      (run ([true, false, true, false] ++ List.replicate 16385 true)).db ≠ true := by
  have hdb : (run [true, false, true, false]).db = !true := by decide
  constructor
  · exact (db_follows_iff hdb (by decide) 16386).mpr (by decide)
  · intro hafter
    have hle := (db_follows_iff hdb (by decide) 16385).mp hafter
    exact absurd hle (by decide)

end DbFsm

end TruckControl
