import Mathlib.Data.Nat.Count

/-!
# Debouncing by ticks

An output follows its input when the input has been different for a number of ticks in a row.
The ticks come at clocks of their own; the first clock at which the input is different does
not count.
-/

namespace TruckControl

/-- The output, and the ticks since the input is different. -/
structure Debounced where
  out : Bool
  waits : Option ℕ
  deriving DecidableEq

namespace Debounced

def step (need : ℕ) (tick sw : Bool) (d : Debounced) : Debounced :=
  if sw = d.out then ⟨d.out, none⟩
  else
    match d.waits with
    | none => ⟨d.out, some 0⟩
    | some w =>
        if tick then
          if w + 1 = need then ⟨sw, none⟩ else ⟨d.out, some (w + 1)⟩
        else d

/-- The inputs from clock `n` on. -/
def run (need : ℕ) (tick : ℕ → Bool) : ℕ → Debounced → List Bool → Debounced
  | _, d, [] => d
  | n, d, sw :: sws => run need tick (n + 1) (step need (tick n) sw d) sws

variable {need n w : ℕ} {tick : ℕ → Bool} {d : Debounced} {v : Bool}

theorem run_append (sws rest : List Bool) :
    run need tick n d (sws ++ rest) =
      run need tick (n + sws.length) (run need tick n d sws) rest := by
  induction sws generalizing n d with
  | nil => rfl
  | cons sw sws ih =>
      rw [List.cons_append, run, ih, run, List.length_cons, Nat.add_right_comm, Nat.add_assoc n]

theorem run_concat (sws : List Bool) (sw : Bool) :
    run need tick n d (sws ++ [sw]) =
      step need (tick (n + sws.length)) sw (run need tick n d sws) := by
  rw [run_append]
  rfl

/-! ## Steady inputs -/

theorem step_same (tick : Bool) (v : Bool) (waits : Option ℕ) :
    step need tick v ⟨v, waits⟩ = ⟨v, none⟩ := if_pos rfl

/-- A step at the end of which the output is the input leaves nothing to wait for. -/
theorem waits_step {tick sw : Bool} (h : (step need tick sw d).out = sw) :
    (step need tick sw d).waits = none := by
  obtain ⟨out, waits⟩ := d
  by_cases hsw : sw = out
  · subst hsw
    rw [step_same]
  · rw [step, if_neg hsw] at h ⊢
    cases waits with
    | none => exact absurd h.symm hsw
    | some w =>
        dsimp only at h ⊢
        split_ifs at h ⊢ with htick hneed
        · rfl
        · exact absurd h.symm hsw
        · exact absurd h.symm hsw

/-- An input that is different stays until the output has followed, and then stays too. -/
theorem run_waiting (hw : w < need) (k : ℕ) :
    run need tick n ⟨!v, some w⟩ (List.replicate k v) =
      if w + Nat.count (fun j => tick (n + j) = true) k < need then
        ⟨!v, some (w + Nat.count (fun j => tick (n + j) = true) k)⟩
      else ⟨v, none⟩ := by
  have hne : v ≠ !v := by simp
  induction k with
  | zero => simp [run, hw]
  | succ k ih =>
      rw [List.replicate_succ', run_concat, ih, List.length_replicate, Nat.count_succ]
      generalize Nat.count (fun j => tick (n + j) = true) k = count
      by_cases hlt : w + count < need
      · rw [if_pos hlt, step, if_neg hne]
        dsimp only
        by_cases htick : tick (n + k) = true
        · rw [if_pos htick, if_pos htick, Nat.add_assoc]
          by_cases hneed : w + (count + 1) = need
          · rw [if_pos hneed, if_neg (Nat.not_lt.mpr hneed.ge)]
          · have hstill : w + (count + 1) < need := by omega
            rw [if_neg hneed, if_pos hstill]
        · rw [if_neg htick, if_neg htick, Nat.add_zero, if_pos hlt]
      · have hmore : ¬ w + (count + if tick (n + k) = true then 1 else 0) < need := by omega
        rw [if_neg hlt, if_neg hmore, step_same]

/-- The first clock only starts the wait. -/
theorem run_settled (hneed : 0 < need) (k : ℕ) :
    run need tick n ⟨!v, none⟩ (List.replicate (k + 1) v) =
      if Nat.count (fun j => tick (n + 1 + j) = true) k < need then
        ⟨!v, some (Nat.count (fun j => tick (n + 1 + j) = true) k)⟩
      else ⟨v, none⟩ := by
  have hstart : step need (tick n) v ⟨!v, none⟩ = ⟨!v, some 0⟩ := by simp [step]
  rw [List.replicate_succ, run, hstart, run_waiting hneed]
  simp only [Nat.zero_add]

theorem run_same (waits : Option ℕ) (k : ℕ) :
    (run need tick n ⟨v, waits⟩ (List.replicate k v)).out = v := by
  induction k generalizing n waits with
  | zero => rfl
  | succ k ih =>
      rw [List.replicate_succ, run, step_same]
      exact ih none

/-! ## Any inputs -/

/-- The ticks that are counted came in the last clocks, and the input was different in all of
them and in the one before. -/
def Counts (need : ℕ) (tick : ℕ → Bool) (sws : List Bool) (d : Debounced) : Prop :=
  ∀ w, d.waits = some w → w < need ∧
    ∃ before k, sws = before ++ List.replicate (k + 1) (!d.out) ∧
      Nat.count (fun j => tick (before.length + 1 + j) = true) k = w

/-- One more clock is one more in the count, if there is a tick. -/
theorem count_concat (tick : ℕ → Bool) {before sws : List Bool} {k : ℕ}
    (hsws : sws = before ++ List.replicate (k + 1) v) :
    sws ++ [v] = before ++ List.replicate (k + 1 + 1) v ∧
      Nat.count (fun j => tick (before.length + 1 + j) = true) (k + 1) =
        Nat.count (fun j => tick (before.length + 1 + j) = true) k +
          if tick sws.length = true then 1 else 0 := by
  have hlength : sws.length = before.length + 1 + k := by
    rw [hsws, List.length_append, List.length_replicate]
    omega
  refine ⟨?_, ?_⟩
  · rw [hsws, List.append_assoc, ← List.replicate_succ']
  · rw [Nat.count_succ, hlength]

/-- A run from a settled state counts, and when the output has changed the input was different
for as many ticks as it takes. -/
theorem counts_concat {sws : List Bool} (h : Counts need tick sws d) (hneed : 0 < need)
    (sw : Bool) :
    Counts need tick (sws ++ [sw]) (step need (tick sws.length) sw d) ∧
      ((step need (tick sws.length) sw d).out ≠ d.out →
        ∃ before k, sws ++ [sw] = before ++ List.replicate (k + 1) sw ∧
          Nat.count (fun j => tick (before.length + 1 + j) = true) k = need) := by
  obtain ⟨out, waits⟩ := d
  by_cases hsw : sw = out
  · subst hsw
    rw [step_same]
    exact ⟨fun _ hw => (nomatch hw), fun hne => absurd rfl hne⟩
  · have hflip : sw = !out := by
      cases sw <;> cases out <;> simp_all
    rw [step, if_neg hsw]
    cases waits with
    | none =>
        refine ⟨?_, fun hne => absurd rfl hne⟩
        intro w hw
        cases hw
        exact ⟨hneed, sws, 0, by rw [hflip]; rfl, rfl⟩
    | some w =>
        obtain ⟨hlt, before, k, hsws, hcount⟩ := h w rfl
        dsimp only at hsws ⊢
        rw [← hflip] at hsws
        obtain ⟨hmore, hcount'⟩ := count_concat tick hsws
        by_cases htick : tick sws.length = true
        · rw [if_pos htick, hcount] at hcount'
          rw [if_pos htick]
          by_cases hend : w + 1 = need
          · rw [if_pos hend]
            exact ⟨fun _ hw => (nomatch hw), fun _ => ⟨before, k + 1, hmore, hcount'.trans hend⟩⟩
          · rw [if_neg hend]
            refine ⟨?_, fun hne => absurd rfl hne⟩
            intro w' hw'
            cases hw'
            exact ⟨by omega, before, k + 1, by rw [hmore, hflip], hcount'⟩
        · rw [if_neg htick, hcount] at hcount'
          rw [if_neg htick]
          refine ⟨?_, fun hne => absurd rfl hne⟩
          intro w' hw'
          cases hw'
          exact ⟨hlt, before, k + 1, by rw [hmore, hflip], hcount'⟩

theorem counts_run (hneed : 0 < need) (v : Bool) (sws : List Bool) :
    Counts need tick sws (run need tick 0 ⟨v, none⟩ sws) := by
  induction sws using List.reverseRecOn with
  | nil => exact fun _ hw => nomatch hw
  | append_singleton sws sw ih =>
      rw [run_concat, Nat.zero_add]
      exact (counts_concat ih hneed sw).1

end Debounced

end TruckControl
