import TruckControl.Library.Transition

/-!
# Runs that reach a goal

A rank that falls with every event until the goal is reached bounds how long that takes.
-/

namespace TruckControl.Transition

variable {σ ε : Type*} {step : σ → ε → σ} {ok : σ → ε → Prop} {I G : σ → Prop}

/-- The goal is reached, with the invariant and with the rest of the run still to come. -/
theorem exists_reached (rank : σ → ℕ) (hinv : ∀ s e, I s → ok s e → I (step s e))
    (hfall : ∀ s e, I s → ok s e → ¬ G s → rank (step s e) < rank s) {s : σ} {es : List ε}
    (hs : I s) (hm : Meets step ok s es) (hlength : rank s < es.length) :
    ∃ fs gs, es = fs ++ gs ∧ fs.length ≤ rank s ∧ I (exec step s fs) ∧ G (exec step s fs) ∧
      Meets step ok (exec step s fs) gs := by
  induction es generalizing s with
  | nil => exact absurd hlength (Nat.not_lt_zero _)
  | cons e es ih =>
      by_cases hgoal : G s
      · exact ⟨[], e :: es, rfl, Nat.zero_le _, hs, hgoal, hm⟩
      · have hlower := hfall s e hs hm.1 hgoal
        rw [List.length_cons] at hlength
        obtain ⟨fs, gs, rfl, hle, hrest⟩ := ih (hinv s e hs hm.1) hm.2 (by omega)
        refine ⟨e :: fs, gs, rfl, ?_, hrest⟩
        rw [List.length_cons]
        omega

/-- And there is an event that is taken from it. -/
theorem exists_taken (rank : σ → ℕ) (hinv : ∀ s e, I s → ok s e → I (step s e))
    (hfall : ∀ s e, I s → ok s e → ¬ G s → rank (step s e) < rank s) {s : σ} {es : List ε}
    (hs : I s) (hm : Meets step ok s es) (hlength : rank s < es.length) :
    ∃ fs e gs, es = (fs ++ [e]) ++ gs ∧ fs.length ≤ rank s ∧ I (exec step s fs) ∧
      G (exec step s fs) ∧ ok (exec step s fs) e ∧
      Meets step ok (step (exec step s fs) e) gs := by
  obtain ⟨fs, gs, rfl, hle, hfs, hgoal, hgs⟩ := exists_reached rank hinv hfall hs hm hlength
  cases gs with
  | nil =>
      rw [List.append_nil] at hlength
      omega
  | cons e gs => exact ⟨fs, e, gs, List.append_cons fs e gs, hle, hfs, hgoal, hgs.1, hgs.2⟩

theorem exec_concat (s : σ) (fs : List ε) (e : ε) :
    exec step s (fs ++ [e]) = step (exec step s fs) e := by
  rw [exec_append, exec_cons, exec_nil]

end TruckControl.Transition
