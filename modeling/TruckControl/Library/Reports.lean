import TruckControl.Library.Transition

/-!
# Reports of a run

What the events of a run report, and the reports of a flag, which are on and off in turn.
-/

namespace TruckControl.Transition

variable {σ ε β : Type*} {step : σ → ε → σ}

/-- What the events of a run report, in order. -/
def reports (step : σ → ε → σ) (out : σ → ε → List β) : σ → List ε → List β
  | _, [] => []
  | s, e :: es => out s e ++ reports step out (step s e) es

theorem reports_append (step : σ → ε → σ) (out : σ → ε → List β) (s : σ) (es fs : List ε) :
    reports step out s (es ++ fs) =
      reports step out s es ++ reports step out (exec step s es) fs := by
  induction es generalizing s with
  | nil => rfl
  | cons e es ih => rw [List.cons_append, reports, reports, ih, exec_cons, List.append_assoc]

/-- What holds of all that is reported holds of the reports of each event. -/
theorem forall_mem_reports_iff {out : σ → ε → List β} {P : β → Prop} {s : σ} {es : List ε} :
    (∀ b ∈ reports step out s es, P b) ↔ Meets step (fun s e => ∀ b ∈ out s e, P b) s es := by
  induction es generalizing s with
  | nil => simp [reports]
  | cons e es ih => rw [reports, List.forall_mem_append, meets_cons, ih]

/-- The values `a`, `b`, `a` and so on. -/
def Alternating : β → β → List β → Prop
  | _, _, [] => True
  | a, b, x :: xs => x = a ∧ Alternating b a xs

theorem alternating_concat (a b x : β) (xs : List β) :
    Alternating a b (xs ++ [x]) ↔
      Alternating a b xs ∧ x = if xs.length % 2 = 0 then a else b := by
  induction xs generalizing a b with
  | nil => simp [Alternating]
  | cons y ys ih =>
      rw [List.cons_append, Alternating, Alternating, ih, and_assoc, List.length_cons]
      rcases Nat.mod_two_eq_zero_or_one ys.length with h | h <;> simp [h, Nat.add_mod]

/-- The changes of a flag that was off at first. -/
inductive Switches (on off : β) : Bool → List β → Prop where
  | none : Switches on off false []
  | turnsOn {xs : List β} (h : Switches on off false xs) : Switches on off true (xs ++ [on])
  | turnsOff {xs : List β} (h : Switches on off true xs) : Switches on off false (xs ++ [off])

theorem Switches.alternating {on off : β} {flag : Bool} {xs : List β}
    (h : Switches on off flag xs) : Alternating on off xs := by
  have hboth : Alternating on off xs ∧ xs.length % 2 = if flag then 1 else 0 := by
    induction h with
    | none => exact ⟨trivial, rfl⟩
    | turnsOn h ih =>
        obtain ⟨halt, hlength⟩ := ih
        refine ⟨(alternating_concat _ _ _ _).mpr ⟨halt, (if_pos hlength).symm⟩, ?_⟩
        simp at hlength ⊢
        omega
    | turnsOff h ih =>
        obtain ⟨halt, hlength⟩ := ih
        have hodd : ¬ _ % 2 = 0 := ne_of_eq_of_ne hlength (by simp)
        refine ⟨(alternating_concat _ _ _ _).mpr ⟨halt, (if_neg hodd).symm⟩, ?_⟩
        simp at hlength ⊢
        omega
  exact hboth.1

/-! ## Two systems side by side -/

section

variable {τ : Type*} {step' : τ → ε → τ} {out : σ → ε → List β} {out' : τ → ε → List β}
  {R : σ → τ → Prop} {same : ε → Prop}

theorem length_reports_le (hstep : ∀ s t e, R s t → R (step s e) (step' t e))
    (hle : ∀ s t e, R s t → (out s e).length ≤ (out' t e).length) {s : σ} {t : τ} (h : R s t)
    (es : List ε) : (reports step out s es).length ≤ (reports step' out' t es).length := by
  induction es generalizing s t with
  | nil => exact Nat.le_refl 0
  | cons e es ih =>
      rw [reports, reports, List.length_append, List.length_append]
      exact Nat.add_le_add (hle s t e h) (ih (hstep s t e h))

/-- A system that reports what another does, or less, reports the same on a run exactly when
no event of the run makes it report less. -/
theorem reports_eq_iff (hstep : ∀ s t e, R s t → R (step s e) (step' t e))
    (hsame : ∀ s t e, R s t → same e → out s e = out' t e)
    (hless : ∀ s t e, R s t → ¬ same e → (out s e).length < (out' t e).length) {s : σ} {t : τ}
    (h : R s t) (es : List ε) :
    reports step out s es = reports step' out' t es ↔ ∀ e ∈ es, same e := by
  have hle (s : σ) (t : τ) (e : ε) (h : R s t) : (out s e).length ≤ (out' t e).length := by
    by_cases he : same e
    · exact Nat.le_of_eq (congrArg List.length (hsame s t e h he))
    · exact Nat.le_of_lt (hless s t e h he)
  induction es generalizing s t with
  | nil => simp [reports]
  | cons e es ih =>
      have hrest := ih (hstep s t e h)
      rw [reports, reports, List.forall_mem_cons]
      by_cases he : same e
      · rw [hsame s t e h he, List.append_cancel_left_eq, and_iff_right he]
        exact hrest
      · refine iff_of_false ?_ fun hall => he hall.1
        intro heq
        have hlen := congrArg List.length heq
        have hrestLen := length_reports_le hstep hle (hstep s t e h) es
        have hlt := hless s t e h he
        rw [List.length_append, List.length_append] at hlen
        omega

end

end TruckControl.Transition
