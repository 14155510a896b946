import TruckControl.Library.Transition

/-!
# Forward simulation

A system is compared with a specification by what both let see. A step of the specification
shows a list of labels, which may be empty, and so does an event of the system.
-/

namespace TruckControl.Simulation

variable {σ ε α ℓ : Type*}

/-- Steps of the specification one after the other, with all that they show. -/
inductive Steps (spec : α → List ℓ → α → Prop) : α → List ℓ → α → Prop where
  | refl (a : α) : Steps spec a [] a
  | head {a b c : α} {seen rest : List ℓ} (h : spec a seen b) (hrest : Steps spec b rest c) :
      Steps spec a (seen ++ rest) c

namespace Steps

variable {spec : α → List ℓ → α → Prop} {a b c : α} {seen rest : List ℓ}

theorem one (h : spec a seen b) : Steps spec a seen b := by
  have hone := Steps.head h (Steps.refl b)
  rwa [List.append_nil] at hone

theorem trans (h : Steps spec a seen b) (hrest : Steps spec b rest c) :
    Steps spec a (seen ++ rest) c := by
  induction h with
  | refl a => exact hrest
  | head h hmid ih =>
      rw [List.append_assoc]
      exact .head h (ih hrest)

/-- What every step of the specification keeps, a run keeps. -/
theorem invariant {I : α → Prop} (hstep : ∀ a seen b, I a → spec a seen b → I b)
    (h : Steps spec a seen b) (ha : I a) : I b := by
  induction h with
  | refl a => exact ha
  | head h hrest ih => exact ih (hstep _ _ _ ha h)

end Steps

/-- The specification stays where it is, or makes one step. -/
inductive AtMostOne (spec : α → List ℓ → α → Prop) (a : α) : List ℓ → α → Prop where
  | stay : AtMostOne spec a [] a
  | one {seen : List ℓ} {b : α} (h : spec a seen b) : AtMostOne spec a seen b

theorem AtMostOne.steps {spec : α → List ℓ → α → Prop} {a b : α} {seen : List ℓ}
    (h : AtMostOne spec a seen b) : Steps spec a seen b := by
  cases h with
  | stay => exact .refl a
  | one h => exact .one h

/-- All that a run of the system shows. -/
def seen (step : σ → ε → σ) (label : σ → ε → List ℓ) : σ → List ε → List ℓ
  | _, [] => []
  | s, e :: es => label s e ++ seen step label (step s e) es

variable {step : σ → ε → σ} {label : σ → ε → List ℓ} {spec : α → List ℓ → α → Prop}
  {R : σ → α → Prop}

/-- If the specification can follow every event, it can follow every run. -/
theorem steps_of_run
    (hstep : ∀ s e a, R s a → ∃ b, AtMostOne spec a (label s e) b ∧ R (step s e) b)
    (es : List ε) {s : σ} {a : α} (h : R s a) :
    ∃ b, Steps spec a (seen step label s es) b ∧ R (Transition.exec step s es) b := by
  induction es generalizing s a with
  | nil => exact ⟨a, .refl a, h⟩
  | cons e es ih =>
      obtain ⟨b, hfirst, hb⟩ := hstep s e a h
      obtain ⟨c, hrest, hc⟩ := ih hb
      exact ⟨c, hfirst.steps.trans hrest, hc⟩

end TruckControl.Simulation
