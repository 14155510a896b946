import Mathlib.Data.List.Basic
import Mathlib.Logic.Function.Iterate

/-!
# Runs of a deterministic event system

A system is a step function `σ → ε → σ`; the events are the choices of its
environment and of its scheduler. A run is the list of the events taken.
-/

namespace TruckControl.Transition

section

variable {σ ε : Type*} {step : σ → ε → σ} {ok : σ → ε → Prop} {I : σ → Prop}

/-- The state a run leads to. -/
def exec (step : σ → ε → σ) (s : σ) (es : List ε) : σ :=
  es.foldl step s

/-- Every event of the run meets `ok` in the state in which it is taken. -/
def Meets (step : σ → ε → σ) (ok : σ → ε → Prop) : σ → List ε → Prop
  | _, [] => True
  | s, e :: es => ok s e ∧ Meets step ok (step s e) es

instance instDecidableMeets [∀ s e, Decidable (ok s e)] : ∀ s es, Decidable (Meets step ok s es)
  | _, [] => .isTrue trivial
  | s, e :: es =>
      have : Decidable (Meets step ok (step s e) es) := instDecidableMeets (step s e) es
      inferInstanceAs (Decidable (ok s e ∧ Meets step ok (step s e) es))

/-- The states some run leads to from an initial state. -/
def Reachable (step : σ → ε → σ) (init : σ → Prop) (s : σ) : Prop :=
  ∃ s₀ es, init s₀ ∧ s = exec step s₀ es

@[simp] theorem exec_nil (s : σ) : exec step s [] = s := rfl

@[simp] theorem exec_cons (s : σ) (e : ε) (es : List ε) :
    exec step s (e :: es) = exec step (step s e) es := rfl

theorem exec_append (s : σ) (es fs : List ε) :
    exec step s (es ++ fs) = exec step (exec step s es) fs :=
  List.foldl_append

theorem exec_replicate (s : σ) (n : ℕ) (e : ε) :
    exec step s (List.replicate n e) = (fun s => step s e)^[n] s := by
  induction n generalizing s with
  | zero => rfl
  | succ n ih => rw [List.replicate_succ, exec_cons, ih, Function.iterate_succ_apply]

@[simp] theorem meets_nil (s : σ) : Meets step ok s [] := trivial

@[simp] theorem meets_cons (s : σ) (e : ε) (es : List ε) :
    Meets step ok s (e :: es) ↔ ok s e ∧ Meets step ok (step s e) es := Iff.rfl

theorem meets_append (s : σ) (es fs : List ε) :
    Meets step ok s (es ++ fs) ↔ Meets step ok s es ∧ Meets step ok (exec step s es) fs := by
  induction es generalizing s with
  | nil => simp
  | cons e es ih => simp [ih, and_assoc]

theorem Meets.and {ok' : σ → ε → Prop} {s : σ} {es : List ε} (hm : Meets step ok s es)
    (hm' : Meets step ok' s es) : Meets step (fun s e => ok s e ∧ ok' s e) s es := by
  induction es generalizing s with
  | nil => trivial
  | cons e es ih => exact ⟨⟨hm.1, hm'.1⟩, ih hm.2 hm'.2⟩

theorem Meets.mono {ok' : σ → ε → Prop} (h : ∀ s e, ok s e → ok' s e) {s : σ} {es : List ε}
    (hm : Meets step ok s es) : Meets step ok' s es := by
  induction es generalizing s with
  | nil => trivial
  | cons e es ih => exact ⟨h s e hm.1, ih hm.2⟩

/-! ## Invariants -/

/-- The invariant rule for runs whose events all meet `ok`. -/
theorem inv_exec_of_meets (hstep : ∀ s e, I s → ok s e → I (step s e))
    {s : σ} {es : List ε} (hs : I s) (hm : Meets step ok s es) : I (exec step s es) := by
  induction es generalizing s with
  | nil => exact hs
  | cons e es ih => exact ih (hstep s e hs hm.1) hm.2

/-- What an invariant gives in every state is met all along the run. -/
theorem meets_of_inv {ok' : σ → ε → Prop} (hstep : ∀ s e, I s → ok s e → I (step s e))
    (hok : ∀ s e, I s → ok s e → ok' s e) {s : σ} {es : List ε} (hs : I s)
    (hm : Meets step ok s es) : Meets step ok' s es := by
  induction es generalizing s with
  | nil => trivial
  | cons e es ih => exact ⟨hok s e hs hm.1, ih (hstep s e hs hm.1) hm.2⟩

/-- The invariant rule for runs without a condition on their events. -/
theorem inv_exec (hstep : ∀ s e, I s → I (step s e)) {s : σ} (es : List ε) (hs : I s) :
    I (exec step s es) := by
  induction es generalizing s with
  | nil => exact hs
  | cons e es ih => exact ih (hstep s e hs)

/-- Two conditions are met by the same runs if they agree wherever an invariant holds and
the events are in range, and if the first of them keeps the invariant. -/
theorem meets_congr_of_meets {ok' range : σ → ε → Prop}
    (hstep : ∀ s e, I s → range s e → ok s e → I (step s e))
    (hok : ∀ s e, I s → range s e → (ok s e ↔ ok' s e)) {s : σ} {es : List ε} (hs : I s)
    (hrange : Meets step range s es) : Meets step ok s es ↔ Meets step ok' s es := by
  induction es generalizing s with
  | nil => exact Iff.rfl
  | cons e es ih =>
      rw [meets_cons, meets_cons, ← hok s e hs hrange.1]
      constructor
      · intro h
        exact ⟨h.1, (ih (hstep s e hs hrange.1 h.1) hrange.2).mp h.2⟩
      · intro h
        exact ⟨h.1, (ih (hstep s e hs hrange.1 h.1) hrange.2).mpr h.2⟩

theorem meets_of_forall (h : ∀ s e, ok s e) (s : σ) (es : List ε) : Meets step ok s es := by
  induction es generalizing s with
  | nil => trivial
  | cons e es ih => exact ⟨h s e, ih (step s e)⟩

theorem meets_of_forall_mem {ok : ε → Prop} {es : List ε} (h : ∀ e ∈ es, ok e) (s : σ) :
    Meets step (fun _ e => ok e) s es := by
  induction es generalizing s with
  | nil => trivial
  | cons e es ih =>
      obtain ⟨he, hrest⟩ := List.forall_mem_cons.mp h
      exact ⟨he, ih hrest (step s e)⟩

theorem meets_iff_forall_mem {ok : ε → Prop} (s : σ) (es : List ε) :
    Meets step (fun _ e => ok e) s es ↔ ∀ e ∈ es, ok e := by
  induction es generalizing s with
  | nil => simp
  | cons e es ih => rw [meets_cons, ih, List.forall_mem_cons]

/-- What holds in every state of a run holds at its start and after each of its events. -/
theorem forall_prefix_iff (s : σ) (es : List ε) :
    (∀ fs, fs <+: es → I (exec step s fs)) ↔ I s ∧ Meets step (fun s e => I (step s e)) s es := by
  induction es generalizing s with
  | nil => simp
  | cons e es ih =>
      rw [meets_cons, ← ih]
      constructor
      · intro h
        have hrest (fs : List ε) (hfs : fs <+: es) : I (exec step (step s e) fs) :=
          h (e :: fs) (List.cons_prefix_cons.mpr ⟨rfl, hfs⟩)
        exact ⟨h [] List.nil_prefix, hrest⟩
      · intro h fs hfs
        cases fs with
        | nil => exact h.1
        | cons f fs =>
            obtain ⟨rfl, hrest⟩ := List.cons_prefix_cons.mp hfs
            exact h.2 fs hrest

/-- Conditions that agree wherever an invariant holds are met by the same runs. -/
theorem meets_congr {ok' : σ → ε → Prop} (hstep : ∀ s e, I s → I (step s e))
    (hok : ∀ s e, I s → (ok s e ↔ ok' s e)) {s : σ} (es : List ε) (hs : I s) :
    Meets step ok s es ↔ Meets step ok' s es := by
  have hrange : Meets step (fun _ _ => True) s es := meets_of_forall (fun _ _ => trivial) s es
  exact meets_congr_of_meets (fun s e h _ _ => hstep s e h) (fun s e h _ => hok s e h) hs hrange

end

namespace Reachable

variable {σ ε : Type*} {next : σ → ε → σ} {init : σ → Prop}

theorem initial {s : σ} (h : init s) : Reachable next init s :=
  ⟨s, [], h, rfl⟩

theorem after {s : σ} (h : Reachable next init s) (es : List ε) :
    Reachable next init (exec next s es) := by
  obtain ⟨s₀, fs, h₀, rfl⟩ := h
  exact ⟨s₀, fs ++ es, h₀, (exec_append s₀ fs es).symm⟩

theorem after_one {s : σ} (h : Reachable next init s) (e : ε) :
    Reachable next init (next s e) :=
  h.after [e]

/-- An invariant of the initial states that every event preserves holds of every
reachable state. -/
theorem invariant {I : σ → Prop} (hinit : ∀ s, init s → I s)
    (hstep : ∀ s e, Reachable next init s → I s → I (next s e)) {s : σ}
    (h : Reachable next init s) : I s := by
  obtain ⟨s₀, es, h₀, rfl⟩ := h
  have hboth (s : σ) (e : ε) (h : Reachable next init s ∧ I s) :
      Reachable next init (next s e) ∧ I (next s e) :=
    ⟨h.1.after_one e, hstep s e h.1 h.2⟩
  have hrun : Reachable next init (exec next s₀ es) ∧ I (exec next s₀ es) := by
    apply inv_exec hboth
    exact ⟨initial h₀, hinit s₀ h₀⟩
  exact hrun.2

end Reachable

end TruckControl.Transition
