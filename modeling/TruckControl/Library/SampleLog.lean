import Mathlib.Data.List.Basic

/-!
# What is sampled and what is sent

A sender samples its inputs into an array from time to time, and sends the elements of the
array at others. The log keeps what each element was sampled from.
-/

namespace TruckControl

/-- The inputs that were sampled last, and the elements sent, each with the inputs it is of. -/
structure SampleLog (ι β : Type*) where
  last : Option ι
  sent : List (Option ι × β)

namespace SampleLog

variable {ι β : Type*} {l : SampleLog ι β} {ok : ℕ → Option ι → β → Prop}

def start : SampleLog ι β := ⟨none, []⟩

/-- A step at which the inputs are `i`. What is sent was sampled before. -/
def note (samples : Bool) (sends : Option β) (i : ι) (l : SampleLog ι β) : SampleLog ι β where
  last := if samples then some i else l.last
  sent := l.sent ++ (sends.map fun b => (l.last, b)).toList

/-- The elements sent. -/
def elements (l : SampleLog ι β) : List β := l.sent.map Prod.snd

@[simp] theorem sent_note_none (samples : Bool) (i : ι) :
    (l.note samples none i).sent = l.sent := List.append_nil _

@[simp] theorem sent_note_some (samples : Bool) (b : β) (i : ι) :
    (l.note samples (some b) i).sent = l.sent ++ [(l.last, b)] := rfl

theorem elements_note (samples : Bool) (sends : Option β) (i : ι) :
    (l.note samples sends i).elements = l.elements ++ sends.toList := by
  cases sends <;> simp [note, elements]

/-- What has been sampled once is replaced only by another sample. -/
theorem last_note {p : ι → Prop} (h : ∃ i, l.last = some i ∧ p i) (samples : Bool)
    (sends : Option β) {i : ι} (hi : p i) :
    ∃ j, (l.note samples sends i).last = some j ∧ p j := by
  cases samples with
  | true => exact ⟨i, rfl, hi⟩
  | false => exact h

@[simp] theorem last_note_false (sends : Option β) (i : ι) :
    (l.note false sends i).last = l.last := rfl

@[simp] theorem last_note_true (sends : Option β) (i : ι) :
    (l.note true sends i).last = some i := rfl

/-- Something holds of every element sent, with its place in the order. -/
def Each (ok : ℕ → Option ι → β → Prop) (l : SampleLog ι β) : Prop :=
  ∀ k x b, l.sent[k]? = some (x, b) → ok k x b

theorem each_start : Each ok start := by
  intro k x b h
  simp [start] at h

theorem Each.note (h : l.Each ok) {samples : Bool} {sends : Option β}
    (hsends : ∀ b, sends = some b → ok l.sent.length l.last b) (i : ι) :
    (l.note samples sends i).Each ok := by
  intro k x b hk
  cases sends with
  | none =>
      rw [sent_note_none] at hk
      exact h k x b hk
  | some c =>
      rw [sent_note_some] at hk
      rcases Nat.lt_trichotomy k l.sent.length with hlt | rfl | hgt
      · rw [List.getElem?_append_left hlt] at hk
        exact h k x b hk
      · rw [List.getElem?_concat_length, Option.some_inj, Prod.mk.injEq] at hk
        obtain ⟨rfl, rfl⟩ := hk
        exact hsends c rfl
      · rw [List.getElem?_eq_none (by simp; omega)] at hk
        cases hk

theorem Each.getD (h : l.Each ok) {k : ℕ} (hk : k < l.elements.length) (b₀ : β) :
    ∃ x, l.sent[k]? = some (x, l.elements.getD k b₀) ∧ ok k x (l.elements.getD k b₀) := by
  rw [elements, List.length_map] at hk
  have hsent : l.sent[k]? = some (l.sent[k].1, l.elements.getD k b₀) := by
    rw [List.getElem?_eq_getElem hk, elements, List.getD_eq_getElem?_getD, List.getElem?_map,
      List.getElem?_eq_getElem hk]
    rfl
  exact ⟨_, hsent, h k _ _ hsent⟩

end SampleLog

end TruckControl
