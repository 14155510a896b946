import Mathlib.Data.Fintype.Defs
import Mathlib.Data.List.Nodup
import Mathlib.Data.List.Sublists
import Mathlib.Logic.Function.Basic
import TruckControl.Library.Transition

/-!
# Tasks that write frames to one stream

Each task writes its frames one after the other, and each frame piece by piece; a step
of the run is a task writing its next piece. Pieces are labelled with their task and the
number of their frame.
-/

namespace TruckControl

/-- What a task writes for one call: at least one piece. -/
structure Frame (α : Type*) where
  head : α
  tail : List α

namespace Frame

def pieces {α : Type*} (f : Frame α) : List α := f.head :: f.tail

end Frame

/-- The calls each task has started, what each has left of its frame, and the stream. -/
structure Interleaving (ι α : Type*) where
  started : ι → ℕ
  current : ι → List α
  stream : List ((ι × ℕ) × α)

namespace Interleaving

section

variable {ι α : Type*} {calls : ι → List (Frame α)}

def start : Interleaving ι α := ⟨fun _ => 0, fun _ => [], []⟩

/-- The frame a task is in, or was in last. -/
def frame (s : Interleaving ι α) (i : ι) : ι × ℕ := (i, s.started i - 1)

/-- All calls have been made and written out. -/
def Finished (calls : ι → List (Frame α)) (s : Interleaving ι α) : Prop :=
  ∀ i, s.current i = [] ∧ (calls i).length ≤ s.started i

/-- The pieces of the frame of one call. -/
def framePieces (calls : ι → List (Frame α)) (call : ι × ℕ) : List ((ι × ℕ) × α) :=
  match (calls call.1)[call.2]? with
  | none => []
  | some f => f.pieces.map (Prod.mk call)

/-- The stream is a concatenation of whole frames, each of its own call. -/
def Whole (calls : ι → List (Frame α)) (s : Interleaving ι α) : Prop :=
  ∃ order : List (ι × ℕ), order.Nodup ∧ s.stream = order.flatMap (framePieces calls)

/-- A task with something to write does not write into the frame of another. -/
def Undivided (calls : ι → List (Frame α)) (s : Interleaving ι α) (i : ι) : Prop :=
  s.current i ≠ [] ∨ s.started i < (calls i).length → ∀ j, j ≠ i → s.current j = []

instance [Fintype ι] [DecidableEq α] (s : Interleaving ι α) : Decidable (Finished calls s) :=
  inferInstanceAs (Decidable (∀ _, _ ∧ _))

instance [Fintype ι] [DecidableEq ι] [DecidableEq α] (s : Interleaving ι α) (i : ι) :
    Decidable (Undivided calls s i) :=
  inferInstanceAs (Decidable (_ ∨ _ → ∀ _, _ → _ = _))

/-! ## Divided streams -/

/-- Somewhere a frame has a piece of another frame inside it. -/
def Divided (s : Interleaving ι α) : Prop :=
  ∃ f g, g ≠ f ∧ [f, g, f].Sublist (s.stream.map Prod.fst)

/-- What returns to a label after leaving it does so behind all the labels of one kind. -/
theorem sublist_of_append {κ : Type*} {f g c : κ} {l l' : List κ} (hl : ∀ x ∈ l, x = c)
    (hc : c ∉ l') (hsub : [f, g, f].Sublist (l ++ l')) : g = f ∨ [f, g, f].Sublist l' := by
  obtain ⟨a, b, hab, ha, hb⟩ := List.sublist_append_iff.mp hsub
  cases a with
  | nil =>
      right
      rwa [hab]
  | cons x a =>
      left
      have hx : f = x := by
        rw [List.cons_append, List.cons.injEq] at hab
        exact hab.1
      have hf : f = c := by
        rw [hx]
        exact hl x (ha.subset List.mem_cons_self)
      have hnil : b = [] := by
        -- a label in `b` would be the last one, and that is `c` again
        rcases List.eq_nil_or_concat b with hnil | ⟨b', y, hconcat⟩
        · exact hnil
        · have hy : f = y := by
            have hlast := congrArg List.getLast? hab
            rw [hconcat, List.concat_eq_append, ← List.append_assoc, List.getLast?_concat] at hlast
            exact Option.some.inj hlast
          refine absurd (hb.subset ?_) hc
          rw [hconcat, ← hf, hy, List.concat_eq_append]
          exact List.mem_concat_self
      have hg : g ∈ x :: a := by
        rw [hnil, List.append_nil] at hab
        simp [← hab]
      rw [hf]
      exact hl g (ha.subset hg)

theorem fst_framePieces (calls : ι → List (Frame α)) (call : ι × ℕ) :
    ∀ g ∈ (framePieces calls call).map Prod.fst, g = call := by
  intro g hg
  rw [framePieces] at hg
  cases hcall : (calls call.1)[call.2]? with
  | none => simp [hcall] at hg
  | some f =>
      simp only [hcall, List.map_map, List.mem_map, Function.comp] at hg
      obtain ⟨_, _, rfl⟩ := hg
      rfl

theorem fst_flatMap_framePieces (order : List (ι × ℕ)) :
    ∀ g ∈ (order.flatMap (framePieces calls)).map Prod.fst, g ∈ order := by
  intro g hg
  rw [List.map_flatMap] at hg
  obtain ⟨call, hcall, hg⟩ := List.mem_flatMap.mp hg
  rwa [fst_framePieces calls call g hg]

theorem eq_of_sublist_flatMap {order : List (ι × ℕ)} (h : order.Nodup) {f g : ι × ℕ}
    (hsub : [f, g, f].Sublist ((order.flatMap (framePieces calls)).map Prod.fst)) : g = f := by
  induction order with
  | nil => cases hsub
  | cons call order ih =>
      obtain ⟨hnot, hnodup⟩ := List.nodup_cons.mp h
      rw [List.flatMap_cons, List.map_append] at hsub
      have hc : call ∉ (order.flatMap (framePieces calls)).map Prod.fst :=
        fun hmem => hnot (fst_flatMap_framePieces order call hmem)
      rcases sublist_of_append (fst_framePieces calls call) hc hsub with heq | hsub
      · exact heq
      · exact ih hnodup hsub

/-- A stream of whole frames is not divided. -/
theorem Whole.not_divided {s : Interleaving ι α} (h : Whole calls s) : ¬ s.Divided := by
  obtain ⟨order, hnodup, hstream⟩ := h
  intro hdiv
  obtain ⟨f, g, hne, hsub⟩ := hdiv
  rw [hstream] at hsub
  exact hne (eq_of_sublist_flatMap hnodup hsub)

/-- At most one task is inside a frame; with the rest of that frame, the stream would be
whole. -/
structure Completes (calls : ι → List (Frame α)) (s : Interleaving ι α) (i : ι)
    (order : List (ι × ℕ)) : Prop where
  alone : ∀ j, j ≠ i → s.current j = []
  nodup : order.Nodup
  started : ∀ call ∈ order, call.2 < s.started call.1
  stream : s.stream ++ (s.current i).map (Prod.mk (s.frame i)) = order.flatMap (framePieces calls)

theorem Completes.closed {s : Interleaving ι α} {i : ι} {order : List (ι × ℕ)}
    (h : Completes calls s i order) (hi : s.current i = []) :
    s.stream = order.flatMap (framePieces calls) := by
  have hstream := h.stream
  rwa [hi, List.map_nil, List.append_nil] at hstream

end

/-! ## Runs -/

section

variable {ι α : Type*} [DecidableEq ι] {calls : ι → List (Frame α)}

/-- A task writes its next piece, if it has one. -/
def step (calls : ι → List (Frame α)) (s : Interleaving ι α) (i : ι) : Interleaving ι α :=
  match s.current i with
  | x :: xs =>
      { s with
        current := Function.update s.current i xs
        stream := s.stream ++ [(s.frame i, x)] }
  | [] =>
      match (calls i)[s.started i]? with
      | none => s
      | some f =>
          { started := Function.update s.started i (s.started i + 1)
            current := Function.update s.current i f.tail
            stream := s.stream ++ [((i, s.started i), f.head)] }

/-! ## What a step does -/

/-- The step of a task that has something to write. -/
inductive Writes (calls : ι → List (Frame α)) (s : Interleaving ι α) (i : ι) : Prop where
  | next (x : α) (xs : List α) (hcurrent : s.current i = x :: xs)
      (hstep : step calls s i =
        { s with
          current := Function.update s.current i xs
          stream := s.stream ++ [(s.frame i, x)] })
  | first (f : Frame α) (hcurrent : s.current i = []) (hcall : (calls i)[s.started i]? = some f)
      (hstep : step calls s i =
        { started := Function.update s.started i (s.started i + 1)
          current := Function.update s.current i f.tail
          stream := s.stream ++ [((i, s.started i), f.head)] })

theorem writes_or_idle (calls : ι → List (Frame α)) (s : Interleaving ι α) (i : ι) :
    Writes calls s i ∧ (s.current i ≠ [] ∨ s.started i < (calls i).length) ∨
      step calls s i = s ∧ s.current i = [] ∧ (calls i).length ≤ s.started i := by
  cases hcurrent : s.current i with
  | cons x xs =>
      refine .inl ⟨.next x xs hcurrent ?_, .inl (List.cons_ne_nil x xs)⟩
      simp only [step, hcurrent]
  | nil =>
      cases hcall : (calls i)[s.started i]? with
      | none =>
          refine .inr ⟨?_, rfl, List.getElem?_eq_none_iff.mp hcall⟩
          simp only [step, hcurrent, hcall]
      | some f =>
          have hlt := (List.getElem?_eq_some_iff.mp hcall).1
          refine .inl ⟨.first f hcurrent hcall ?_, .inr hlt⟩
          simp only [step, hcurrent, hcall]

/-- The label of the piece a task writes is its own, and the other tasks are as before. -/
theorem Writes.spec {s : Interleaving ι α} {i : ι} (h : Writes calls s i) :
    (∃ x, (step calls s i).stream = s.stream ++ [((step calls s i).frame i, x)]) ∧
      ∀ j, j ≠ i → (step calls s i).current j = s.current j ∧
        (step calls s i).frame j = s.frame j := by
  cases h with
  | next x xs hcurrent hstep =>
      rw [hstep]
      refine ⟨⟨x, rfl⟩, ?_⟩
      intro j hj
      exact ⟨Function.update_of_ne hj _ _, rfl⟩
  | first f hcurrent hcall hstep =>
      rw [hstep]
      refine ⟨⟨f.head, ?_⟩, ?_⟩
      · simp [frame]
      · intro j hj
        exact ⟨Function.update_of_ne hj _ _, by simp [frame, Function.update_of_ne hj]⟩

theorem stream_prefix_step (calls : ι → List (Frame α)) (s : Interleaving ι α) (i : ι) :
    s.stream <+: (step calls s i).stream := by
  rcases writes_or_idle calls s i with h | h
  · obtain ⟨x, hx⟩ := h.1.spec.1
    exact ⟨_, hx.symm⟩
  · exact h.1.symm ▸ List.prefix_refl s.stream

theorem stream_prefix_exec (calls : ι → List (Frame α)) (s : Interleaving ι α) (is : List ι) :
    s.stream <+: (Transition.exec (step calls) s is).stream := by
  induction is generalizing s with
  | nil => exact List.prefix_refl _
  | cons i is ih => exact (stream_prefix_step calls s i).trans (ih _)

/-! ## Undivided frames are whole -/

theorem Completes.step {s : Interleaving ι α} {i : ι} {order : List (ι × ℕ)}
    (h : Completes calls s i order) {j : ι} (hj : Undivided calls s j) :
    ∃ i' order', Completes calls (step calls s j) i' order' := by
  rcases writes_or_idle calls s j with ⟨hwrites, hready⟩ | hidle
  · have halone := hj hready
    cases hwrites with
    | next x xs hcurrent hstep =>
        -- the task inside a frame is the one that writes
        have hij : j = i := by
          by_contra hne
          rw [h.alone j hne] at hcurrent
          cases hcurrent
        subst hij
        refine ⟨j, order, ?_, h.nodup, ?_, ?_⟩
        · intro k hk
          rw [hstep]
          exact (Function.update_of_ne hk _ _).trans (h.alone k hk)
        · rw [hstep]
          exact h.started
        · rw [← h.stream, hstep, hcurrent]
          simp [frame]
    | first f hcurrent hcall hstep =>
        have hclosed : s.current i = [] := by
          by_cases hij : i = j
          · rw [hij, hcurrent]
          · exact halone i hij
        refine ⟨j, order ++ [(j, s.started j)], ?_, ?_, ?_, ?_⟩
        · intro k hk
          rw [hstep]
          exact (Function.update_of_ne hk _ _).trans (halone k hk)
        · rw [List.nodup_append]
          refine ⟨h.nodup, List.nodup_singleton _, ?_⟩
          intro call hcall' other hother heq
          rw [heq, List.mem_singleton.mp hother] at hcall'
          exact Nat.lt_irrefl _ (h.started _ hcall')
        · intro call hcall'
          rw [hstep]
          by_cases hk : call.1 = j
          · rcases List.mem_append.mp hcall' with hmem | hmem
            · have hlt := h.started call hmem
              rw [hk] at hlt
              simp only [hk, Function.update_self]
              omega
            · rw [List.mem_singleton.mp hmem]
              simp
          · rcases List.mem_append.mp hcall' with hmem | hmem
            · simp only [Function.update_of_ne hk]
              exact h.started call hmem
            · rw [List.mem_singleton.mp hmem] at hk
              exact absurd rfl hk
        · rw [List.flatMap_append, ← h.closed hclosed, hstep]
          simp [frame, framePieces, hcall, Frame.pieces]
  · rw [hidle.1]
    exact ⟨i, order, h⟩

theorem whole_of_undivided {schedule : List ι}
    (hdone : Finished calls (Transition.exec (step calls) start schedule))
    (h : Transition.Meets (step calls) (Undivided calls) start schedule) :
    Whole calls (Transition.exec (step calls) start schedule) := by
  cases schedule with
  | nil => exact ⟨[], List.nodup_nil, rfl⟩
  | cons i is =>
      have hinit : ∃ j order, Completes calls start j order :=
        ⟨i, [], fun _ _ => rfl, List.nodup_nil, by simp, rfl⟩
      obtain ⟨j, order, hrun⟩ := Transition.inv_exec_of_meets
        (I := fun s => ∃ j order, Completes calls s j order)
        (fun s e hs he => by
          obtain ⟨j, order, hs⟩ := hs
          exact hs.step he) hinit h
      exact ⟨order, hrun.nodup, hrun.closed (hdone j).1⟩

/-! ## Divided frames are not -/

/-- The frame a task is in has a piece in the stream. -/
def Labelled (s : Interleaving ι α) : Prop :=
  ∀ i, s.current i ≠ [] → s.frame i ∈ s.stream.map Prod.fst

theorem Labelled.step {s : Interleaving ι α} (h : Labelled s) (i : ι) :
    Labelled (step calls s i) := by
  rcases writes_or_idle calls s i with ⟨hwrites, -⟩ | hidle
  · obtain ⟨⟨x, hstream⟩, hothers⟩ := hwrites.spec
    intro j hj
    rw [hstream, List.map_append, List.mem_append]
    by_cases hij : j = i
    · right
      rw [hij]
      exact List.mem_singleton_self _
    · left
      obtain ⟨hcurrent, hframe⟩ := hothers j hij
      rw [hframe]
      exact h j (hcurrent ▸ hj)
  · rwa [hidle.1]

/-- Once another task has written behind a frame in progress, the frame will be divided. -/
theorem divided_of_finished {s : Interleaving ι α} {j : ι} {g : ι × ℕ} (hj : s.current j ≠ [])
    (hg : g ≠ s.frame j) (hsub : [s.frame j, g].Sublist (s.stream.map Prod.fst))
    {schedule : List ι} (hdone : Finished calls (Transition.exec (step calls) s schedule)) :
    (Transition.exec (step calls) s schedule).Divided := by
  induction schedule generalizing s with
  | nil => exact absurd (hdone j).1 hj
  | cons i schedule ih =>
      rcases writes_or_idle calls s i with ⟨hwrites, -⟩ | hidle
      · obtain ⟨⟨x, hstream⟩, hothers⟩ := hwrites.spec
        by_cases hij : j = i
        · -- the task goes on with its frame
          subst hij
          cases hwrites with
          | next x xs hcurrent hstep =>
              refine ⟨s.frame j, g, hg, ?_⟩
              have hthree : [s.frame j, g, s.frame j].Sublist
                  ((step calls s j).stream.map Prod.fst) := by
                rw [hstep, List.map_append]
                exact hsub.append (List.Sublist.refl _)
              exact hthree.trans ((stream_prefix_exec calls _ schedule).sublist.map Prod.fst)
          | first f hcurrent hcall hstep => exact absurd hcurrent hj
        · obtain ⟨hcurrent, hframe⟩ := hothers j hij
          refine ih (hcurrent ▸ hj) (hframe ▸ hg) ?_ hdone
          rw [hframe]
          exact hsub.trans ((stream_prefix_step calls s i).sublist.map Prod.fst)
      · rw [Transition.exec_cons, hidle.1] at hdone ⊢
        exact ih hj hg hsub hdone

theorem undivided_of_not_divided {s : Interleaving ι α} (hs : Labelled s) {schedule : List ι}
    (hdone : Finished calls (Transition.exec (step calls) s schedule))
    (h : ¬ (Transition.exec (step calls) s schedule).Divided) :
    Transition.Meets (step calls) (Undivided calls) s schedule := by
  induction schedule generalizing s with
  | nil => trivial
  | cons i schedule ih =>
      refine ⟨?_, ih (hs.step i) hdone h⟩
      intro hready j hj
      by_contra hcurrent
      rcases writes_or_idle calls s i with ⟨hwrites, -⟩ | hidle
      · obtain ⟨⟨x, hstream⟩, hothers⟩ := hwrites.spec
        obtain ⟨hcurrent', hframe⟩ := hothers j hj
        have hother : (step calls s i).frame i ≠ (step calls s i).frame j :=
          fun heq => hj (congrArg Prod.fst heq).symm
        have hsub : [(step calls s i).frame j, (step calls s i).frame i].Sublist
            ((step calls s i).stream.map Prod.fst) := by
          rw [hframe, hstream, List.map_append]
          exact (List.singleton_sublist.mpr (hs j hcurrent)).append (List.Sublist.refl _)
        have hopen : (step calls s i).current j ≠ [] := by rwa [hcurrent']
        exact h (divided_of_finished hopen hother hsub hdone)
      · rcases hready with hready | hready
        · exact hready hidle.2.1
        · exact Nat.not_lt_of_le hidle.2.2 hready

/-- Once all calls are written out, the stream is a concatenation of whole frames exactly
when no task ever wrote into the frame of another. -/
theorem whole_iff {schedule : List ι}
    (hdone : Finished calls (Transition.exec (step calls) start schedule)) :
    Whole calls (Transition.exec (step calls) start schedule) ↔
      Transition.Meets (step calls) (Undivided calls) start schedule := by
  constructor
  · intro h
    have hstart : Labelled (start : Interleaving ι α) := fun i hi => absurd rfl hi
    exact undivided_of_not_divided hstart hdone h.not_divided
  · exact whole_of_undivided hdone

/-- Frames that are written as one piece are never divided. -/
theorem whole_of_atomic (hcalls : ∀ i, ∀ f ∈ calls i, f.tail = []) {schedule : List ι}
    (hdone : Finished calls (Transition.exec (step calls) start schedule)) :
    Whole calls (Transition.exec (step calls) start schedule) := by
  have hstep (s : Interleaving ι α) (i : ι) (hs : ∀ j, s.current j = []) :
      ∀ j, (step calls s i).current j = [] := by
    intro j
    rcases writes_or_idle calls s i with ⟨hwrites, -⟩ | hidle
    · cases hwrites with
      | next x xs hcurrent hstep =>
          rw [hs i] at hcurrent
          cases hcurrent
      | first f hcurrent hcall hstep =>
          rw [hstep]
          by_cases hji : j = i
          · rw [hji]
            exact (Function.update_self _ _ _).trans (hcalls i f (List.mem_of_getElem? hcall))
          · exact (Function.update_of_ne hji _ _).trans (hs j)
    · rw [hidle.1]
      exact hs j
  refine (whole_iff hdone).mpr ?_
  have hmeets (s : Interleaving ι α) (hs : ∀ j, s.current j = []) (schedule : List ι) :
      Transition.Meets (step calls) (Undivided calls) s schedule := by
    induction schedule generalizing s with
    | nil => trivial
    | cons i schedule ih => exact ⟨fun _ j _ => hs j, ih _ (hstep s i hs)⟩
  exact hmeets start (fun _ => rfl) schedule

end

end Interleaving

end TruckControl
