import Mathlib.Data.List.Basic
import Mathlib.Tactic.SplitIfs

/-!
# Frames behind a marker

A frame is a marker and a payload of fixed length. The receiver hunts for the marker and
then reads the payload; a payload may hold the marker itself.
-/

namespace TruckControl.MarkedFrames

inductive Receiver (α : Type*) where
  | hunting
  | reading (read : List α)
  deriving DecidableEq, Repr

section

variable {α : Type*} [DecidableEq α] (marker : α) (size : ℕ)

/-- A payload is delivered as it becomes complete. -/
def collect (read : List α) : Receiver α × List (List α) :=
  if read.length < size then (.reading read, []) else (.hunting, [read])

/-- One item of the stream. -/
def recv : Receiver α → α → Receiver α × List (List α)
  | .hunting, ch => if ch = marker then collect size [] else (.hunting, [])
  | .reading read, ch => collect size (read ++ [ch])

/-- The state after a stream, and the payloads it has delivered. -/
def recvs : Receiver α → List α → Receiver α × List (List α)
  | s, [] => (s, [])
  | s, ch :: chs =>
      let first := recv marker size s ch
      let rest := recvs first.1 chs
      (rest.1, first.2 ++ rest.2)

/-- A frame as it goes on the line. -/
def frame (payload : List α) : List α := marker :: payload

@[simp] theorem recvs_nil (s : Receiver α) : recvs marker size s [] = (s, []) := rfl

theorem recvs_cons (s : Receiver α) (ch : α) (chs : List α) :
    recvs marker size s (ch :: chs) =
      ((recvs marker size (recv marker size s ch).1 chs).1,
        (recv marker size s ch).2 ++ (recvs marker size (recv marker size s ch).1 chs).2) := rfl

theorem recvs_append (s : Receiver α) (xs ys : List α) :
    recvs marker size s (xs ++ ys) =
      ((recvs marker size (recvs marker size s xs).1 ys).1,
        (recvs marker size s xs).2 ++ (recvs marker size (recvs marker size s xs).1 ys).2) := by
  induction xs generalizing s with
  | nil => simp
  | cons ch xs ih => simp [recvs_cons, ih]

variable {marker size}

/-- The receiver skips what is not the marker. -/
theorem recvs_hunting {xs : List α} (h : marker ∉ xs) :
    recvs marker size .hunting xs = (.hunting, []) := by
  induction xs with
  | nil => rfl
  | cons ch xs ih =>
      obtain ⟨hch, hxs⟩ := not_or.mp (mt List.mem_cons.mpr h)
      rw [recvs_cons, recv, if_neg (Ne.symm hch), ih hxs]
      rfl

/-- Within a payload nothing is taken for the marker. -/
theorem recvs_reading {read xs : List α} (hread : read.length < size)
    (h : read.length + xs.length ≤ size) :
    recvs marker size (.reading read) xs = collect size (read ++ xs) := by
  induction xs generalizing read with
  | nil => rw [recvs_nil, List.append_nil, collect, if_pos hread]
  | cons ch xs ih =>
      rw [List.length_cons] at h
      rw [recvs_cons, recv]
      by_cases hlt : (read ++ [ch]).length < size
      · have hnext : collect size (read ++ [ch]) = (.reading (read ++ [ch]), []) := if_pos hlt
        rw [hnext, ih hlt (by simp; omega), List.append_assoc]
        rfl
      · -- the payload is complete, and nothing follows it
        have hxs : xs = [] := by
          rw [List.length_append, List.length_singleton] at hlt
          exact List.eq_nil_of_length_eq_zero (by omega)
        subst hxs
        simp

/-- From the marker on, a frame or a part of it. -/
theorem recvs_marker {xs : List α} (h : xs.length ≤ size) :
    recvs marker size .hunting (marker :: xs) = collect size xs := by
  rw [recvs_cons, recv, if_pos rfl]
  by_cases hsize : size = 0
  · subst hsize
    have hxs : xs = [] := List.eq_nil_of_length_eq_zero (by omega)
    subst hxs
    rfl
  · have hnext : collect size ([] : List α) = (.reading [], []) :=
      if_pos (Nat.pos_of_ne_zero hsize)
    rw [hnext, recvs_reading (Nat.pos_of_ne_zero hsize) (by simpa using h)]
    rfl

theorem recvs_frame {payload : List α} (h : payload.length = size) :
    recvs marker size .hunting (frame marker payload) = (.hunting, [payload]) := by
  rw [frame, recvs_marker (Nat.le_of_eq h), collect, if_neg (by omega)]

/-- What a receiver makes of a part of a stream of frames that it has followed from a
frame boundary on: it has the frames that have passed, and when it hunts, the next item is
the marker of the next frame. -/
theorem recvs_of_prefix {payloads : List (List α)} (h : ∀ payload ∈ payloads, payload.length = size)
    {xs rest : List α} (hxs : xs ++ rest = payloads.flatMap (frame marker)) :
    ∃ done todo, payloads = done ++ todo ∧ (recvs marker size .hunting xs).2 = done ∧
      ((recvs marker size .hunting xs).1 = .hunting → rest = todo.flatMap (frame marker)) ∧
      (rest = [] → todo = [] ∧ (recvs marker size .hunting xs).1 = .hunting) := by
  induction payloads generalizing xs with
  | nil =>
      obtain ⟨rfl, rfl⟩ := List.append_eq_nil_iff.mp hxs
      exact ⟨[], [], rfl, rfl, fun _ => rfl, fun _ => ⟨rfl, rfl⟩⟩
  | cons payload payloads ih =>
      obtain ⟨hlen, hrest⟩ := List.forall_mem_cons.mp h
      rw [List.flatMap_cons] at hxs
      rcases List.append_eq_append_iff.mp hxs with ⟨front, hframe, hfront⟩ | ⟨ys, rfl, hys⟩
      · cases front with
        | nil =>
            -- exactly one frame has been read
            rw [List.append_nil] at hframe
            rw [List.nil_append] at hfront
            subst hfront
            rw [← hframe, recvs_frame hlen]
            refine ⟨[payload], payloads, rfl, rfl, fun _ => rfl, fun hnil => ⟨?_, rfl⟩⟩
            cases payloads with
            | nil => rfl
            | cons _ _ => simp [frame] at hnil
        | cons x front =>
            -- the receiver is inside the first frame, or has not begun it
            cases xs with
            | nil =>
                refine ⟨[], payload :: payloads, rfl, rfl, fun _ => ?_, fun hnil => ?_⟩
                · rw [List.flatMap_cons, ← hxs, List.nil_append]
                · simp [hnil, frame] at hxs
            | cons ch xs =>
                rw [frame, List.cons_append, List.cons.injEq] at hframe
                obtain ⟨rfl, hpayload⟩ := hframe
                have hlt : xs.length < size := by
                  rw [← hlen, hpayload, List.length_append, List.length_cons]
                  omega
                have hread : recvs marker size .hunting (marker :: xs) = (.reading xs, []) := by
                  rw [recvs_marker (Nat.le_of_lt hlt), collect, if_pos hlt]
                rw [hread]
                refine ⟨[], payload :: payloads, rfl, rfl, ?_, ?_⟩
                · intro hhunt
                  cases hhunt
                · intro hnil
                  simp [hnil] at hfront
      · obtain ⟨done, todo, hsplit, hdone, hhunt, hnil⟩ := ih hrest hys.symm
        rw [recvs_append, recvs_frame hlen]
        refine ⟨payload :: done, todo, ?_, ?_, hhunt, hnil⟩
        · rw [hsplit, List.cons_append]
        · rw [hdone, List.singleton_append]

end

/-! ## Off the boundaries -/

section

variable {α : Type*} [DecidableEq α] (marker : α) (size : ℕ)

/-- At a frame boundary: where in the next frame the receiver will hunt again. -/
def offset : Receiver α → ℕ
  | .hunting => 0
  | .reading read => size - read.length

/-- Where a hunt that begins in a frame at `o` leaves off in the next one. -/
def nextOffset (payload : List α) (o : ℕ) : ℕ :=
  let p := o + ((frame marker payload).drop o).idxOf marker
  if p ≤ size then p else 0

/-- The offset of the hunt in frame `n` of a stream, when it begins in the first at `o`. -/
def huntOffset (payloads : ℕ → List α) (o : ℕ) : ℕ → ℕ
  | 0 => o
  | n + 1 => nextOffset marker size (payloads n) (huntOffset payloads o n)

/-- A receiver in the middle of a payload has something of it left to read. -/
def Receiver.Open : Receiver α → Prop
  | .hunting => True
  | .reading read => read.length < size

variable {marker size}

omit [DecidableEq α] in
theorem offset_collect {read : List α} (h : read.length ≤ size) :
    offset size (collect size read).1 = size - read.length ∧ (collect size read).1.Open size := by
  rw [collect]
  split_ifs with hlt
  · exact ⟨rfl, hlt⟩
  · refine ⟨?_, trivial⟩
    rw [offset]
    omega

/-- A hunt inside a frame. -/
theorem recvs_hunting_drop {payload : List α} (hlen : payload.length = size) {o : ℕ}
    (ho : o ≤ size) :
    offset size (recvs marker size .hunting ((frame marker payload).drop o)).1 =
        nextOffset marker size payload o ∧
      (recvs marker size .hunting ((frame marker payload).drop o)).1.Open size := by
  have hframe : ((frame marker payload).drop o).length = size + 1 - o := by simp [frame, hlen]
  simp only [nextOffset]
  by_cases hmem : marker ∈ (frame marker payload).drop o
  · obtain ⟨skipped, read, hsplit, hskipped⟩ := List.eq_append_cons_of_mem hmem
    rw [hsplit, List.length_append, List.length_cons] at hframe
    have hidx : (skipped ++ marker :: read).idxOf marker = skipped.length := by
      rw [List.idxOf_append_of_notMem hskipped, List.idxOf_cons_self, Nat.add_zero]
    have hread : offset size (collect size read).1 = size - read.length ∧
        (collect size read).1.Open size := offset_collect (by omega)
    rw [hsplit, hidx, if_pos (by omega), recvs_append, recvs_hunting hskipped,
      recvs_marker (by omega)]
    refine ⟨hread.1.trans ?_, hread.2⟩
    omega
  · rw [recvs_hunting hmem, List.idxOf_eq_length_iff.mpr hmem, hframe, if_neg (by omega)]
    exact ⟨rfl, trivial⟩

/-- A whole frame, from any state. -/
theorem offset_recvs_frame {s : Receiver α} (hs : s.Open size) {payload : List α}
    (hlen : payload.length = size) :
    offset size (recvs marker size s (frame marker payload)).1 =
        nextOffset marker size payload (offset size s) ∧
      (recvs marker size s (frame marker payload)).1.Open size := by
  cases s with
  | hunting => exact recvs_hunting_drop hlen (Nat.zero_le size)
  | reading read =>
      have hlt : read.length < size := hs
      -- the first items of the frame complete the payload at hand
      have hfirst : ((frame marker payload).take (size - read.length)).length =
          size - read.length := by
        rw [List.length_take, frame, List.length_cons, hlen]
        omega
      have hdone : recvs marker size (.reading read)
          ((frame marker payload).take (size - read.length)) =
            (.hunting, [read ++ (frame marker payload).take (size - read.length)]) := by
        rw [recvs_reading hlt (by omega), collect, if_neg]
        rw [List.length_append, hfirst]
        omega
      rw [← List.take_append_drop (size - read.length) (frame marker payload), recvs_append, hdone]
      exact recvs_hunting_drop hlen (Nat.sub_le size read.length)

/-! ## Endless streams of frames -/

variable (marker) in
/-- The stream up to frame `n`, from item `o` of its first frame on. -/
def stream (payloads : ℕ → List α) (o n : ℕ) : List α :=
  ((List.range n).flatMap fun i => frame marker (payloads i)).drop o

theorem offset_stream {payloads : ℕ → List α} (hlen : ∀ i, (payloads i).length = size) {o : ℕ}
    (ho : o ≤ size) (n : ℕ) :
    offset size (recvs marker size .hunting (stream marker payloads o (n + 1))).1 =
        huntOffset marker size payloads o (n + 1) ∧
      (recvs marker size .hunting (stream marker payloads o (n + 1))).1.Open size := by
  induction n with
  | zero =>
      have hone : stream marker payloads o 1 = (frame marker (payloads 0)).drop o := by
        simp [stream]
      rw [hone]
      exact recvs_hunting_drop (hlen 0) ho
  | succ n ih =>
      have hinside :
          o ≤ ((List.range (n + 1)).flatMap fun i => frame marker (payloads i)).length := by
        rw [List.range_succ_eq_map, List.flatMap_cons, List.length_append, frame, List.length_cons,
          hlen 0]
        omega
      have hnext : stream marker payloads o (n + 1 + 1) =
          stream marker payloads o (n + 1) ++ frame marker (payloads (n + 1)) := by
        rw [stream, List.range_succ, List.flatMap_append, List.flatMap_singleton,
          List.drop_append_of_le_length hinside]
        rfl
      rw [hnext, recvs_append, huntOffset, ← ih.1]
      exact offset_recvs_frame ih.2 (hlen (n + 1))

/-- The receiver hunts at the beginning of frame `n`. -/
def OnBoundary (marker : α) (size : ℕ) (payloads : ℕ → List α) (o n : ℕ) : Prop :=
  (recvs marker size .hunting (stream marker payloads o n)).1 = .hunting

omit [DecidableEq α] in
theorem eq_hunting_iff {s : Receiver α} (hs : s.Open size) : s = .hunting ↔ offset size s = 0 := by
  cases s with
  | hunting => simp [offset]
  | reading read =>
      have hlt : read.length < size := hs
      simp only [offset, reduceCtorEq, false_iff]
      omega

theorem onBoundary_iff {payloads : ℕ → List α} (hlen : ∀ i, (payloads i).length = size) {o : ℕ}
    (ho : o ≤ size) (n : ℕ) :
    OnBoundary marker size payloads o (n + 1) ↔
      huntOffset marker size payloads o (n + 1) = 0 := by
  obtain ⟨hoffset, hopen⟩ := offset_stream hlen ho n
  rw [OnBoundary, eq_hunting_iff hopen, hoffset]

theorem nextOffset_zero (payload : List α) : nextOffset marker size payload 0 = 0 := by
  simp [nextOffset, frame]

/-- A hunt off the boundary comes back to it in a frame without a marker from there on. -/
theorem nextOffset_eq_zero_iff {payload : List α} (hlen : payload.length = size) {o : ℕ}
    (ho : o ≠ 0) :
    nextOffset marker size payload o = 0 ↔ marker ∉ payload.drop (o - 1) := by
  obtain ⟨o, rfl⟩ := Nat.exists_eq_succ_of_ne_zero ho
  rw [nextOffset, frame, List.drop_succ_cons, Nat.succ_sub_one]
  have hle := List.idxOf_le_length (a := marker) (l := payload.drop o)
  have hdrop : (payload.drop o).length = size - o := by rw [List.length_drop, hlen]
  constructor
  · intro h hmem
    have hlt := List.idxOf_lt_length_of_mem hmem
    rw [if_pos (by omega)] at h
    omega
  · intro hmem
    rw [List.idxOf_eq_length_iff.mpr hmem, hdrop]
    by_cases hlate : o ≤ size
    · rw [if_neg (by omega)]
    · rw [if_neg (by omega)]

/-- What brings the receiver to the boundaries. -/
theorem huntOffset_eq_zero_iff {payloads : ℕ → List α} (hlen : ∀ i, (payloads i).length = size)
    (o n : ℕ) :
    huntOffset marker size payloads o n = 0 ↔
      o = 0 ∨ ∃ i < n, marker ∉ (payloads i).drop (huntOffset marker size payloads o i - 1) := by
  induction n with
  | zero => simp [huntOffset]
  | succ n ih =>
      by_cases hn : huntOffset marker size payloads o n = 0
      · rw [huntOffset, hn, nextOffset_zero]
        refine ⟨fun _ => ?_, fun _ => rfl⟩
        rcases ih.mp hn with h | ⟨i, hi, h⟩
        · exact .inl h
        · exact .inr ⟨i, Nat.lt_succ_of_lt hi, h⟩
      · rw [huntOffset, nextOffset_eq_zero_iff (hlen n) hn]
        constructor
        · intro h
          exact .inr ⟨n, Nat.lt_succ_self n, h⟩
        · intro h
          rcases h with h | ⟨i, hi, h⟩
          · exact absurd (ih.mpr (.inl h)) hn
          · rcases Nat.lt_succ_iff_lt_or_eq.mp hi with hlt | rfl
            · exact absurd (ih.mpr (.inr ⟨i, hlt, h⟩)) hn
            · exact h

end

end TruckControl.MarkedFrames
