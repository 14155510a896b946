import Mathlib.Data.List.Basic
import Mathlib.Tactic.SplitIfs

/-!
# A receiver that finds its headers again

Packets come behind headers of fixed size that begin with a preamble and announce the
size of the packet. A receiver that does not find the preamble where it expects a header
shifts what it has to the first place where the preamble may begin, and reads on.
-/

namespace TruckControl.Resync

/-- A header or a packet, with what has been read of it. -/
inductive Receiver (α : Type*) where
  | header (got : List α)
  | body (size : ℕ) (got : List α)
  | closed
  deriving DecidableEq, Repr

section

variable {α : Type*} [DecidableEq α]

/-- The preamble matches as far as there are items to compare. -/
def contains (preamble xs : List α) : Bool := (preamble.zip xs).all fun p => p.1 = p.2

/-- The first place where the preamble may begin. -/
def search (preamble : List α) : List α → ℕ
  | [] => 0
  | x :: xs => if contains preamble (x :: xs) then 0 else search preamble xs + 1

theorem search_le_length (preamble xs : List α) : search preamble xs ≤ xs.length := by
  induction xs with
  | nil => exact Nat.le_refl 0
  | cons x xs ih =>
      rw [search, List.length_cons]
      split_ifs
      · exact Nat.zero_le _
      · exact Nat.succ_le_succ ih

theorem search_le {preamble xs : List α} {i : ℕ} (h : contains preamble (xs.drop i)) :
    search preamble xs ≤ i := by
  induction xs generalizing i with
  | nil => exact Nat.zero_le i
  | cons x xs ih =>
      cases i with
      | zero =>
          rw [List.drop_zero] at h
          exact Nat.le_of_eq (if_pos h)
      | succ i =>
          rw [search]
          split_ifs
          · exact Nat.zero_le _
          · exact Nat.succ_le_succ (ih h)

theorem search_pos {preamble xs : List α} (hxs : xs ≠ []) (h : ¬ contains preamble xs) :
    0 < search preamble xs := by
  cases xs with
  | nil => exact absurd rfl hxs
  | cons x xs =>
      rw [search, if_neg h]
      exact Nat.succ_pos _

/-- The beginning of what begins with the preamble. -/
theorem contains_take {preamble xs : List α} (h : preamble <+: xs) (n : ℕ) :
    contains preamble (xs.take n) := by
  obtain ⟨rest, rfl⟩ := h
  induction preamble generalizing n with
  | nil => rfl
  | cons p preamble ih =>
      cases n with
      | zero => rfl
      | succ n => simpa [contains] using ih n

/-! ## Reading -/

variable (preamble : List α) (headerSize : ℕ) (announced : List α → Option ℕ)

/-- How much the receiver has asked for. -/
def wanted : Receiver α → ℕ
  | .header got => headerSize - got.length
  | .body size got => size - got.length
  | .closed => 0

/-- Some of what was asked for arrives. An empty read closes the connection. -/
def received (r : Receiver α) (xs : List α) : Receiver α × List (List α) :=
  if xs = [] then (.closed, [])
  else
    match r with
    | .header got =>
        let got := got ++ xs
        if got.length < headerSize then (.header got, [])
        else
          match announced got with
          | none => (.header (got.drop (search preamble got)), [])
          | some size => (.body size [], [])
    | .body size got =>
        let got := got ++ xs
        if got.length < size then (.body size got, []) else (.header [], [got])
    | .closed => (.closed, [])

/-- The receiver reads a stream in pieces of any size that it has room for. -/
inductive Feeds : Receiver α → List α → Receiver α → List (List α) → Prop where
  | nil (r : Receiver α) : Feeds r [] r []
  | read {r r' : Receiver α} {xs rest : List α} {packets : List (List α)} (hne : xs ≠ [])
      (hroom : xs.length ≤ wanted headerSize r)
      (hrest : Feeds (received preamble headerSize announced r xs).1 rest r' packets) :
      Feeds r (xs ++ rest) r' ((received preamble headerSize announced r xs).2 ++ packets)

/-- The receiver reads a stream item by item, unless it stops asking. -/
def receives : Receiver α → List α → Option (Receiver α × List (List α))
  | r, [] => some (r, [])
  | r, x :: xs =>
      if wanted headerSize r = 0 then none
      else
        let first := received preamble headerSize announced r [x]
        (receives first.1 xs).map fun rest => (rest.1, first.2 ++ rest.2)

variable {preamble headerSize announced}

theorem receives_cons {r : Receiver α} (h : wanted headerSize r ≠ 0) (x : α) (xs : List α) :
    receives preamble headerSize announced r (x :: xs) =
      (receives preamble headerSize announced
        (received preamble headerSize announced r [x]).1 xs).map fun rest =>
          (rest.1, (received preamble headerSize announced r [x]).2 ++ rest.2) := by
  rw [receives, if_neg h]

theorem receives_append (r : Receiver α) (xs ys : List α) :
    receives preamble headerSize announced r (xs ++ ys) =
      (receives preamble headerSize announced r xs).bind fun first =>
        (receives preamble headerSize announced first.1 ys).map fun rest =>
          (rest.1, first.2 ++ rest.2) := by
  induction xs generalizing r with
  | nil => simp [receives]
  | cons x xs ih =>
      by_cases h : wanted headerSize r = 0
      · rw [List.cons_append, receives, if_pos h, receives, if_pos h]
        rfl
      · rw [List.cons_append, receives_cons h, receives_cons h, ih, Option.map_bind,
          Option.bind_map]
        congr 1
        funext first
        simp [Function.comp_def]

/-- A piece and the item in front of it may as well arrive together. -/
theorem received_cons {r : Receiver α} {x : α} {xs : List α} (hne : xs ≠ [])
    (hroom : (x :: xs).length ≤ wanted headerSize r) :
    (received preamble headerSize announced r [x]).2 = [] ∧
      received preamble headerSize announced (received preamble headerSize announced r [x]).1 xs =
        received preamble headerSize announced r (x :: xs) ∧
      xs.length ≤ wanted headerSize (received preamble headerSize announced r [x]).1 := by
  have hpos : 0 < xs.length := List.length_pos_of_ne_nil hne
  rw [List.length_cons] at hroom
  cases r with
  | header got =>
      rw [wanted] at hroom
      have hlt : (got ++ [x]).length < headerSize := by
        rw [List.length_append, List.length_singleton]
        omega
      have hone : received preamble headerSize announced (.header got) [x] =
          (.header (got ++ [x]), []) := by
        rw [received, if_neg (List.cons_ne_nil x []), if_pos hlt]
      rw [hone]
      refine ⟨rfl, ?_, ?_⟩
      · rw [received, if_neg hne, received, if_neg (List.cons_ne_nil x xs)]
        simp only [List.append_assoc, List.singleton_append]
      · rw [wanted, List.length_append, List.length_singleton]
        omega
  | body size got =>
      rw [wanted] at hroom
      have hlt : (got ++ [x]).length < size := by
        rw [List.length_append, List.length_singleton]
        omega
      have hone : received preamble headerSize announced (.body size got) [x] =
          (.body size (got ++ [x]), []) := by
        rw [received, if_neg (List.cons_ne_nil x []), if_pos hlt]
      rw [hone]
      refine ⟨rfl, ?_, ?_⟩
      · rw [received, if_neg hne, received, if_neg (List.cons_ne_nil x xs)]
        simp only [List.append_assoc, List.singleton_append]
      · rw [wanted, List.length_append, List.length_singleton]
        omega
  | closed =>
      rw [wanted] at hroom
      omega

theorem receives_piece {r : Receiver α} {xs : List α} (hne : xs ≠ [])
    (hroom : xs.length ≤ wanted headerSize r) :
    receives preamble headerSize announced r xs =
      some (received preamble headerSize announced r xs) := by
  induction xs generalizing r with
  | nil => exact absurd rfl hne
  | cons x xs ih =>
      have hwanted : wanted headerSize r ≠ 0 := by
        rw [List.length_cons] at hroom
        omega
      rw [receives_cons hwanted]
      by_cases hxs : xs = []
      · subst hxs
        simp [receives]
      · have hcons := @received_cons _ _ preamble headerSize announced r x xs hxs hroom
        rw [ih hxs hcons.2.2, hcons.1, hcons.2.1]
        rfl

/-- The sizes of the pieces do not matter. -/
theorem feeds_iff {r r' : Receiver α} {xs : List α} {packets : List (List α)} :
    Feeds preamble headerSize announced r xs r' packets ↔
      receives preamble headerSize announced r xs = some (r', packets) := by
  constructor
  · intro h
    induction h with
    | nil r => rfl
    | read hne hroom hrest ih =>
        rw [receives_append, receives_piece hne hroom, Option.bind_some, ih]
        rfl
  · intro h
    induction xs generalizing r packets with
    | nil =>
        cases h
        exact .nil _
    | cons x xs ih =>
        by_cases hwanted : wanted headerSize r = 0
        · rw [receives, if_pos hwanted] at h
          cases h
        · rw [receives_cons hwanted] at h
          obtain ⟨rest, hrest, heq⟩ := Option.map_eq_some_iff.mp h
          cases heq
          exact .read (List.cons_ne_nil x []) (Nat.one_le_iff_ne_zero.mpr hwanted) (ih hrest)

/-! ## Headers, packets and what lies between them -/

theorem receives_header {got xs : List α} (h : got.length + xs.length < headerSize) :
    receives preamble headerSize announced (.header got) xs = some (.header (got ++ xs), []) := by
  cases xs with
  | nil => rw [List.append_nil, receives]
  | cons x xs =>
      have hne := List.cons_ne_nil x xs
      rw [receives_piece hne (by rw [wanted]; omega), received, if_neg hne, if_pos]
      rw [List.length_append]
      exact h

/-- What has been read of a header may as well lie ahead. -/
theorem receives_header_append {got : List α} (h : got.length < headerSize) (rest : List α) :
    receives preamble headerSize announced (.header []) (got ++ rest) =
      receives preamble headerSize announced (.header got) rest := by
  have hgot : receives preamble headerSize announced (.header []) got = some (.header got, []) := by
    rw [receives_header (by simpa using h), List.nil_append]
  rw [receives_append, hgot, Option.bind_some]
  simp

/-- A full window without a header is shifted. -/
theorem receives_slide {window : List α} (hlen : window.length = headerSize)
    (hnone : announced window = none) (hpos : 0 < search preamble window) (rest : List α) :
    receives preamble headerSize announced (.header []) (window ++ rest) =
      receives preamble headerSize announced (.header [])
        (window.drop (search preamble window) ++ rest) := by
  have hle := search_le_length preamble window
  have hne : window ≠ [] := by
    intro h
    rw [h] at hpos
    exact Nat.lt_irrefl 0 hpos
  have hread : receives preamble headerSize announced (.header []) window =
      some (.header (window.drop (search preamble window)), []) := by
    rw [receives_piece hne (by rw [wanted, List.length_nil]; omega), received, if_neg hne]
    simp only [List.nil_append, if_neg (by omega : ¬ window.length < headerSize), hnone]
  have hshort : (window.drop (search preamble window)).length < headerSize := by
    rw [List.length_drop]
    omega
  rw [receives_append, hread, Option.bind_some, receives_header_append hshort]
  simp

/-- A header and the packet that it announces. -/
theorem receives_packet {header packet : List α} (hlen : header.length = headerSize)
    (hheader : 0 < headerSize) (hsize : announced header = some packet.length)
    (hpacket : packet ≠ []) (rest : List α) :
    receives preamble headerSize announced (.header []) (header ++ packet ++ rest) =
      (receives preamble headerSize announced (.header []) rest).map fun last =>
        (last.1, packet :: last.2) := by
  have hne : header ≠ [] := List.ne_nil_of_length_pos (by omega)
  have hread : receives preamble headerSize announced (.header []) header =
      some (.body packet.length [], []) := by
    rw [receives_piece hne (by rw [wanted, List.length_nil]; omega), received, if_neg hne]
    simp only [List.nil_append, if_neg (by omega : ¬ header.length < headerSize), hsize]
  have hbody : receives preamble headerSize announced (.body packet.length []) packet =
      some (.header [], [packet]) := by
    rw [receives_piece hpacket (Nat.le_refl _), received, if_neg hpacket]
    simp
  rw [List.append_assoc, receives_append, hread, Option.bind_some, receives_append, hbody,
    Option.bind_some]
  simp [Function.comp_def]

/-- Nothing in it can be taken for the beginning `p, q` of a preamble. -/
def Foreign (p q : α) (junk : List α) : Prop :=
  ∀ i, junk[i]? = some p → ∃ c, junk[i + 1]? = some c ∧ c ≠ q

omit [DecidableEq α] in
theorem Foreign.drop {p q : α} {junk : List α} (h : Foreign p q junk) (n : ℕ) :
    Foreign p q (junk.drop n) := by
  intro i hi
  rw [List.getElem?_drop] at hi ⊢
  exact h (n + i) hi

/-- A window that begins in junk does not begin with the preamble. -/
theorem Foreign.not_contains {p q : α} {junk : List α} (h : Foreign p q junk) (hne : junk ≠ [])
    (ps tail : List α) {n : ℕ} (hn : 2 ≤ n) :
    ¬ contains (p :: q :: ps) ((junk ++ tail).take n) := by
  obtain ⟨m, rfl⟩ := Nat.exists_eq_add_of_le' hn
  intro hcontains
  cases junk with
  | nil => exact hne rfl
  | cons x junk =>
      cases junk with
      | nil =>
          have hx : x ≠ p := by
            intro hx
            obtain ⟨c, hc, -⟩ := h 0 (by rw [hx]; rfl)
            cases hc
          simp [contains, Ne.symm hx] at hcontains
      | cons y junk =>
          simp only [contains, List.cons_append, List.take_succ_cons, List.zip_cons_cons,
            List.all_cons, Bool.and_eq_true, decide_eq_true_eq] at hcontains
          obtain ⟨c, hc, hcq⟩ := h 0 (by rw [hcontains.1]; rfl)
          have hy : y = c := Option.some.inj hc
          exact hcq (hy.symm.trans hcontains.2.1.symm)

/-- The receiver passes over junk to what follows it. -/
theorem receives_foreign {p q : α} {ps : List α} (hsize : 2 ≤ headerSize)
    (hannounced : ∀ window, window.length = headerSize → announced window ≠ none →
      contains (p :: q :: ps) window) {junk tail : List α} (hjunk : Foreign p q junk)
    (htail : tail = [] ∨ p :: q :: ps <+: tail ∧ headerSize ≤ tail.length) :
    (receives (p :: q :: ps) headerSize announced (.header []) (junk ++ tail)).map Prod.snd =
      (receives (p :: q :: ps) headerSize announced (.header []) tail).map Prod.snd := by
  induction hn : junk.length using Nat.strongRecOn generalizing junk with
  | ind n ih =>
      by_cases hne : junk = []
      · rw [hne, List.nil_append]
      · by_cases hshort : (junk ++ tail).length < headerSize
        · -- not even a header is left
          have hnil : tail = [] := by
            rcases htail with h | h
            · exact h
            · rw [List.length_append] at hshort
              omega
          rw [hnil, List.append_nil] at hshort ⊢
          rw [receives_header (by simpa using hshort)]
          rfl
        · set window := (junk ++ tail).take headerSize with hwindow
          have hlen : window.length = headerSize := by
            rw [hwindow, List.length_take]
            omega
          have hnot : ¬ contains (p :: q :: ps) window := hjunk.not_contains hne ps tail hsize
          have hnone : announced window = none := by
            by_contra h
            exact hnot (hannounced window hlen h)
          have hpos : 0 < search (p :: q :: ps) window :=
            search_pos (List.ne_nil_of_length_pos (by omega)) hnot
          have hle : search (p :: q :: ps) window ≤ junk.length := by
            by_cases hfar : headerSize ≤ junk.length
            · exact Nat.le_trans (search_le_length _ window) (by omega)
            · apply search_le
              rw [hwindow, List.drop_take, List.drop_left]
              rcases htail with h | h
              · rw [h, List.take_nil]
                rfl
              · exact contains_take h.1 _
          have hshift : window.drop (search (p :: q :: ps) window) ++
              (junk ++ tail).drop headerSize =
                junk.drop (search (p :: q :: ps) window) ++ tail := by
            have hin := search_le_length (p :: q :: ps) window
            rw [← List.drop_append_of_le_length hin, hwindow, List.take_append_drop,
              ← hwindow, List.drop_append_of_le_length hle]
          have hstep : receives (p :: q :: ps) headerSize announced (.header []) (junk ++ tail) =
              receives (p :: q :: ps) headerSize announced (.header [])
                (junk.drop (search (p :: q :: ps) window) ++ tail) := by
            rw [← hshift, ← receives_slide hlen hnone hpos, hwindow, List.take_append_drop]
          rw [hstep]
          refine ih _ ?_ (hjunk.drop _) rfl
          rw [List.length_drop, ← hn]
          have := List.length_pos_of_ne_nil hne
          omega

end

end TruckControl.Resync
